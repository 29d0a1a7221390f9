import GradeIo.Firestore.LocalView
import GradeIo.Firestore.SyncEngine

/-!
# The pipeline of writes

What the write stream looks like between two operations, for the writes in the
pipeline (`WriteStream.Shape`): closed, starting, waiting, before the handshake,
or established, and then what is not answered yet are the writes of the pipeline.
The pipeline is the front of the queue (`RemoteStore.Inv`). Every operation keeps
this, and no assertion fails (`step_of_inv`); what a step does besides is one of
the moves of `Move`.
-/

namespace GradeIo.Firestore

/-! ## Tokens -/

/-- They were asked for before the stream was last closed. -/
def Stale (tokens : List Nat) (count : Nat) : Prop := ∀ c ∈ tokens, c < count

/-- One was asked for since then. -/
def Live (tokens : List Nat) (count : Nat) : Prop :=
  ∃ old, tokens.Perm (count :: old) ∧ Stale old count

section

variable {tokens : List Nat} {count i c : Nat}

theorem Stale.eraseIdx (h : Stale tokens count) (i : Nat) : Stale (tokens.eraseIdx i) count :=
  fun c hc => h c (List.mem_of_mem_eraseIdx hc)

theorem Stale.live (h : Stale tokens count) : Live (tokens ++ [count]) count :=
  ⟨tokens, List.perm_append_singleton count tokens, h⟩

theorem Stale.succ (h : Stale tokens count) : Stale tokens (count + 1) :=
  fun c hc => Nat.lt_succ_of_lt (h c hc)

theorem Live.succ (h : Live tokens count) : Stale tokens (count + 1) := by
  obtain ⟨old, hperm, hold⟩ := h
  intro c hc
  rcases List.mem_cons.mp (hperm.subset hc) with rfl | hc
  · omega
  · have := hold c hc
    omega

theorem perm_eraseIdx (h : tokens[i]? = some c) : tokens.Perm (c :: tokens.eraseIdx i) := by
  obtain ⟨hi, rfl⟩ := List.getElem?_eq_some_iff.mp h
  exact (List.getElem_cons_eraseIdx_perm hi).symm

theorem Live.eraseIdx_self (h : Live tokens count) (hi : tokens[i]? = some count) :
    Stale (tokens.eraseIdx i) count := by
  obtain ⟨old, hperm, hold⟩ := h
  have hrest := ((perm_eraseIdx hi).symm.trans hperm).cons_inv
  exact fun c hc => hold c (hrest.subset hc)

theorem Live.eraseIdx_of_ne (h : Live tokens count) (hi : tokens[i]? = some c) (hne : c ≠ count) :
    Live (tokens.eraseIdx i) count := by
  obtain ⟨old, hperm, hold⟩ := h
  have hc : c ∈ old := by
    rcases List.mem_cons.mp (hperm.subset (List.mem_of_getElem? hi)) with hc | hc
    · exact absurd hc hne
    · exact hc
  refine ⟨old.erase c, ?_, fun d hd => hold d (List.mem_of_mem_erase hd)⟩
  have hswap : (count :: old).Perm (c :: count :: old.erase c) :=
    ((List.perm_cons_erase hc).cons count).trans (List.Perm.swap c count _)
  exact ((perm_eraseIdx hi).symm.trans (hperm.trans hswap)).cons_inv

end

/-! ## The stream -/

/-- The requests for the writes of a pipeline. -/
def requests (pipeline : List MutationBatch) : List WriteRequest :=
  pipeline.map fun b => .mutations b.mutations

theorem requests_concat (p : List MutationBatch) (b : MutationBatch) :
    requests (p ++ [b]) = requests p ++ [.mutations b.mutations] := List.map_append

namespace WriteStream

/-- While the stream is being closed, a handshake may still count as complete. -/
inductive Shape : WriteStream → List MutationBatch → Prop
  | closed {state : StreamState} {count : Nat} {tokens : List Nat} {hs : Bool}
      {p : List MutationBatch} : state = .initial ∨ state = .error → Stale tokens count →
      Shape ⟨state, count, false, false, tokens, none, hs⟩ p
  | starting {count : Nat} {tokens : List Nat} {hs : Bool} {p : List MutationBatch} :
      Live tokens count → Shape ⟨.starting, count, false, false, tokens, none, hs⟩ p
  | backoff {count : Nat} {tokens : List Nat} {hs : Bool} {p : List MutationBatch} :
      Stale tokens count → Shape ⟨.backoff, count, false, true, tokens, none, hs⟩ p
  | handshaking {count : Nat} {tokens : List Nat} {p : List MutationBatch} : Stale tokens count →
      Shape ⟨.opened, count, false, false, tokens, some [.handshake], false⟩ p
  | established {count : Nat} {idle : Bool} {tokens : List Nat} {p : List MutationBatch} :
      Stale tokens count → (idle = true → p = []) →
      Shape ⟨.opened, count, idle, false, tokens, some (requests p), true⟩ p

variable {w : WriteStream} {p : List MutationBatch}

/-- An idle stream is established, and nothing is to be sent. -/
theorem Shape.of_idle (h : w.Shape p) (hidle : w.idlenessTimer = true) :
    w.isOpen = true ∧ w.handshakeComplete = true ∧ p = [] := by
  cases h with
  | established _ hp => exact ⟨rfl, rfl, hp hidle⟩
  | _ => cases hidle

theorem Shape.shut (h : w.Shape p) (status : Code) (p' : List MutationBatch) :
    (w.shut status).Shape p' := by
  have hstate : (if status = .ok then StreamState.initial else .error) = .initial
      ∨ (if status = .ok then StreamState.initial else .error) = .error := by
    split
    · exact Or.inl rfl
    · exact Or.inr rfl
  cases h with
  | closed _ hstale => exact .closed hstate hstale.succ
  | starting hlive => exact .closed hstate hlive.succ
  | backoff hstale => exact .closed hstate hstale.succ
  | handshaking hstale => exact .closed hstate hstale.succ
  | established hstale _ => exact .closed hstate hstale.succ

theorem isStarted_shut (w : WriteStream) (status : Code) : (w.shut status).isStarted = false := by
  by_cases h : status = .ok <;> simp [WriteStream.shut, isStarted, isOpen, h]

theorem Shape.forget (h : w.Shape p) (hopen : w.isOpen = false) :
    Shape { w with handshakeComplete := false } p := by
  cases h with
  | closed hstate hstale => exact .closed hstate hstale
  | starting hlive => exact .starting hlive
  | backoff hstale => exact .backoff hstale
  | handshaking _ => cases hopen
  | established _ _ => cases hopen

/-- A closed stream can be started. -/
theorem Shape.start (h : w.Shape p) (hclosed : w.isStarted = false) :
    ∃ w', w.start = some w' ∧ w'.Shape p ∧ w'.isStarted = true ∧ w'.isOpen = w.isOpen
      ∧ w'.handshakeComplete = w.handshakeComplete := by
  cases h with
  | closed hstate hstale =>
      rcases hstate with rfl | rfl
      · exact ⟨_, rfl, .starting hstale.live, rfl, rfl, rfl⟩
      · exact ⟨_, rfl, .backoff hstale, rfl, rfl, rfl⟩
  | _ => cases hclosed

theorem Shape.inhibitBackoff (h : w.Shape p) (hclosed : w.isStarted = false) :
    ∃ w', w.inhibitBackoff = some w' ∧ w'.Shape p ∧ w'.isStarted = false
      ∧ w'.handshakeComplete = w.handshakeComplete := by
  cases h with
  | closed hstate hstale =>
      rcases hstate with rfl | rfl
      · exact ⟨_, rfl, .closed (Or.inl rfl) hstale, rfl, rfl⟩
      · exact ⟨_, rfl, .closed (Or.inl rfl) hstale, rfl, rfl⟩
  | _ => cases hclosed

/-- One more write: it is sent at once if the stream is established. -/
theorem Shape.add (h : w.Shape p) (b : MutationBatch) :
    ∃ w', (if w.isOpen && w.handshakeComplete then w.writeMutations b.mutations else some w) =
        some w'
      ∧ w'.Shape (p ++ [b]) ∧ w'.state = w.state ∧ w'.handshakeComplete = w.handshakeComplete := by
  cases h with
  | closed hstate hstale =>
      refine ⟨_, if_neg ?_, .closed hstate hstale, rfl, rfl⟩
      rcases hstate with rfl | rfl <;> simp [isOpen]
  | starting hlive => exact ⟨_, rfl, .starting hlive, rfl, rfl⟩
  | backoff hstale => exact ⟨_, rfl, .backoff hstale, rfl, rfl⟩
  | handshaking hstale => exact ⟨_, rfl, .handshaking hstale, rfl, rfl⟩
  | @established count idle tokens p hstale _ =>
      refine ⟨⟨.opened, count, false, false, tokens, some (requests (p ++ [b])), true⟩, ?_,
        .established hstale (fun h => by cases h), rfl, rfl⟩
      rw [requests_concat]
      rfl

theorem Shape.isStarted_of_stream (h : w.Shape p) (hstream : w.grpcStream.isSome) :
    w.isStarted = true := by
  cases h with
  | handshaking _ => rfl
  | established _ _ => rfl
  | _ => cases hstream

theorem Shape.markIdle (h : w.Shape []) (hw : w.isStarted = true → w.isOpen = true
      ∧ w.handshakeComplete = true) :
    w.markIdle.Shape [] ∧ w.markIdle.state = w.state
      ∧ w.markIdle.handshakeComplete = w.handshakeComplete
      ∧ (w.isStarted = true → w.markIdle.idlenessTimer = true) := by
  cases h with
  | closed hstate hstale =>
      rcases hstate with rfl | rfl
      · exact ⟨.closed (Or.inl rfl) hstale, rfl, rfl, fun h => by cases h⟩
      · exact ⟨.closed (Or.inr rfl) hstale, rfl, rfl, fun h => by cases h⟩
  | starting _ => cases (hw rfl).1
  | backoff _ => cases (hw rfl).1
  | handshaking _ => cases (hw rfl).2
  | @established count idle tokens p hstale _ =>
      cases idle
      · exact ⟨.established hstale fun _ => rfl, rfl, rfl, fun _ => rfl⟩
      · exact ⟨.established hstale fun _ => rfl, rfl, rfl, fun _ => rfl⟩

theorem Shape.backoffElapsed (h : w.Shape p) (htimer : w.backoffTimer = true) :
    w.isStarted = true ∧ w.idlenessTimer = false ∧ ∃ w', w.backoffElapsed = some w' ∧ w'.Shape p
      ∧ w'.isStarted = true ∧ w'.idlenessTimer = false
      ∧ w'.isOpen = w.isOpen ∧ w'.handshakeComplete = w.handshakeComplete := by
  cases h with
  | backoff hstale => exact ⟨rfl, rfl, _, rfl, .starting hstale.live, rfl, rfl, rfl, rfl⟩
  | _ => cases htimer

/-- A token from before is dropped. -/
theorem Shape.dropToken (h : w.Shape p) {i c : Nat} (hi : w.tokenRequests[i]? = some c)
    (hc : w.closeCount ≠ c) :
    Shape { w with tokenRequests := w.tokenRequests.eraseIdx i } p := by
  cases h with
  | closed hstate hstale => exact .closed hstate (hstale.eraseIdx i)
  | starting hlive => exact .starting (hlive.eraseIdx_of_ne hi (Ne.symm hc))
  | backoff hstale => exact .backoff (hstale.eraseIdx i)
  | handshaking hstale => exact .handshaking (hstale.eraseIdx i)
  | established hstale hp => exact .established (hstale.eraseIdx i) hp

/-- The token that was asked for last is used once, by a stream that is starting. -/
theorem Shape.takeToken (h : w.Shape p) {i : Nat}
    (hi : w.tokenRequests[i]? = some w.closeCount) :
    w.state = .starting ∧ w.idlenessTimer = false
      ∧ { w with tokenRequests := w.tokenRequests.eraseIdx i } = ⟨.starting, w.closeCount, false,
          false, w.tokenRequests.eraseIdx i, none, w.handshakeComplete⟩
      ∧ Stale (w.tokenRequests.eraseIdx i) w.closeCount := by
  have hmem := List.mem_of_getElem? hi
  cases h with
  | starting hlive => exact ⟨rfl, rfl, rfl, hlive.eraseIdx_self hi⟩
  | closed _ hstale => exact absurd (hstale _ hmem) (Nat.lt_irrefl _)
  | backoff hstale => exact absurd (hstale _ hmem) (Nat.lt_irrefl _)
  | handshaking hstale => exact absurd (hstale _ hmem) (Nat.lt_irrefl _)
  | established hstale _ => exact absurd (hstale _ hmem) (Nat.lt_irrefl _)

theorem Shape.sent (h : w.Shape p) {rs : List WriteRequest} (hrs : w.grpcStream = some rs) :
    rs = [.handshake] ∨ rs = requests p := by
  cases h with
  | handshaking _ => exact Or.inl (Option.some.inj hrs).symm
  | established _ _ => exact Or.inr (Option.some.inj hrs).symm
  | _ => cases hrs

/-- What can be answered: the handshake, or the first write. -/
theorem Shape.first (h : w.Shape p) {rs : List WriteRequest} {request : WriteRequest}
    (hrs : w.grpcStream = some rs) (hfirst : rs.head? = some request) :
    ∃ count tokens, Stale tokens count
      ∧ (w = ⟨.opened, count, false, false, tokens, some [.handshake], false⟩
        ∨ ∃ b rest, p = b :: rest ∧ request = .mutations b.mutations
          ∧ w = ⟨.opened, count, false, false, tokens, some (requests (b :: rest)), true⟩) := by
  cases h with
  | handshaking hstale => exact ⟨_, _, hstale, Or.inl rfl⟩
  | @established count idle tokens p hstale hp =>
      obtain rfl := Option.some.inj hrs
      cases p with
      | nil => cases hfirst
      | cons b rest =>
          have hbusy : idle = false := by
            by_contra hidle
            cases hp (by simpa using hidle)
          subst hbusy
          exact ⟨count, tokens, hstale, Or.inr ⟨b, rest, rfl, (Option.some.inj hfirst).symm, rfl⟩⟩
  | _ => cases hrs

/-- The writes of a pipeline are sent one by one. -/
theorem foldlM_writeMutations {count : Nat} {tokens : List Nat} (p : List MutationBatch)
    (rs : List WriteRequest) :
    p.foldlM (fun (w : WriteStream) b => w.writeMutations b.mutations)
        ⟨.opened, count, false, false, tokens, some rs, true⟩ =
      some ⟨.opened, count, false, false, tokens, some (rs ++ requests p), true⟩ := by
  induction p generalizing rs with
  | nil => rw [requests, List.map_nil, List.append_nil]; rfl
  | cons b p ih =>
      have hrs : rs ++ requests (b :: p) = rs ++ [.mutations b.mutations] ++ requests p := by
        simp [requests]
      rw [List.foldlM_cons, hrs, ← ih]
      rfl

theorem isStarted_of_state {w w' : WriteStream} (h : w'.state = w.state) :
    w'.isStarted = w.isStarted ∧ w'.isOpen = w.isOpen := by
  unfold isStarted isOpen
  rw [h]
  exact ⟨rfl, rfl⟩

end WriteStream

/-! ## Filling the pipeline -/

/-- The next batch of the queue is the one behind its first `n`. -/
theorem MemoryMutationQueue.Inv.next_take {q : MemoryMutationQueue} (h : q.Inv) {n : Nat}
    (hn : n ≤ q.queue.length) :
    q.nextMutationBatchAfterBatchId ((q.queue.take n).getLast?.elim (-1) MutationBatch.batchId) =
      q.queue[n]? := by
  have hpos := h.positive
  cases hq : q.queue with
  | nil =>
      unfold MemoryMutationQueue.nextMutationBatchAfterBatchId
      rw [hq]
      rfl
  | cons first rest =>
      have hfirst := h.ids 0 first (by rw [hq]; rfl)
      have hlast : (q.queue.take n).getLast?.elim (-1) MutationBatch.batchId =
          if n = 0 then -1 else first.batchId + n - 1 := by
        cases n with
        | zero => rfl
        | succ m =>
            have hlt : m < q.queue.length := hn
            have hget := h.ids m _ (List.getElem?_eq_getElem hlt)
            rw [List.getLast?_take, if_neg (Nat.succ_ne_zero m), if_neg (Nat.succ_ne_zero m)]
            simp only [Nat.add_sub_cancel, List.getElem?_eq_getElem hlt, Option.some_or,
              Option.elim_some]
            omega
      rw [hq] at hlast
      rw [hlast]
      unfold MemoryMutationQueue.nextMutationBatchAfterBatchId MemoryMutationQueue.indexOfBatchId
      rw [hq] at hfirst hpos ⊢
      simp only [List.length_cons] at hfirst hpos ⊢
      by_cases h0 : n = 0
      · subst h0
        rw [if_pos rfl, if_pos (by omega)]
      · rw [if_neg h0, if_neg (by omega)]
        congr 1
        omega

namespace RemoteStore

open WriteStream

variable {r : RemoteStore} {queue : List MutationBatch}

/-- Between two operations: what is sent is the front of the queue, the stream is
started as long as there is something to send, and then it is idle. -/
structure Inv (r : RemoteStore) (queue : List MutationBatch) : Prop where
  shape : r.writeStream.Shape r.writePipeline
  pipeline : r.writePipeline = if r.isNetworkEnabled then queue.take kMaxPendingWrites else []
  started : r.writePipeline ≠ [] → r.writeStream.isStarted = true
  idle : r.writePipeline = [] → r.writeStream.isStarted = true →
    r.isNetworkEnabled = true ∧ r.writeStream.idlenessTimer = true
  handshake : r.writeStream.handshakeComplete = true → r.writeStream.isOpen = true

/-- A stream that is started but not idle has something to send. -/
theorem Inv.ne_nil (h : r.Inv queue) (hstarted : r.writeStream.isStarted = true)
    (hbusy : r.writeStream.idlenessTimer = false) : r.writePipeline ≠ [] := by
  intro hnil
  have hidle := (h.idle hnil hstarted).2
  rw [hbusy] at hidle
  cases hidle

/-- The same while the pipeline is being filled. -/
structure Filling (r : RemoteStore) (queue : List MutationBatch) (n : Nat) : Prop where
  enabled : r.isNetworkEnabled = true
  pipeline : r.writePipeline = queue.take n
  length : n ≤ queue.length
  slots : n ≤ kMaxPendingWrites
  shape : r.writeStream.Shape r.writePipeline
  idle : r.writePipeline = [] → r.writeStream.isStarted = true →
    r.writeStream.isOpen = true ∧ r.writeStream.handshakeComplete = true

theorem Filling.add (h : r.Filling queue n) {b : MutationBatch} (hb : queue[n]? = some b)
    (hn : n < kMaxPendingWrites) :
    ∃ r', r.addToWritePipeline b = some r' ∧ r'.Filling queue (n + 1)
      ∧ r'.writeStream.state = r.writeStream.state
      ∧ r'.writeStream.handshakeComplete = r.writeStream.handshakeComplete := by
  have hlt : n < queue.length := (List.getElem?_eq_some_iff.mp hb).1
  have hlength : r.writePipeline.length = n := by
    rw [h.pipeline, List.length_take]
    omega
  have hcan : r.canAddToWritePipeline = true := by
    unfold canAddToWritePipeline canUseNetwork
    rw [h.enabled, hlength, Bool.true_and, decide_eq_true hn]
  obtain ⟨w', hw', hshape, hstate, hhs⟩ := h.shape.add b
  have hadd : r.addToWritePipeline b =
      some { r with writePipeline := r.writePipeline ++ [b], writeStream := w' } := by
    unfold addToWritePipeline
    rw [if_pos hcan]
    simp only
    split at hw' <;> rename_i hsend
    · rw [if_pos hsend, hw', Option.map_some]
    · rw [if_neg hsend]
      obtain rfl := Option.some.inj hw'
      rfl
  refine ⟨_, hadd, ⟨h.enabled, ?_, hlt, hn, hshape, ?_⟩, hstate, hhs⟩
  · show r.writePipeline ++ [b] = queue.take (n + 1)
    rw [h.pipeline, List.take_add_one, hb]
    rfl
  · intro hnil
    simp at hnil

/-- The loop ends with a full pipeline or with the whole queue in it. -/
theorem Filling.fillSlots {next : Int → Option MutationBatch}
    (hnext : ∀ n ≤ queue.length,
      next ((queue.take n).getLast?.elim (-1) MutationBatch.batchId) = queue[n]?)
    {slots n : Nat} (hslots : slots + n = kMaxPendingWrites) (h : r.Filling queue n) :
    ∃ r', fillSlots next slots ((queue.take n).getLast?.elim (-1) MutationBatch.batchId) r = some r'
      ∧ r'.isNetworkEnabled = true ∧ r'.writePipeline = queue.take kMaxPendingWrites
      ∧ r'.writeStream.Shape r'.writePipeline
      ∧ r'.writeStream.state = r.writeStream.state
      ∧ r'.writeStream.handshakeComplete = r.writeStream.handshakeComplete
      ∧ (r'.writePipeline = [] → r'.writeStream.isStarted = true →
          r'.writeStream.idlenessTimer = true) := by
  induction slots generalizing r n with
  | zero =>
      obtain rfl : n = kMaxPendingWrites := by omega
      refine ⟨r, rfl, h.enabled, h.pipeline, h.shape, rfl, rfl, ?_⟩
      intro hnil
      have hlen := congrArg List.length (h.pipeline.symm.trans hnil)
      have hle := h.length
      rw [List.length_take, List.length_nil] at hlen
      unfold kMaxPendingWrites at hlen hle
      omega
  | succ slots ih =>
      have hlength : r.writePipeline.length = n := by
        rw [h.pipeline, List.length_take]
        have := h.length
        omega
      have hcan : r.canAddToWritePipeline = true := by
        unfold canAddToWritePipeline canUseNetwork
        rw [h.enabled, hlength, Bool.true_and, decide_eq_true_iff]
        omega
      unfold RemoteStore.fillSlots
      rw [if_pos hcan, hnext n h.length]
      cases hb : queue[n]? with
      | some b =>
          obtain ⟨r₁, hadd, hfilling, hstate, hhs⟩ := h.add hb (by omega)
          have hlast : (queue.take (n + 1)).getLast?.elim (-1) MutationBatch.batchId =
              b.batchId := by
            rw [List.take_add_one, hb]
            simp
          obtain ⟨r', hfill, hrest⟩ := ih (by omega) hfilling
          rw [hlast] at hfill
          rw [hstate, hhs] at hrest
          exact ⟨r', by rw [← hfill]; simp only [hadd, Option.bind_some], hrest⟩
      | none =>
          have hle : queue.length ≤ n := List.getElem?_eq_none_iff.mp hb
          have hall : r.writePipeline = queue.take kMaxPendingWrites := by
            rw [h.pipeline, List.take_of_length_le hle, List.take_of_length_le (by omega)]
          by_cases hnil : r.writePipeline = []
          · have hshape := h.shape
            rw [hnil] at hshape
            obtain ⟨hidle, hstate, hhs, htimer⟩ := hshape.markIdle (h.idle hnil)
            refine ⟨{ r with writeStream := r.writeStream.markIdle }, ?_, h.enabled, hall, ?_,
              hstate, hhs, ?_⟩
            · simp [hnil]
            · show r.writeStream.markIdle.Shape r.writePipeline
              rw [hnil]
              exact hidle
            · intro _ hstarted
              exact htimer ((isStarted_of_state hstate).1 ▸ hstarted)
          · refine ⟨r, ?_, h.enabled, hall, h.shape, rfl, rfl, fun hn => absurd hn hnil⟩
            simp [hnil]

/-- What filling has made of it; its stream may have been started. -/
structure Filled (r r' : RemoteStore) (queue : List MutationBatch) : Prop where
  enabled : r'.isNetworkEnabled = true
  pipeline : r'.writePipeline = queue.take kMaxPendingWrites
  shape : r'.writeStream.Shape r'.writePipeline
  started : r'.writePipeline ≠ [] → r'.writeStream.isStarted = true
  idle : r'.writePipeline = [] → r'.writeStream.isStarted = true →
    r'.writeStream.idlenessTimer = true
  isOpen : r'.writeStream.isOpen = r.writeStream.isOpen
  handshake : r'.writeStream.handshakeComplete = r.writeStream.handshakeComplete

theorem Filled.inv {r' : RemoteStore} (h : Filled r r' queue)
    (hhs : r.writeStream.handshakeComplete = true → r.writeStream.isOpen = true) :
    r'.Inv queue where
  shape := h.shape
  pipeline := by rw [if_pos h.enabled, h.pipeline]
  started := h.started
  idle hnil hstarted := ⟨h.enabled, h.idle hnil hstarted⟩
  handshake := by rwa [h.isOpen, h.handshake]

/-- Three reasons not to start it. -/
theorem shouldStartWriteStream_eq_false (h : r.writePipeline = [] ∨ r.isNetworkEnabled = false
    ∨ r.writeStream.isStarted = true) : r.shouldStartWriteStream = false := by
  unfold shouldStartWriteStream canUseNetwork
  rcases h with h | h | h <;> simp [h]

/-- A stream that is needed is started. -/
theorem startIfNeeded_eq (hshape : r.writeStream.Shape r.writePipeline) :
    ∃ w', r.startIfNeeded = some { r with writeStream := w' } ∧ w'.Shape r.writePipeline
      ∧ (r.isNetworkEnabled = true → r.writePipeline ≠ [] → w'.isStarted = true)
      ∧ (r.shouldStartWriteStream = false → w' = r.writeStream)
      ∧ w'.isOpen = r.writeStream.isOpen
      ∧ w'.handshakeComplete = r.writeStream.handshakeComplete := by
  unfold startIfNeeded startWriteStream
  by_cases hneeded : r.shouldStartWriteStream = true
  · have hn := hneeded
    unfold shouldStartWriteStream canUseNetwork at hn
    simp only [Bool.and_eq_true, Bool.not_eq_true', List.isEmpty_eq_false_iff] at hn
    obtain ⟨⟨henabled, hclosed⟩, hne⟩ := hn
    obtain ⟨w', hstart, hshape', hstarted, hopen, hhs⟩ := hshape.start hclosed
    refine ⟨w', by rw [if_pos hneeded, if_pos hneeded, hstart, Option.map_some], hshape',
      fun _ _ => hstarted, ?_, hopen, hhs⟩
    intro hnot
    rw [hneeded] at hnot
    cases hnot
  · refine ⟨r.writeStream, by rw [if_neg hneeded], hshape, ?_, fun _ => rfl, rfl, rfl⟩
    intro henabled hne
    by_contra hclosed
    refine hneeded ?_
    unfold shouldStartWriteStream canUseNetwork
    simp [henabled, Bool.eq_false_iff.mpr hclosed, hne]

theorem Filling.fillWritePipeline {n : Nat} {next : Int → Option MutationBatch}
    (hnext : ∀ n ≤ queue.length,
      next ((queue.take n).getLast?.elim (-1) MutationBatch.batchId) = queue[n]?)
    (h : r.Filling queue n) : ∃ r', r.fillWritePipeline next = some r' ∧ Filled r r' queue := by
  have hlength : r.writePipeline.length = n := by
    rw [h.pipeline, List.length_take]
    have := h.length
    omega
  have hslots : (kMaxPendingWrites - r.writePipeline.length) + n = kMaxPendingWrites := by
    have := h.slots
    omega
  obtain ⟨r₁, hfill, henabled, hpipeline, hshape, hstate, hhs, hidle⟩ := h.fillSlots hnext hslots
  obtain ⟨w', hstart, hshape', hstarted, hsame, hopen, hhs'⟩ := startIfNeeded_eq hshape
  refine ⟨{ r₁ with writeStream := w' }, ?_, henabled, hpipeline, hshape', hstarted henabled, ?_,
    ?_, hhs'.trans hhs⟩
  · unfold RemoteStore.fillWritePipeline
    rw [h.pipeline] at hfill ⊢
    simp only [Option.bind_eq_bind, hfill, Option.bind_some, hstart]
  · intro hnil
    obtain rfl := hsame (shouldStartWriteStream_eq_false (Or.inl hnil))
    exact hidle hnil
  · exact hopen.trans (isStarted_of_state hstate).2

/-- Without a network nothing is filled. -/
theorem fillWritePipeline_disabled (h : r.isNetworkEnabled = false)
    (next : Int → Option MutationBatch) : r.fillWritePipeline next = some r := by
  have hslots : ∀ slots last, RemoteStore.fillSlots next slots last r = some r := by
    intro slots last
    cases slots with
    | zero => rfl
    | succ slots => simp [RemoteStore.fillSlots, canAddToWritePipeline, canUseNetwork, h]
  unfold fillWritePipeline
  simp [hslots, startIfNeeded, shouldStartWriteStream, canUseNetwork, h]

/-- More may have come to the end of the queue. -/
theorem Inv.filling (h : r.Inv queue) (henabled : r.isNetworkEnabled = true)
    {queue' : List MutationBatch} (hextends : queue <+: queue') :
    r.Filling queue' (queue.take kMaxPendingWrites).length where
  enabled := henabled
  pipeline := by
    rw [h.pipeline, if_pos henabled]
    obtain ⟨t, rfl⟩ := hextends
    rw [List.length_take, ← List.take_take, List.take_left]
  length := by
    have := hextends.length_le
    rw [List.length_take]
    omega
  slots := by
    rw [List.length_take]
    omega
  shape := h.shape
  idle hnil hstarted := by
    obtain ⟨hopen, hhs, -⟩ := h.shape.of_idle (h.idle hnil hstarted).2
    exact ⟨hopen, hhs⟩

/-- The first write is answered; the rest is filled up. -/
theorem filling_tail {b : MutationBatch} {rest queue : List MutationBatch}
    (hpipeline : b :: rest = (b :: queue).take kMaxPendingWrites) (hr : r.writePipeline = rest)
    (henabled : r.isNetworkEnabled = true) (hshape : r.writeStream.Shape r.writePipeline)
    (hstream : r.writeStream.isStarted = true →
      r.writeStream.isOpen = true ∧ r.writeStream.handshakeComplete = true) :
    r.Filling queue rest.length where
  enabled := henabled
  pipeline := by
    have hrest : rest = queue.take 9 := List.tail_eq_of_cons_eq hpipeline
    rw [hr, hrest, List.length_take, ← List.take_take, List.take_length]
  length := by
    have hrest : rest = queue.take 9 := List.tail_eq_of_cons_eq hpipeline
    rw [hrest, List.length_take]
    omega
  slots := by
    have hlen := congrArg List.length hpipeline
    rw [List.length_take, List.length_cons] at hlen
    omega
  shape := hshape
  idle _ := hstream

/-- The first write of the pipeline is the first of the queue. -/
theorem front_eq {pipeline rest queue : List MutationBatch} {enabled : Bool} {b : MutationBatch}
    (h : pipeline = if enabled then queue.take kMaxPendingWrites else [])
    (hp : pipeline = b :: rest) :
    enabled = true ∧ ∃ q, queue = b :: q ∧ b :: rest = (b :: q).take kMaxPendingWrites := by
  rw [hp] at h
  cases enabled with
  | false => cases h
  | true =>
      rw [if_pos rfl] at h
      cases queue with
      | nil => cases h
      | cons b' q =>
          obtain rfl : b = b' := (List.cons.inj h).1
          exact ⟨rfl, q, rfl, h⟩

end RemoteStore

/-! ## The steps -/

/-- What a step does, apart from the network. -/
inductive Move where
  | stay
  | write (mutations : List Mutation) (callback : Callback)
  | wait (callback : Callback)
  | acknowledge (response : WriteResponse)
  | reject (status : Code)
  | receive (snapshotVersion : SnapshotVersion)
      (documentUpdates : List (DocumentKey × MaybeDocument))

namespace SyncEngine

variable {s : SyncEngine}

def queue (s : SyncEngine) : List MutationBatch := s.localStore.mutationQueue.queue

/-- The first write of the queue is acknowledged or rejected. -/
def move (s : SyncEngine) : Move → Option SyncEngine
  | .stay => some s
  | .write ms callback =>
      (s.localStore.writeLocally ms).map fun r => { s with
        localStore := r.2
        mutationCallbacks := s.mutationCallbacks.insertIfNew r.1.1 callback }
  | .wait callback => some (s.registerPendingWritesCallback callback)
  | .acknowledge response => s.queue.head?.bind fun b => s.handleSuccessfulWrite b response
  | .reject status => s.queue.head?.bind fun b => s.handleRejectedWrite b.batchId status
  | .receive v updates => s.applyRemoteEvent v updates

/-- What a move needs. -/
def Fits (s : SyncEngine) : Move → Prop
  | .write ms _ => ∃ k, Regular k ms
  | .acknowledge response => ∃ b, s.queue.head? = some b
      ∧ List.Forall₂ Mutation.Answers b.mutations response.results
  | .reject _ => s.queue ≠ []
  | .receive v updates => LocalStore.Admissible s.localStore.lastRemoteSnapshotVersion v updates
  | _ => True

/-- A permanent error of an established stream is the fault of the first write. -/
def faulty (s : SyncEngine) (status : Code) : Bool :=
  s.remoteStore.writeStream.handshakeComplete && !s.remoteStore.writePipeline.isEmpty
    && Datastore.isPermanentWriteError status == some true

def moveOf (s : SyncEngine) : Event → Move
  | .writeMutations ms callback => .write ms callback
  | .registerPendingWritesCallback callback => .wait callback
  | .streamRead response =>
      if s.remoteStore.writeStream.handshakeComplete then .acknowledge response else .stay
  | .streamFinish status => if s.faulty status then .reject status else .stay
  | .remoteEvent v updates => .receive v updates
  | _ => .stay

/-- What the surroundings may do: the tokens, timers and answers are those that
were asked for, and the answers fit the requests. -/
def Enabled (s : SyncEngine) : Event → Prop
  | .writeMutations ms _ => ∃ k, Regular k ms
  | .streamRead response =>
      ∃ requests, s.remoteStore.writeStream.grpcStream = some requests ∧ ∃ request,
        requests.head? = some request ∧
        ∀ ms, request = .mutations ms → List.Forall₂ Mutation.Answers ms response.results
  | .streamFinish _ => s.remoteStore.writeStream.grpcStream.isSome
  | .idleTimeout => s.remoteStore.writeStream.idlenessTimer = true
  | .backoffElapsed => s.remoteStore.writeStream.backoffTimer = true
  | .remoteEvent v updates => LocalStore.Admissible s.localStore.lastRemoteSnapshotVersion v updates
  | _ => True

/-- The backend ends the stream gracefully while writes are still to be sent. -/
def CutOff (s : SyncEngine) (e : Event) : Prop :=
  e = .streamFinish .ok ∧ s.remoteStore.writePipeline ≠ []

/-- The invariant of the steps. -/
structure Inv (s : SyncEngine) : Prop where
  localStore : s.localStore.Inv
  remoteStore : s.remoteStore.Inv s.queue

/-- A step makes this move, and leaves a remote store that is in order. -/
def Steps (s : SyncEngine) (m : Move) (o : Option SyncEngine) : Prop :=
  s.Fits m ∧ ∃ t r, s.move m = some t ∧ o = some { t with remoteStore := r } ∧ t.localStore.Inv
    ∧ r.Inv t.queue

theorem Inv.stay (h : s.Inv) {o : Option SyncEngine} {r : RemoteStore}
    (ho : o = some { s with remoteStore := r }) (hr : r.Inv s.queue) : s.Steps .stay o :=
  ⟨trivial, s, r, rfl, ho, h.localStore, hr⟩

theorem fillWritePipeline_of_filling {n : Nat} (h : s.localStore.Inv)
    (hr : s.remoteStore.Filling s.queue n) :
    ∃ r', s.fillWritePipeline = some { s with remoteStore := r' }
      ∧ RemoteStore.Filled s.remoteStore r' s.queue := by
  have hnext : ∀ n ≤ s.queue.length, s.localStore.getNextMutationBatch
      ((s.queue.take n).getLast?.elim (-1) MutationBatch.batchId) = s.queue[n]? :=
    fun n hn => h.queue.next_take hn
  obtain ⟨r', hfill, hfilled⟩ := hr.fillWritePipeline hnext
  exact ⟨r', by rw [fillWritePipeline, hfill, Option.map_some], hfilled⟩

theorem startIfNeeded_eq_self (h : s.remoteStore.shouldStartWriteStream = false) :
    s.startIfNeeded = some s := by
  unfold startIfNeeded RemoteStore.startIfNeeded
  rw [if_neg (by rw [h]; decide)]
  rfl

/-! ### Network -/

/-- A graceful stop, when nothing is to be sent. -/
theorem stop_eq (hshape : s.remoteStore.writeStream.Shape s.remoteStore.writePipeline)
    (hhs : s.remoteStore.writeStream.handshakeComplete = true →
      s.remoteStore.writeStream.isOpen = true)
    (hquiet : s.remoteStore.writePipeline = [] ∨ s.remoteStore.isNetworkEnabled = false) :
    ∃ w', s.stop = some (s.setStream w') ∧ (∀ p, w'.Shape p) ∧ w'.isStarted = false
      ∧ w'.handshakeComplete = false := by
  unfold stop close
  by_cases hstarted : s.remoteStore.writeStream.isStarted = true
  · rw [if_pos hstarted]
    have hshut := hshape.shut .ok
    have hnot : (s.setStream
        (s.remoteStore.writeStream.shut .ok)).remoteStore.shouldStartWriteStream = false := by
      refine RemoteStore.shouldStartWriteStream_eq_false ?_
      rcases hquiet with hnil | hdisabled
      · exact Or.inl hnil
      · exact Or.inr (Or.inl hdisabled)
    refine ⟨{ s.remoteStore.writeStream.shut .ok with handshakeComplete := false }, ?_,
      fun p => (hshut p).forget rfl, rfl, rfl⟩
    unfold notifyStreamClose onWriteStreamClose
    rw [if_pos rfl, if_neg (by rw [hnot]; decide), startIfNeeded_eq_self hnot]
    rfl
  · rw [if_neg hstarted, if_pos rfl]
    have hclosed := Bool.eq_false_iff.mpr hstarted
    refine ⟨s.remoteStore.writeStream, rfl, ?_, hclosed, ?_⟩
    · intro p
      cases hw : s.remoteStore.writeStream
      rw [hw] at hshape hclosed
      cases hshape with
      | closed hstate hstale => exact .closed hstate hstale
      | _ => cases hclosed
    · by_contra hcomplete
      have hopen := hhs (by simpa using hcomplete)
      unfold WriteStream.isStarted at hstarted
      simp [hopen] at hstarted

/-- Nothing is sent and nothing is started. -/
theorem inv_disabled {w : WriteStream} {queue : List MutationBatch} (hshape : w.Shape [])
    (hclosed : w.isStarted = false) (hhs : w.handshakeComplete = false) :
    RemoteStore.Inv ⟨false, [], w⟩ queue where
  shape := hshape
  pipeline := rfl
  started h := absurd rfl h
  idle _ h := by
    rw [hclosed] at h
    cases h
  handshake h := by
    rw [hhs] at h
    cases h

theorem Inv.disableNetwork (h : s.Inv) :
    ∃ w', s.disableNetwork = some { s with remoteStore := ⟨false, [], w'⟩ } ∧ w'.Shape []
      ∧ w'.isStarted = false ∧ w'.handshakeComplete = false := by
  obtain ⟨w', hstop, hshape, hclosed, hhs⟩ : ∃ w', SyncEngine.stop { s with
      remoteStore := { s.remoteStore with isNetworkEnabled := false } } = some _ ∧ _ :=
    stop_eq h.remoteStore.shape h.remoteStore.handshake (Or.inr rfl)
  refine ⟨w', ?_, hshape [], hclosed, hhs⟩
  unfold SyncEngine.disableNetwork disableNetworkInternal
  rw [hstop]
  rfl

/-- An empty pipeline and a stream that is closed, from which it is filled. -/
theorem filling_closed {w : WriteStream} {queue : List MutationBatch} (hshape : w.Shape [])
    (hclosed : w.isStarted = false) : RemoteStore.Filling ⟨true, [], w⟩ queue 0 where
  enabled := rfl
  pipeline := rfl
  length := Nat.zero_le _
  slots := Nat.zero_le _
  shape := hshape
  idle _ h := by
    rw [hclosed] at h
    cases h

theorem Inv.enableNetwork_eq (h : s.Inv) :
    ∃ r, s.enableNetwork = some { s with remoteStore := r } ∧ r.Inv s.queue
      ∧ r.isNetworkEnabled = true := by
  have hfilling : ∃ n, RemoteStore.Filling
      ⟨true, s.remoteStore.writePipeline, s.remoteStore.writeStream⟩ s.queue n := by
    by_cases henabled : s.remoteStore.isNetworkEnabled = true
    · rw [← henabled]
      exact ⟨_, h.remoteStore.filling henabled (List.prefix_refl _)⟩
    · have hpipeline := h.remoteStore.pipeline
      have hshape := h.remoteStore.shape
      rw [if_neg henabled] at hpipeline
      have hclosed : s.remoteStore.writeStream.isStarted = false := by
        by_contra hstarted
        exact henabled (h.remoteStore.idle hpipeline (by simpa using hstarted)).1
      rw [hpipeline] at hshape ⊢
      exact ⟨0, filling_closed hshape hclosed⟩
  obtain ⟨n, hfilling⟩ := hfilling
  obtain ⟨r', hfill, hfilled⟩ : ∃ r', SyncEngine.fillWritePipeline { s with
      remoteStore := { s.remoteStore with isNetworkEnabled := true } } = some _ ∧ _ :=
    fillWritePipeline_of_filling h.localStore hfilling
  exact ⟨r', hfill, hfilled.inv h.remoteStore.handshake, hfilled.enabled⟩

theorem Inv.enableNetwork (h : s.Inv) : s.Steps .stay s.enableNetwork := by
  obtain ⟨r, henable, hr, -⟩ := h.enableNetwork_eq
  exact h.stay henable hr

theorem Inv.restartNetwork (h : s.Inv) : s.Steps .stay s.restartNetwork := by
  obtain ⟨w', hdisable, hshape, hclosed, hhs⟩ := h.disableNetwork
  obtain ⟨w'', hinhibit, hshape', hclosed', hhs'⟩ := hshape.inhibitBackoff hclosed
  have hinv : Inv { s with remoteStore := ⟨false, [], w''⟩ } :=
    ⟨h.localStore, inv_disabled hshape' hclosed' (hhs'.trans hhs)⟩
  obtain ⟨-, t, r, ht, henable, hlocal, hr⟩ := hinv.enableNetwork
  obtain rfl := Option.some.inj ht
  refine ⟨trivial, s, r, rfl, ?_, hlocal, hr⟩
  unfold SyncEngine.restartNetwork
  simp only [hdisable, Option.bind_eq_bind, Option.bind_some, hinhibit]
  exact henable

theorem Inv.handleCredentialChange (h : s.Inv) : s.Steps .stay s.handleCredentialChange := by
  unfold SyncEngine.handleCredentialChange
  split
  · exact h.restartNetwork
  · exact h.stay rfl h.remoteStore

/-! ### Timers and tokens -/

theorem Inv.stop (h : s.Inv) (hidle : s.remoteStore.writeStream.idlenessTimer = true) :
    s.Steps .stay s.stop := by
  obtain ⟨-, -, hnil⟩ := h.remoteStore.shape.of_idle hidle
  obtain ⟨w', hstop, hshape, hclosed, hhs⟩ :=
    stop_eq h.remoteStore.shape h.remoteStore.handshake (Or.inl hnil)
  refine h.stay hstop ⟨hshape _, h.remoteStore.pipeline, fun hne => absurd hnil hne, ?_, ?_⟩
  · intro _ hstarted
    rw [hclosed] at hstarted
    cases hstarted
  · intro hcomplete
    rw [hhs] at hcomplete
    cases hcomplete

theorem Inv.onBackoffElapsed (h : s.Inv) (htimer : s.remoteStore.writeStream.backoffTimer = true) :
    s.Steps .stay s.onBackoffElapsed := by
  obtain ⟨hstarted, hbusy, w', helapsed, hshape, hstarted', hbusy', hopen, hhs⟩ :=
    h.remoteStore.shape.backoffElapsed htimer
  have hne := h.remoteStore.ne_nil hstarted hbusy
  refine h.stay (r := { s.remoteStore with writeStream := w' })
    (by rw [SyncEngine.onBackoffElapsed, helapsed]; rfl)
    ⟨hshape, h.remoteStore.pipeline, fun _ => hstarted', fun hnil => absurd hnil hne, ?_⟩
  show w'.handshakeComplete = true → w'.isOpen = true
  rw [hhs, hopen]
  exact h.remoteStore.handshake

/-! ### Outcomes -/

@[simp] theorem notifyUser_localStore (s : SyncEngine) (id : Int) (status : Code) :
    (s.notifyUser id status).localStore = s.localStore := by
  unfold notifyUser
  split <;> rfl

@[simp] theorem triggerPendingWriteCallbacks_localStore (s : SyncEngine) (id : Int) :
    (s.triggerPendingWriteCallbacks id).localStore = s.localStore := by
  unfold triggerPendingWriteCallbacks
  split <;> rfl

/-- The callbacks do not look at the remote store. -/
theorem notify_withRemote (s : SyncEngine) (r : RemoteStore) (id : Int) (status : Code) :
    SyncEngine.triggerPendingWriteCallbacks (notifyUser { s with remoteStore := r } id status) id =
      { (s.notifyUser id status).triggerPendingWriteCallbacks id with remoteStore := r } := by
  unfold triggerPendingWriteCallbacks notifyUser
  cases s.mutationCallbacks[id]? <;> cases s.pendingWritesCallbacks[id]? <;> rfl

theorem handleRejectedWrite_withRemote (s : SyncEngine) (r : RemoteStore) (id : Int)
    (status : Code) : handleRejectedWrite { s with remoteStore := r } id status =
      (s.handleRejectedWrite id status).map fun t => { t with remoteStore := r } := by
  unfold handleRejectedWrite
  cases hreject : s.localStore.rejectBatch id with
  | none => rfl
  | some result =>
      simp only [Option.bind_eq_bind, Option.bind_some, Option.map_some]
      exact congrArg some (notify_withRemote { s with localStore := result.2 } r id status)

theorem handleSuccessfulWrite_withRemote (s : SyncEngine) (r : RemoteStore) (b : MutationBatch)
    (response : WriteResponse) : handleSuccessfulWrite { s with remoteStore := r } b response =
      (s.handleSuccessfulWrite b response).map fun t => { t with remoteStore := r } := by
  unfold handleSuccessfulWrite
  simp only [notify_withRemote]
  rw [show ∀ t : SyncEngine, ({ t with remoteStore := r } : SyncEngine).localStore = t.localStore
    from fun _ => rfl]
  cases LocalStore.acknowledgeBatch
    ((s.notifyUser b.batchId .ok).triggerPendingWriteCallbacks b.batchId).localStore
    b response.commitVersion response.results <;> rfl

/-- The callbacks do not look at the local store. -/
theorem notify_withLocal (s : SyncEngine) (ls : LocalStore) (id : Int) (status : Code) :
    SyncEngine.triggerPendingWriteCallbacks (notifyUser { s with localStore := ls } id status) id =
      { (s.notifyUser id status).triggerPendingWriteCallbacks id with localStore := ls } := by
  unfold triggerPendingWriteCallbacks notifyUser
  cases s.mutationCallbacks[id]? <;> cases s.pendingWritesCallbacks[id]? <;> rfl

/-- A write has been answered. -/
def answered (s : SyncEngine) (b : MutationBatch) (status : Code) (ls : LocalStore) : SyncEngine :=
  { (s.notifyUser b.batchId status).triggerPendingWriteCallbacks b.batchId with localStore := ls }

/-- The first write is rejected: it leaves the queue. -/
theorem reject_eq (h : s.localStore.Inv) {b : MutationBatch} {rest : List MutationBatch}
    (hq : s.queue = b :: rest) (status : Code) :
    ∃ changes ls, s.localStore.rejectBatch b.batchId = some (changes, ls)
      ∧ s.move (.reject status) = some (s.answered b status ls)
      ∧ s.handleRejectedWrite b.batchId status = some (s.answered b status ls)
      ∧ ls.Inv ∧ ls.mutationQueue.queue = rest := by
  have hmem : b ∈ s.queue := by
    rw [hq]
    exact List.mem_cons_self
  obtain ⟨k, hk⟩ := h.regular b hmem
  obtain ⟨changes, ls, hreject, hinv, hqueue, -, -, -, -⟩ := h.rejectBatch hq hk
  have hhandle : s.handleRejectedWrite b.batchId status = some (s.answered b status ls) := by
    unfold handleRejectedWrite
    rw [hreject]
    exact congrArg some (notify_withLocal s ls b.batchId status)
  exact ⟨changes, ls, hreject, by rw [move, hq]; exact hhandle, hhandle, hinv, hqueue⟩

theorem acknowledge_eq (h : s.localStore.Inv) {b : MutationBatch} {rest : List MutationBatch}
    (hq : s.queue = b :: rest) {response : WriteResponse}
    (hanswers : List.Forall₂ Mutation.Answers b.mutations response.results) :
    ∃ changes ls, s.localStore.acknowledgeBatch b response.commitVersion response.results =
        some (changes, ls)
      ∧ s.move (.acknowledge response) = some (s.answered b .ok ls)
      ∧ s.handleSuccessfulWrite b response = some (s.answered b .ok ls)
      ∧ ls.Inv ∧ ls.mutationQueue.queue = rest := by
  have hmem : b ∈ s.queue := by
    rw [hq]
    exact List.mem_cons_self
  obtain ⟨k, hk⟩ := h.regular b hmem
  obtain ⟨v, hv⟩ := hk.exists_version hanswers
  obtain ⟨changes, ls, hack, hinv, hqueue, -, -, -, -, -⟩ :=
    h.acknowledgeBatch hq hk hanswers hv response.commitVersion
  have hhandle : s.handleSuccessfulWrite b response = some (s.answered b .ok ls) := by
    unfold handleSuccessfulWrite
    simp only [triggerPendingWriteCallbacks_localStore, notifyUser_localStore, hack]
    rfl
  exact ⟨changes, ls, hack, by rw [move, hq]; exact hhandle, hhandle, hinv, hqueue⟩

/-- What an acknowledgement leaves in queue and cache. -/
theorem move_acknowledge (h : s.localStore.Inv) {response : WriteResponse} {t : SyncEngine}
    (hfits : s.Fits (.acknowledge response)) (hmove : s.move (.acknowledge response) = some t) :
    ∃ b rest k v ls, s.queue = b :: rest ∧ Regular k b.mutations
      ∧ response.results.getLast?.map MutationResult.version = some v
      ∧ t = s.answered b .ok ls ∧ ls.mutationQueue.queue = rest
      ∧ (∀ key, key ≠ k → ls.get key = s.localStore.get key)
      ∧ LocalStore.Settles (s.localStore.get k) (ls.get k)
          (effectOf b.mutations k (content (s.localStore.get k))) v := by
  obtain ⟨b, hb, hanswers⟩ := hfits
  obtain ⟨rest, hq⟩ := List.head?_eq_some_iff.mp hb
  obtain ⟨k, hk⟩ := h.regular b (List.mem_of_head? hb)
  obtain ⟨v, hv⟩ := hk.exists_version hanswers
  obtain ⟨changes, ls, hack, hacknowledge, -, -, -⟩ := acknowledge_eq h hq hanswers
  obtain ⟨changes', ls', hack', -, htail, -, -, hother, hsettles, -⟩ :=
    h.acknowledgeBatch hq hk hanswers hv response.commitVersion
  obtain ⟨-, rfl⟩ := Prod.mk.inj (Option.some.inj (hack.symm.trans hack'))
  exact ⟨b, rest, k, v, ls, hq, hk, hv, Option.some.inj (hmove.symm.trans hacknowledge), htail,
    hother, hsettles⟩

/-- A rejection leaves the cache alone. -/
theorem move_reject (h : s.localStore.Inv) {status : Code} {t : SyncEngine}
    (hfits : s.Fits (.reject status)) (hmove : s.move (.reject status) = some t) :
    ∃ b rest ls, s.queue = b :: rest ∧ t = s.answered b status ls
      ∧ ls.mutationQueue.queue = rest ∧ ∀ key, ls.get key = s.localStore.get key := by
  obtain ⟨b, rest, hq⟩ := List.exists_cons_of_ne_nil hfits
  obtain ⟨k, hk⟩ := h.regular b (List.mem_of_head? (List.head?_eq_some_iff.mpr ⟨rest, hq⟩))
  obtain ⟨changes, ls, hreject, hrejected, -, -, -⟩ := reject_eq h hq status
  obtain ⟨changes', ls', hreject', -, htail, -, -, hcache, -⟩ := h.rejectBatch hq hk
  obtain ⟨-, rfl⟩ := Prod.mk.inj (Option.some.inj (hreject.symm.trans hreject'))
  refine ⟨b, rest, ls, hq, Option.some.inj (hmove.symm.trans hrejected), htail, fun key => ?_⟩
  unfold LocalStore.get
  rw [hcache]

/-! ### The stream breaks -/

theorem isPermanentError_isSome {status : Code} (h : status ≠ .ok) :
    ∃ permanent, Datastore.isPermanentError status = some permanent := by
  cases status <;> first | exact absurd rfl h | exact ⟨_, rfl⟩

theorem isPermanentWriteError_isSome {status : Code} (h : status ≠ .ok) :
    ∃ permanent, Datastore.isPermanentWriteError status = some permanent := by
  obtain ⟨permanent, hp⟩ := isPermanentError_isSome h
  exact ⟨_, by rw [Datastore.isPermanentWriteError, hp, Option.map_some]⟩

/-- What is left of a remote store whose stream was closed and, if needed, started
again. -/
theorem inv_forget {r : RemoteStore} {w : WriteStream} {queue : List MutationBatch}
    (hshape : w.Shape r.writePipeline) (hopen : w.isOpen = false)
    (hpipeline : r.writePipeline = if r.isNetworkEnabled then queue.take
      RemoteStore.kMaxPendingWrites else [])
    (hstarted : r.writePipeline ≠ [] → w.isStarted = true)
    (hidle : r.writePipeline = [] → w.isStarted = false) :
    RemoteStore.Inv { r with writeStream := { w with handshakeComplete := false } } queue where
  shape := hshape.forget hopen
  pipeline := hpipeline
  started := hstarted
  idle hnil h := by
    have hclosed : w.isStarted = true := h
    rw [hidle hnil] at hclosed
    cases hclosed
  handshake h := by cases h

/-- The first write was rejected: the stream is started again for the others. -/
theorem handleWriteError_permanent {w : WriteStream} {status : Code} {b : MutationBatch}
    {rest queue : List MutationBatch} (hlocal : s.localStore.Inv) (hq : s.queue = b :: queue)
    (hfront : b :: rest = (b :: queue).take RemoteStore.kMaxPendingWrites)
    (hshape : ∀ p, w.Shape p) (hclosed : w.isStarted = false)
    (hpermanent : Datastore.isPermanentWriteError status = some true) :
    ∃ t r', s.move (.reject status) = some t ∧ t.localStore.Inv
      ∧ handleWriteError { s with remoteStore := ⟨true, b :: rest, w⟩ } status =
        some { t with remoteStore := r' }
      ∧ r'.isNetworkEnabled = true
      ∧ r'.writePipeline = t.queue.take RemoteStore.kMaxPendingWrites
      ∧ r'.writeStream.Shape r'.writePipeline
      ∧ (r'.writePipeline ≠ [] → r'.writeStream.isStarted = true)
      ∧ (r'.writePipeline = [] → r'.writeStream.isStarted = false)
      ∧ r'.writeStream.isOpen = false := by
  obtain ⟨w', hinhibit, hshape', hclosed', -⟩ := (hshape rest).inhibitBackoff hclosed
  obtain ⟨-, ls, -, hmove, hhandle, hinv, htail⟩ := reject_eq hlocal hq status
  have hopen : w'.isOpen = false := by
    unfold WriteStream.isStarted at hclosed'
    exact (Bool.or_eq_false_iff.mp hclosed').2
  have hfilling : RemoteStore.Filling ⟨true, rest, w'⟩ ls.mutationQueue.queue rest.length := by
    rw [htail]
    refine RemoteStore.filling_tail hfront rfl rfl hshape' ?_
    intro hstarted
    rw [hclosed'] at hstarted
    cases hstarted
  obtain ⟨r', hfill, hfilled⟩ : ∃ r', fillWritePipeline { s.answered b status ls with
      remoteStore := ⟨true, rest, w'⟩ } = some _ ∧ _ := fillWritePipeline_of_filling hinv hfilling
  have hopen' : r'.writeStream.isOpen = false := hfilled.isOpen.trans hopen
  refine ⟨_, r', hmove, hinv, ?_, hfilled.enabled, hfilled.pipeline, hfilled.shape, hfilled.started,
    ?_, hopen'⟩
  · unfold handleWriteError
    simp only [hpermanent, Option.bind_eq_bind, Option.bind_some, if_true, dropFirst, hinhibit]
    rw [handleRejectedWrite_withRemote s ⟨true, rest, w'⟩, hhandle, Option.map_some,
      Option.bind_some, hfill]
  · intro hnil
    by_contra hstarted
    obtain ⟨hidle, -, -⟩ := hfilled.shape.of_idle (hfilled.idle hnil (by simpa using hstarted))
    rw [hopen'] at hidle
    cases hidle

theorem close_error {status : Code} (hlocal : s.localStore.Inv)
    (hpipeline : s.remoteStore.writePipeline =
      if s.remoteStore.isNetworkEnabled then s.queue.take RemoteStore.kMaxPendingWrites else [])
    (hstarted : s.remoteStore.writeStream.isStarted = true)
    (hshut : ∀ p, (s.remoteStore.writeStream.shut status).Shape p) (hst : status ≠ .ok) :
    s.Steps (if s.faulty status then .reject status else .stay) (s.close status) := by
  have hclosed := WriteStream.isStarted_shut s.remoteStore.writeStream status
  have hsame : (s.remoteStore.writeStream.shut status).handshakeComplete =
      s.remoteStore.writeStream.handshakeComplete := rfl
  have hclose : s.close status =
      (s.setStream (s.remoteStore.writeStream.shut status)).notifyStreamClose status := by
    rw [close, if_pos hstarted]
  generalize s.remoteStore.writeStream.shut status = w at hshut hclosed hsame hclose
  have hopen : w.isOpen = false := by
    unfold WriteStream.isStarted at hclosed
    exact (Bool.or_eq_false_iff.mp hclosed).2
  rw [hclose]
  unfold notifyStreamClose onWriteStreamClose
  rw [if_neg hst]
  by_cases hnil : s.remoteStore.writePipeline = []
  · -- nothing to send: the stream stays closed
    have hfaulty : s.faulty status = false := by simp [faulty, hnil]
    have hnot : (s.setStream w).remoteStore.shouldStartWriteStream = false :=
      RemoteStore.shouldStartWriteStream_eq_false (Or.inl hnil)
    rw [if_neg (by rw [hfaulty]; decide),
      if_pos (show (s.setStream w).remoteStore.writePipeline.isEmpty = true from
        List.isEmpty_iff.mpr hnil), startIfNeeded_eq_self hnot]
    exact ⟨trivial, s, _, rfl, rfl, hlocal, inv_forget (hshut _) hopen hpipeline
      (fun h => absurd hnil h) fun _ => hclosed⟩
  rw [if_neg (show ¬(s.setStream w).remoteStore.writePipeline.isEmpty = true from
    fun h => hnil (List.isEmpty_iff.mp h))]
  have henabled : s.remoteStore.isNetworkEnabled = true := by
    by_contra hdisabled
    rw [if_neg hdisabled] at hpipeline
    exact hnil hpipeline
  obtain ⟨permanent, hpermanent⟩ := isPermanentWriteError_isSome hst
  by_cases hfaulty : s.faulty status = true
  · -- the first write is rejected
    have hf := hfaulty
    unfold faulty at hf
    simp only [Bool.and_eq_true, beq_iff_eq] at hf
    obtain ⟨⟨hcomplete, -⟩, hperm⟩ := hf
    obtain ⟨b, rest, hp⟩ := List.exists_cons_of_ne_nil hnil
    obtain ⟨-, q, hq, hfront⟩ := RemoteStore.front_eq hpipeline hp
    obtain ⟨t, r', hmove, hinv, hhandle, henabled', hpipeline', hshape', hstarted', hidle',
      hopen'⟩ := handleWriteError_permanent hlocal hq hfront hshut hclosed hperm
    have hset : s.setStream w = { s with remoteStore := ⟨true, b :: rest, w⟩ } := by
      show ({ s with remoteStore :=
        ⟨s.remoteStore.isNetworkEnabled, s.remoteStore.writePipeline, w⟩ } : SyncEngine) = _
      rw [henabled, hp]
    have hnot : RemoteStore.shouldStartWriteStream r' = false := by
      refine RemoteStore.shouldStartWriteStream_eq_false ?_
      by_cases hnil' : r'.writePipeline = []
      · exact Or.inl hnil'
      · exact Or.inr (Or.inr (hstarted' hnil'))
    have hstay : startIfNeeded { t with remoteStore := r' } = some { t with remoteStore := r' } :=
      startIfNeeded_eq_self hnot
    rw [if_pos hfaulty, if_pos (show
      (s.setStream w).remoteStore.writeStream.handshakeComplete = true from
        hsame.trans hcomplete), hset]
    refine ⟨List.ne_nil_of_mem (hq ▸ List.mem_cons_self), t, _, hmove, ?_, hinv,
      inv_forget hshape' hopen' ?_ hstarted' hidle'⟩
    · simp only [hhandle, Option.bind_eq_bind, Option.bind_some, hstay]
      rfl
    · rw [if_pos henabled', hpipeline']
  · -- the stream is started again for the same writes
    obtain ⟨w', hstart, hshape', hstarted', -, hopen', -⟩ : ∃ w', RemoteStore.startIfNeeded
        (s.setStream w).remoteStore = some _ ∧ _ := RemoteStore.startIfNeeded_eq (hshut _)
    have hrestart : (s.setStream w).startIfNeeded = some (s.setStream w') := by
      unfold startIfNeeded
      rw [hstart]
      rfl
    rw [if_neg hfaulty]
    refine ⟨trivial, s, _, rfl, ?_, hlocal, inv_forget hshape' (hopen'.trans hopen) hpipeline
      (hstarted' henabled) fun h => absurd h hnil⟩
    by_cases hcomplete : s.remoteStore.writeStream.handshakeComplete = true
    · have hperm : permanent = false := by
        cases permanent with
        | false => rfl
        | true => exact absurd (by simp [faulty, hcomplete, hnil, hpermanent]) hfaulty
      rw [if_pos (show (s.setStream w).remoteStore.writeStream.handshakeComplete = true
        from hsame.trans hcomplete), handleWriteError, hpermanent, hperm]
      simp only [Option.bind_eq_bind, Option.bind_some, Bool.false_eq_true, if_false, hrestart]
      rfl
    · obtain ⟨permanent', hpermanent'⟩ := isPermanentError_isSome hst
      rw [if_neg (show ¬(s.setStream w).remoteStore.writeStream.handshakeComplete = true
        from fun h => hcomplete (hsame.symm.trans h)), RemoteStore.handleHandshakeError,
        hpermanent']
      simp only [Option.map_some, Option.bind_eq_bind, Option.bind_some]
      show (s.setStream w).startIfNeeded.bind _ = _
      rw [hrestart]
      rfl

/-- The backend or the connection ends the stream. -/
theorem Inv.streamFinish (h : s.Inv) {status : Code}
    (hstream : s.remoteStore.writeStream.grpcStream.isSome)
    (hcut : ¬ s.CutOff (.streamFinish status)) :
    s.Steps (s.moveOf (.streamFinish status)) (s.close status) := by
  by_cases hst : status = .ok
  · subst hst
    have hnil : s.remoteStore.writePipeline = [] := by
      by_contra hne
      exact hcut ⟨rfl, hne⟩
    have hfaulty : s.faulty .ok = false := by simp [faulty, hnil]
    obtain ⟨w', hstop, hshape, hclosed, hhs⟩ :=
      stop_eq h.remoteStore.shape h.remoteStore.handshake (Or.inl hnil)
    show s.Steps (if s.faulty .ok then _ else _) _
    rw [if_neg (by rw [hfaulty]; decide)]
    refine h.stay hstop ⟨hshape _, h.remoteStore.pipeline, fun hne => absurd hnil hne, ?_, ?_⟩
    · intro _ hstarted
      rw [hclosed] at hstarted
      cases hstarted
    · intro hcomplete
      rw [hhs] at hcomplete
      cases hcomplete
  · exact close_error h.localStore h.remoteStore.pipeline
      (h.remoteStore.shape.isStarted_of_stream hstream)
      (fun p => h.remoteStore.shape.shut status p) hst

theorem resume_ok {count : Nat} {tokens : List Nat} (hw : s.remoteStore.writeStream =
    ⟨.starting, count, false, false, tokens, none, false⟩) :
    s.resumeStartWithCredentials .ok = some (s.setStream
      ⟨.opened, count, false, false, tokens, some [.handshake], false⟩) := by
  unfold resumeStartWithCredentials
  rw [hw]
  rfl

/-- The token that was waited for: the stream is opened, or waits to be started again. -/
theorem Inv.takeToken (h : s.Inv) {i : Nat}
    (hi : s.remoteStore.writeStream.tokenRequests[i]? = some s.remoteStore.writeStream.closeCount)
    (status : Code) :
    s.Steps .stay (resumeStartWithCredentials (s.setStream { s.remoteStore.writeStream with
      tokenRequests := s.remoteStore.writeStream.tokenRequests.eraseIdx i }) status) := by
  obtain ⟨hstate, hbusy, hw, hstale⟩ := h.remoteStore.shape.takeToken hi
  have hstarted : s.remoteStore.writeStream.isStarted = true := by
    unfold WriteStream.isStarted
    simp [hstate]
  have hne := h.remoteStore.ne_nil hstarted hbusy
  have hcomplete : s.remoteStore.writeStream.handshakeComplete = false := by
    by_contra hcomplete
    have hopen := h.remoteStore.handshake (by simpa using hcomplete)
    simp [WriteStream.isOpen, hstate] at hopen
  rw [hw, hcomplete]
  by_cases hst : status = .ok
  · subst hst
    exact h.stay (resume_ok rfl) ⟨.handshaking hstale, h.remoteStore.pipeline, fun _ => rfl,
      fun hnil => absurd hnil hne, fun hc => by cases hc⟩
  · have hresume : resumeStartWithCredentials (s.setStream ⟨.starting,
        s.remoteStore.writeStream.closeCount, false, false,
        s.remoteStore.writeStream.tokenRequests.eraseIdx i, none, false⟩) status =
        close (s.setStream ⟨.starting, s.remoteStore.writeStream.closeCount, false, false,
          s.remoteStore.writeStream.tokenRequests.eraseIdx i, none, false⟩) status := by
      unfold resumeStartWithCredentials
      exact (if_pos rfl).trans (if_neg hst)
    obtain ⟨-, t, r, ht, hclose, hlocal, hr⟩ := close_error (s := s.setStream ⟨.starting,
        s.remoteStore.writeStream.closeCount, false, false,
        s.remoteStore.writeStream.tokenRequests.eraseIdx i, none, false⟩)
      h.localStore h.remoteStore.pipeline rfl
      (fun p => by
        have hstate : (if status = .ok then StreamState.initial else .error) = .initial
            ∨ (if status = .ok then StreamState.initial else .error) = .error := by
          rw [if_neg hst]
          exact Or.inr rfl
        exact .closed hstate hstale.succ) hst
    obtain rfl := Option.some.inj ht
    rw [hresume, hclose]
    exact ⟨trivial, s, r, rfl, rfl, hlocal, hr⟩

/-- A token, or an error in its place. -/
theorem Inv.onToken (h : s.Inv) (i : Nat) (status : Code) : s.Steps .stay (s.onToken i status) := by
  unfold SyncEngine.onToken
  simp only
  cases hi : s.remoteStore.writeStream.tokenRequests[i]? with
  | none => exact h.stay rfl h.remoteStore
  | some c =>
      simp only
      split
      · rename_i hc
        exact h.takeToken (hc ▸ hi) status
      · rename_i hne
        have hshape := h.remoteStore.shape.dropToken hi hne
        exact h.stay rfl ⟨hshape, h.remoteStore.pipeline, h.remoteStore.started,
          h.remoteStore.idle, h.remoteStore.handshake⟩

/-! ### Answers -/

/-- The answer to the handshake: the pipeline is sent. -/
theorem onStreamRead_handshake {count : Nat} {tokens : List Nat}
    (hw : s.remoteStore.writeStream =
      ⟨.opened, count, false, false, tokens, some [.handshake], false⟩)
    (response : WriteResponse) :
    s.onStreamRead response = some (s.setStream ⟨.opened, count, false, false, tokens,
      some (requests s.remoteStore.writePipeline), true⟩) := by
  have hsend : s.onStreamRead response = ((s.remoteStore.writePipeline.foldlM
      (fun (w : WriteStream) b => w.writeMutations b.mutations)
      ⟨.opened, count, false, false, tokens, some [], true⟩).map
        fun w => ({ s.remoteStore with writeStream := w } : RemoteStore)).map
      fun r => { s with remoteStore := r } := by
    unfold onStreamRead
    rw [hw]
    rfl
  rw [hsend, WriteStream.foldlM_writeMutations]
  rfl

theorem Inv.handshake (h : s.Inv) {count : Nat} {tokens : List Nat} (hstale : Stale tokens count)
    (hw : s.remoteStore.writeStream =
      ⟨.opened, count, false, false, tokens, some [.handshake], false⟩)
    (response : WriteResponse) :
    s.Steps .stay (s.onStreamRead response) := by
  have hne : s.remoteStore.writePipeline ≠ [] :=
    h.remoteStore.ne_nil (by rw [hw]; rfl) (by rw [hw])
  exact h.stay (onStreamRead_handshake hw response) ⟨.established hstale (fun h => by cases h),
    h.remoteStore.pipeline, fun _ => rfl, fun hnil => absurd hnil hne, fun _ => rfl⟩

/-- The answer to the first write: it is acknowledged, and the pipeline is filled. -/
theorem Inv.result (h : s.Inv) {count : Nat} {tokens : List Nat} (hstale : Stale tokens count)
    {b : MutationBatch} {rest : List MutationBatch} (hp : s.remoteStore.writePipeline = b :: rest)
    (hw : s.remoteStore.writeStream =
      ⟨.opened, count, false, false, tokens, some (requests (b :: rest)), true⟩)
    {response : WriteResponse}
    (hanswers : List.Forall₂ Mutation.Answers b.mutations response.results) :
    ∃ q ls r, s.queue = b :: q ∧ ls.Inv ∧ ls.mutationQueue.queue = q
      ∧ s.move (.acknowledge response) = some (s.answered b .ok ls)
      ∧ s.onStreamRead response = some { s.answered b .ok ls with remoteStore := r }
      ∧ r.Inv q ∧ r.isNetworkEnabled = true ∧ r.writeStream.handshakeComplete = true := by
  obtain ⟨henabled, q, hq, hfront⟩ := RemoteStore.front_eq h.remoteStore.pipeline hp
  obtain ⟨-, ls, -, hmove, hhandle, hinv, htail⟩ := acknowledge_eq h.localStore hq hanswers
  let w : WriteStream := ⟨.opened, count, false, false, tokens, some (requests rest), true⟩
  have hfilling : RemoteStore.Filling ⟨true, rest, w⟩ ls.mutationQueue.queue rest.length := by
    rw [htail]
    exact RemoteStore.filling_tail hfront rfl rfl (.established hstale fun h => by cases h)
      fun _ => ⟨rfl, rfl⟩
  obtain ⟨r', hfill, hfilled⟩ : ∃ r', fillWritePipeline { s.answered b .ok ls with
      remoteStore := ⟨true, rest, w⟩ } = some _ ∧ _ := fillWritePipeline_of_filling hinv hfilling
  have hr : r'.Inv ls.mutationQueue.queue := hfilled.inv fun _ => rfl
  refine ⟨q, ls, r', hq, hinv, htail, hmove, ?_, htail ▸ hr, hfilled.enabled, hfilled.handshake⟩
  have hread : s.onStreamRead response = (handleSuccessfulWrite
      { s with remoteStore := ⟨true, rest, w⟩ } b response).bind fillWritePipeline := by
    have hresult : s.onStreamRead response =
        onWriteStreamMutationResult { s with remoteStore := ⟨s.remoteStore.isNetworkEnabled,
          s.remoteStore.writePipeline, w⟩ } response := by
      unfold onStreamRead
      rw [hw]
      rfl
    rw [hresult, hp, henabled]
    rfl
  rw [hread, handleSuccessfulWrite_withRemote s ⟨true, rest, w⟩, hhandle, Option.map_some,
    Option.bind_some, hfill]

theorem Inv.onStreamRead (h : s.Inv) {response : WriteResponse}
    (henabled : s.Enabled (.streamRead response)) :
    s.Steps (s.moveOf (.streamRead response)) (s.onStreamRead response) := by
  obtain ⟨rs, hrs, request, hfirst, hanswers⟩ := henabled
  obtain ⟨count, tokens, hstale, hw | ⟨b, rest, hp, rfl, hw⟩⟩ :=
    h.remoteStore.shape.first hrs hfirst
  · have hmove : s.moveOf (.streamRead response) = .stay := by
      rw [moveOf, hw]
      rfl
    rw [hmove]
    exact h.handshake hstale hw response
  · have hmove : s.moveOf (.streamRead response) = .acknowledge response := by
      rw [moveOf, hw]
      rfl
    rw [hmove]
    have hresult := hanswers b.mutations rfl
    obtain ⟨q, ls, r, hq, hinv, htail, hacknowledge, hread, hr, -, -⟩ :=
      h.result hstale hp hw hresult
    exact ⟨⟨b, by rw [hq]; rfl, hresult⟩, _, r, hacknowledge, hread, hinv,
      show r.Inv ls.mutationQueue.queue from htail ▸ hr⟩

/-! ### Calls of the application -/

theorem Inv.writeMutations (h : s.Inv) {k : DocumentKey} {ms : List Mutation} (hms : Regular k ms)
    (callback : Callback) :
    s.Steps (.write ms callback) (s.writeMutations ms callback) := by
  obtain ⟨changes, ls, hwrite, hinv, hqueue, -, -, -, -⟩ := h.localStore.writeLocally hms
  let t : SyncEngine := { s with
    localStore := ls
    mutationCallbacks :=
      s.mutationCallbacks.insertIfNew s.localStore.mutationQueue.nextBatchId callback }
  have ht : s.move (.write ms callback) = some t := by
    rw [move, hwrite]
    rfl
  have hcall : s.writeMutations ms callback = t.fillWritePipeline := by
    unfold SyncEngine.writeMutations
    rw [hwrite]
    rfl
  have hextends : s.queue <+: t.queue := ⟨_, hqueue.symm⟩
  rw [hcall]
  by_cases henabled : s.remoteStore.isNetworkEnabled = true
  · obtain ⟨r', hfill, hfilled⟩ := fillWritePipeline_of_filling (s := t) hinv
      (h.remoteStore.filling henabled hextends)
    exact ⟨⟨k, hms⟩, t, r', ht, hfill, hinv, hfilled.inv h.remoteStore.handshake⟩
  · have hdisabled := Bool.eq_false_iff.mpr henabled
    refine ⟨⟨k, hms⟩, t, s.remoteStore, ht, ?_, hinv, h.remoteStore.shape, ?_,
      h.remoteStore.started, h.remoteStore.idle, h.remoteStore.handshake⟩
    · rw [SyncEngine.fillWritePipeline]
      show (s.remoteStore.fillWritePipeline _).map _ = _
      rw [RemoteStore.fillWritePipeline_disabled hdisabled]
      rfl
    · rw [h.remoteStore.pipeline, if_neg henabled, if_neg henabled]

theorem registerPendingWritesCallback_eq (s : SyncEngine) (callback : Callback) :
    (s.registerPendingWritesCallback callback).localStore = s.localStore
      ∧ (s.registerPendingWritesCallback callback).remoteStore = s.remoteStore := by
  unfold registerPendingWritesCallback
  simp only
  split <;> exact ⟨rfl, rfl⟩

theorem Inv.receive (h : s.Inv) {v : SnapshotVersion} {updates : List (DocumentKey × MaybeDocument)}
    (hadm : LocalStore.Admissible s.localStore.lastRemoteSnapshotVersion v updates) :
    s.Steps (.receive v updates) (s.applyRemoteEvent v updates) := by
  obtain ⟨changes, ls, happly, hinv, hqueue, -, -, -, -⟩ := h.localStore.applyRemoteEvent hadm
  have ht : s.applyRemoteEvent v updates = some { s with localStore := ls } := by
    unfold SyncEngine.applyRemoteEvent
    rw [happly]
    rfl
  refine ⟨hadm, { s with localStore := ls }, s.remoteStore, ht, ht, hinv, ?_⟩
  show s.remoteStore.Inv ls.mutationQueue.queue
  rw [hqueue]
  exact h.remoteStore

/-! ### All steps -/

/-- Whatever the surroundings do, short of cutting the writes off, no assertion
fails, and the step makes one move. -/
theorem step_of_inv (h : s.Inv) {e : Event} (he : s.Enabled e) (hcut : ¬ s.CutOff e) :
    s.Steps (s.moveOf e) (s.step e) := by
  cases e with
  | writeMutations ms callback =>
      obtain ⟨k, hk⟩ := he
      exact h.writeMutations hk callback
  | registerPendingWritesCallback callback =>
      obtain ⟨hlocal, hremote⟩ := registerPendingWritesCallback_eq s callback
      refine ⟨trivial, _, s.remoteStore, rfl, ?_, hlocal ▸ h.localStore, ?_⟩
      · rw [← hremote]
        rfl
      · unfold queue
        rw [hlocal]
        exact h.remoteStore
  | enableNetwork => exact h.enableNetwork
  | disableNetwork =>
      obtain ⟨w', hdisable, hshape, hclosed, hhs⟩ := h.disableNetwork
      exact h.stay hdisable (inv_disabled hshape hclosed hhs)
  | handleCredentialChange => exact h.handleCredentialChange
  | token i status => exact h.onToken i status
  | streamRead response => exact h.onStreamRead he
  | streamFinish status => exact h.streamFinish he hcut
  | idleTimeout => exact h.stop he
  | backoffElapsed => exact h.onBackoffElapsed he
  | remoteEvent v updates => exact h.receive he

/-- A graceful end while writes are to be sent fails an assertion. -/
theorem Inv.cutOff (h : s.Inv) {e : Event} (he : s.Enabled e) (hcut : s.CutOff e) :
    s.step e = none := by
  obtain ⟨rfl, hne⟩ := hcut
  have hstarted := h.remoteStore.shape.isStarted_of_stream he
  have henabled : s.remoteStore.isNetworkEnabled = true := by
    by_contra hdisabled
    have hnil := h.remoteStore.pipeline
    rw [if_neg hdisabled] at hnil
    exact hne hnil
  have hneeded : (s.setStream
      (s.remoteStore.writeStream.shut .ok)).remoteStore.shouldStartWriteStream = true := by
    have hclosed := WriteStream.isStarted_shut s.remoteStore.writeStream .ok
    unfold RemoteStore.shouldStartWriteStream RemoteStore.canUseNetwork setStream
    simp [henabled, hclosed, hne]
  show s.close .ok = none
  unfold close notifyStreamClose onWriteStreamClose
  rw [if_pos hstarted, if_pos rfl, if_pos hneeded]
  rfl

theorem inv_initial : SyncEngine.initial.Inv where
  localStore := ⟨MemoryMutationQueue.Inv.initial, List.forall_mem_nil _⟩
  remoteStore := inv_disabled (.closed (Or.inl rfl) (List.forall_mem_nil _)) rfl rfl

/-- The invariant holds in every run. -/
theorem inv_of_run (h : system.Run Enabled s) : s.Inv := by
  refine h.invariant ?_ ?_
  · rintro s rfl
    exact inv_initial
  · intro s e s' hs he hstep
    have hcut : ¬ s.CutOff e := by
      intro hcut
      rw [show system.step s e = s.step e from rfl, hs.cutOff he hcut] at hstep
      cases hstep
    obtain ⟨-, t, r, -, heq, hlocal, hr⟩ := step_of_inv hs he hcut
    obtain rfl := Option.some.inj (hstep.symm.trans heq)
    exact ⟨hlocal, hr⟩

/-! ## Runs -/

/-- For the runs that follow: one write has been sent. -/
theorem exists_sending : ∃ s, system.Trace Enabled .initial [
      .writeMutations [.delete ["Class", "home"] .none] 7, .enableNetwork, .token 0 .ok,
      .streamRead ⟨1, []⟩] s
    ∧ s.remoteStore.writeStream.grpcStream.isSome ∧ s.remoteStore.writePipeline ≠ []
    ∧ s.step (.streamFinish .ok) = none ∧ s.notices = [] :=
  ⟨_, .snoc (.snoc (.snoc (.snoc .nil ⟨_, .delete⟩ rfl) trivial rfl) trivial rfl)
    ⟨_, rfl, _, rfl, fun _ hms => by cases hms⟩ rfl, rfl, List.cons_ne_nil _ _, rfl, rfl⟩

/-- In no run an assertion fails, unless the backend ends the stream gracefully
while writes are to be sent. -/
theorem step_eq_none_iff (h : system.Run Enabled s) {e : Event} (he : s.Enabled e) :
    s.step e = none ↔ s.CutOff e := by
  constructor
  · intro hnone
    by_contra hcut
    obtain ⟨-, t, r, -, heq, -, -⟩ := step_of_inv (inv_of_run h) he hcut
    rw [hnone] at heq
    cases heq
  · exact (inv_of_run h).cutOff he

theorem step_eq_none_iff_sending : ∃ s : SyncEngine, s.step (.streamFinish .ok) = none
    ∧ s.CutOff (.streamFinish .ok) := by
  obtain ⟨s, htrace, hstream, -, hnone, -⟩ := exists_sending
  exact ⟨s, hnone, (step_eq_none_iff (e := .streamFinish .ok) (htrace.run (.init rfl)) hstream).mp
    hnone⟩

/-- What is sent and not answered yet is the handshake or the front of the queue;
the stream is started as long as there is something to send, and waits to be
stopped exactly when it is open with nothing to send. -/
theorem in_flight (h : system.Run Enabled s) :
    s.remoteStore.writePipeline =
        (if s.remoteStore.isNetworkEnabled then s.queue.take RemoteStore.kMaxPendingWrites else [])
      ∧ (∀ rs, s.remoteStore.writeStream.grpcStream = some rs →
          rs = [.handshake] ∨ rs = requests s.remoteStore.writePipeline)
      ∧ (s.remoteStore.writePipeline ≠ [] → s.remoteStore.writeStream.isStarted = true)
      ∧ (s.remoteStore.writeStream.idlenessTimer = true ↔
          s.remoteStore.writeStream.isStarted = true ∧ s.remoteStore.writePipeline = []) := by
  have hr := (inv_of_run h).remoteStore
  refine ⟨hr.pipeline, ?_, hr.started, ?_, ?_⟩
  · intro rs hrs
    exact hr.shape.sent hrs
  · intro hidle
    obtain ⟨hopen, -, hnil⟩ := hr.shape.of_idle hidle
    refine ⟨?_, hnil⟩
    unfold WriteStream.isStarted
    rw [hopen, Bool.or_true]
  · rintro ⟨hstarted, hnil⟩
    exact (hr.idle hnil hstarted).2

theorem in_flight_sending : ∃ s : SyncEngine, s.remoteStore.writePipeline ≠ []
    ∧ s.remoteStore.writeStream.isStarted = true := by
  obtain ⟨s, htrace, -, hne, -⟩ := exists_sending
  exact ⟨s, hne, (in_flight (htrace.run (.init rfl))).2.2.1 hne⟩

end SyncEngine

end GradeIo.Firestore
