import GradeIo.Firestore.WritePipeline
import GradeIo.Lib.Outbox

/-!
# The outcomes of the writes

Apart from the network the sync engine is an outbox: the writes are submitted
with their callbacks and settled in their order, and who waits for the pending
writes is called when those are settled (`Tracks`). Every move of the engine is
an operation of the outbox. So in every run each write is answered at most once,
in order, and is pending otherwise (`every_write`), and whoever waits is called
exactly when as many writes have been answered as were pending
(`pendingWrites_called_iff`).

Where the network is enabled the pending writes can always be drained
(`drains`): the tokens, timers and answers that are outstanding are enough.
-/

namespace GradeIo.Firestore

open Transition

namespace SyncEngine

variable {s t : SyncEngine}

/-! ## The outbox -/

abbrev Desk := Outbox.State (List Mutation) Callback Code

/-- A notice of the outbox as a call. -/
def Notice.of : Outbox.Notice Callback Code → Notice
  | .settled callback status => .mutation callback status
  | .caughtUp callback => .pendingWrites callback .ok

/-- A write with the callbacks that are kept for it. -/
def row (s : SyncEngine) (b : MutationBatch) : List Mutation × Option Callback × List Callback :=
  (b.mutations, s.mutationCallbacks[b.batchId]?, s.pendingWritesCallbacks[b.batchId]?.getD [])

structure Tracks (s : SyncEngine) (o : Desk) : Prop where
  rows : s.queue.map s.row = o.entries.map fun e => (e.item, some e.ticket, e.waiters)
  callbacks : ∀ id, id ∈ s.mutationCallbacks → ∃ b ∈ s.queue, b.batchId = id
  waiting : ∀ id, id ∈ s.pendingWritesCallbacks → ∃ b ∈ s.queue, b.batchId = id
  notices : s.notices = o.notices.map Notice.of

/-- What a move is for the outbox. -/
def opsOf : Move → List (Outbox.Op (List Mutation) Callback Code)
  | .write ms callback => [.submit ms callback]
  | .wait callback => [.wait callback]
  | .acknowledge _ => [.settle .ok]
  | .reject status => [.settle status]
  | .stay => []
  | .receive _ _ => []

/-- The callbacks of the other writes stay as they are. -/
theorem map_row_congr {bs : List MutationBatch}
    (hmutation : ∀ b ∈ bs, t.mutationCallbacks[b.batchId]? = s.mutationCallbacks[b.batchId]?)
    (hwaiting : ∀ b ∈ bs, t.pendingWritesCallbacks[b.batchId]? =
      s.pendingWritesCallbacks[b.batchId]?) : bs.map t.row = bs.map s.row := by
  refine List.map_congr_left fun b hb => ?_
  rw [row, row, hmutation b hb, hwaiting b hb]

theorem getElem?_insert_of_ne {α : Type} (m : Std.ExtTreeMap Int α) {i j : Int} (h : i ≠ j)
    (a : α) : (m.insert i a)[j]? = m[j]? := by
  rw [Std.ExtTreeMap.getElem?_insert, if_neg]
  rwa [Std.LawfulEqCmp.compare_eq_iff_eq]

theorem getElem?_erase_of_ne {α : Type} (m : Std.ExtTreeMap Int α) {i j : Int} (h : i ≠ j) :
    (m.erase i)[j]? = m[j]? := by
  rw [Std.ExtTreeMap.getElem?_erase, if_neg]
  rwa [Std.LawfulEqCmp.compare_eq_iff_eq]

theorem Tracks.write {o : Desk} (h : s.Tracks o) (hq : s.localStore.mutationQueue.Inv)
    {ls : LocalStore} {ms : List Mutation} (callback : Callback)
    (hqueue : ls.mutationQueue.queue = s.queue ++ [⟨s.localStore.mutationQueue.nextBatchId, ms⟩]) :
    Tracks { s with
      localStore := ls
      mutationCallbacks :=
        s.mutationCallbacks.insertIfNew s.localStore.mutationQueue.nextBatchId callback }
      (o.perform (.submit ms callback)) := by
  generalize hid : s.localStore.mutationQueue.nextBatchId = id at hqueue ⊢
  have hfresh : ∀ b ∈ s.queue, id ≠ b.batchId := by
    intro b hb
    have := (hq.id_mem hb).2
    omega
  have hnew : id ∉ s.mutationCallbacks := by
    intro hmem
    obtain ⟨b, hb, hb'⟩ := h.callbacks _ hmem
    exact hfresh b hb hb'.symm
  have hnowait : id ∉ s.pendingWritesCallbacks := by
    intro hmem
    obtain ⟨b, hb, hb'⟩ := h.waiting _ hmem
    exact hfresh b hb hb'.symm
  have hlater : ∀ {i : Int}, (∃ b ∈ s.queue, b.batchId = i) →
      ∃ b ∈ ls.mutationQueue.queue, b.batchId = i := by
    rintro i ⟨b, hb, hi⟩
    rw [hqueue]
    exact ⟨b, List.mem_append_left _ hb, hi⟩
  have hlast : (⟨id, ms⟩ : MutationBatch) ∈ ls.mutationQueue.queue := by
    rw [hqueue]
    exact List.mem_append_right _ List.mem_cons_self
  refine ⟨?_, ?_, fun i hi => hlater (h.waiting i hi), h.notices⟩
  · show ls.mutationQueue.queue.map _ =
      (o.entries ++ [(⟨ms, callback, []⟩ : Outbox.Entry _ _)]).map _
    rw [hqueue, List.map_append, List.map_append, ← h.rows]
    congr 1
    · refine map_row_congr (fun b hb => ?_) fun b _ => rfl
      rw [Std.ExtTreeMap.getElem?_insertIfNew, if_neg]
      rintro ⟨heq, -⟩
      exact hfresh b hb (Std.LawfulEqCmp.compare_eq_iff_eq.mp heq)
    · have hself : (s.mutationCallbacks.insertIfNew id callback)[id]? = some callback := by
        rw [Std.ExtTreeMap.getElem?_insertIfNew,
          if_pos ⟨Std.LawfulEqCmp.compare_eq_iff_eq.mpr rfl, hnew⟩]
      simp only [List.map_singleton, row, hself, Std.ExtTreeMap.getElem?_eq_none hnowait]
      rfl
  · intro i hi
    rcases Std.ExtTreeMap.mem_insertIfNew.mp hi with heq | hi
    · obtain rfl := Std.LawfulEqCmp.compare_eq_iff_eq.mp heq
      exact ⟨_, hlast, rfl⟩
    · exact hlater (h.callbacks i hi)

/-- The last write is the one that is waited for. -/
theorem getHighestUnacknowledgedBatchId_eq (hq : s.localStore.mutationQueue.Inv)
    {bs : List MutationBatch} {b : MutationBatch} (hlast : s.queue = bs ++ [b]) :
    s.localStore.mutationQueue.getHighestUnacknowledgedBatchId = b.batchId ∧ b.batchId ≠ -1
      ∧ ∀ a ∈ bs, b.batchId ≠ a.batchId := by
  have hqueue : s.localStore.mutationQueue.queue = bs ++ [b] := hlast
  have hb := hq.ids bs.length b (by rw [hqueue]; simp)
  have hpos := hq.positive
  have hpair := hq.pairwise
  rw [hqueue] at hb hpos hpair
  simp only [List.length_append, List.length_singleton] at hb hpos
  have hne : s.localStore.mutationQueue.isEmpty = false := by
    rw [MemoryMutationQueue.isEmpty, hqueue]
    simp
  refine ⟨?_, by omega, ?_⟩
  · rw [MemoryMutationQueue.getHighestUnacknowledgedBatchId, hne]
    simp only [Bool.false_eq_true, if_false]
    omega
  · intro a ha
    have hlt := (List.pairwise_append.mp hpair).2.2 a ha b List.mem_cons_self
    omega

theorem Tracks.wait {o : Desk} (h : s.Tracks o) (hq : s.localStore.mutationQueue.Inv)
    (callback : Callback) :
    (s.registerPendingWritesCallback callback).Tracks (o.perform (.wait callback)) := by
  have hgetLast : (s.queue.map s.row).getLast? =
      (o.entries.map fun e => (e.item, some e.ticket, e.waiters)).getLast? := by rw [h.rows]
  rw [List.getLast?_map, List.getLast?_map] at hgetLast
  cases hlast : o.entries.getLast? with
  | none =>
      rw [hlast] at hgetLast
      have hnil : s.queue = [] := by simpa using hgetLast
      have hempty : s.localStore.mutationQueue.getHighestUnacknowledgedBatchId = -1 := by
        rw [MemoryMutationQueue.getHighestUnacknowledgedBatchId, MemoryMutationQueue.isEmpty,
          show s.localStore.mutationQueue.queue = [] from hnil]
        rfl
      have hcall : s.registerPendingWritesCallback callback =
          { s with notices := s.notices ++ [.pendingWrites callback .ok] } := by
        unfold registerPendingWritesCallback
        exact if_pos hempty
      have hperform : o.perform (.wait callback) =
          { o with notices := o.notices ++ [.caughtUp callback] } := by
        unfold Outbox.State.perform
        rw [hlast]
      rw [hcall, hperform]
      refine ⟨h.rows, h.callbacks, h.waiting, ?_⟩
      rw [List.map_append, ← h.notices]
      rfl
  | some e =>
      rw [hlast] at hgetLast
      obtain ⟨b, hb, hrow⟩ : ∃ b, s.queue.getLast? = some b ∧ s.row b = (e.item, some e.ticket,
          e.waiters) := by
        simpa using hgetLast
      have hsplit := List.dropLast_append_getLast? b hb
      obtain ⟨hhighest, hvalid, hothers⟩ := getHighestUnacknowledgedBatchId_eq hq hsplit.symm
      have hcall : s.registerPendingWritesCallback callback = { s with
          pendingWritesCallbacks := s.pendingWritesCallbacks.insert b.batchId
            (s.pendingWritesCallbacks[b.batchId]?.getD [] ++ [callback]) } := by
        unfold registerPendingWritesCallback
        simp only
        rw [hhighest, if_neg hvalid]
      have hperform : o.perform (.wait callback) =
          { o with entries := o.entries.dropLast ++ [e.await callback] } := by
        unfold Outbox.State.perform
        rw [hlast]
      rw [hcall, hperform]
      refine ⟨?_, h.callbacks, ?_, h.notices⟩
      · show s.queue.map _ = (o.entries.dropLast ++ [e.await callback]).map _
        rw [List.map_append, ← hsplit, List.map_append, List.map_dropLast (l := o.entries),
          ← h.rows, ← List.map_dropLast]
        congr 1
        · exact map_row_congr (fun _ _ => rfl) fun a ha => getElem?_insert_of_ne _ (hothers a ha) _
        · obtain ⟨hitem, hticket, hwaiters⟩ := Prod.mk.inj hrow |>.imp id Prod.mk.inj
          simp only [List.map_singleton, row, Std.ExtTreeMap.getElem?_insert_self, hitem, hticket]
          rw [Option.getD_some, hwaiters]
          rfl
      · intro i hi
        rcases Std.ExtTreeMap.mem_insert.mp hi with heq | hi
        · obtain rfl := Std.LawfulEqCmp.compare_eq_iff_eq.mp heq
          exact ⟨b, List.mem_of_getLast? hb, rfl⟩
        · exact h.waiting i hi

/-- The callbacks for a write that has been answered are called and forgotten. -/
theorem notify_eq {callback : Callback} {waiters : List Callback} {id : Int}
    (hcallback : s.mutationCallbacks[id]? = some callback)
    (hwaiters : s.pendingWritesCallbacks[id]?.getD [] = waiters) (status : Code) :
    ∃ pendingWritesCallbacks, (s.notifyUser id status).triggerPendingWriteCallbacks id =
        { s with
          mutationCallbacks := s.mutationCallbacks.erase id
          pendingWritesCallbacks
          notices := s.notices ++
            (.mutation callback status :: waiters.map fun c => .pendingWrites c .ok) }
      ∧ id ∉ pendingWritesCallbacks
      ∧ ∀ i, id ≠ i → pendingWritesCallbacks[i]? = s.pendingWritesCallbacks[i]? := by
  have hnotify : s.notifyUser id status = { s with
      mutationCallbacks := s.mutationCallbacks.erase id
      notices := s.notices ++ [.mutation callback status] } := by
    unfold notifyUser
    rw [hcallback]
  rw [hnotify]
  cases hw : s.pendingWritesCallbacks[id]? with
  | none =>
      rw [hw] at hwaiters
      obtain rfl := hwaiters
      refine ⟨s.pendingWritesCallbacks, ?_, ?_, fun _ _ => rfl⟩
      · unfold triggerPendingWriteCallbacks
        simp only [hw]
        rfl
      · rw [Std.ExtTreeMap.mem_iff_isSome_getElem?, hw]
        decide
  | some cs =>
      rw [hw] at hwaiters
      obtain rfl : cs = waiters := hwaiters
      refine ⟨s.pendingWritesCallbacks.erase id, ?_, ?_, fun i hi => getElem?_erase_of_ne _ hi⟩
      · unfold triggerPendingWriteCallbacks
        simp only [hw, List.append_assoc]
        rfl
      · rw [Std.ExtTreeMap.mem_erase]
        exact fun h => h.1 (Std.LawfulEqCmp.compare_eq_iff_eq.mpr rfl)

/-- The first write of the queue is the first entry. -/
theorem Tracks.first {o : Desk} (h : s.Tracks o) {b : MutationBatch} {rest : List MutationBatch}
    (hqueue : s.queue = b :: rest) :
    ∃ e es, o.entries = e :: es ∧ s.mutationCallbacks[b.batchId]? = some e.ticket
      ∧ s.pendingWritesCallbacks[b.batchId]?.getD [] = e.waiters
      ∧ rest.map s.row = es.map fun e => (e.item, some e.ticket, e.waiters) := by
  have hrows := h.rows
  rw [hqueue, List.map_cons] at hrows
  cases hentries : o.entries with
  | nil =>
      rw [hentries] at hrows
      cases hrows
  | cons e es =>
      rw [hentries, List.map_cons] at hrows
      obtain ⟨hrow, hrest⟩ := List.cons.inj hrows
      obtain ⟨-, hpair⟩ := Prod.mk.inj hrow
      obtain ⟨hcallback, hwaiters⟩ := Prod.mk.inj hpair
      exact ⟨e, es, rfl, hcallback, hwaiters, hrest⟩

/-- The first write is answered. -/
theorem Tracks.settle {o : Desk} (h : s.Tracks o) (hq : s.localStore.mutationQueue.Inv)
    {b : MutationBatch} {rest : List MutationBatch} (hqueue : s.queue = b :: rest)
    {ls : LocalStore} (hls : ls.mutationQueue.queue = rest) (status : Code) :
    (s.answered b status ls).Tracks (o.perform (.settle status)) := by
  obtain ⟨e, es, hentries, hcallback, hwaiters, hrest⟩ := h.first hqueue
  obtain ⟨waiting, hnotify, hgone, hkept⟩ := notify_eq hcallback hwaiters status
  have hne : ∀ a ∈ rest, b.batchId ≠ a.batchId := by
    have hpairwise := hq.pairwise
    rw [show s.localStore.mutationQueue.queue = b :: rest from hqueue] at hpairwise
    intro a ha
    have := (List.pairwise_cons.mp hpairwise).1 a ha
    omega
  have hothers : ∀ {i : Int}, b.batchId ≠ i → (∃ a ∈ s.queue, a.batchId = i) →
      ∃ a ∈ ls.mutationQueue.queue, a.batchId = i := by
    rintro i hi ⟨a, ha, rfl⟩
    rw [hqueue] at ha
    rcases List.mem_cons.mp ha with rfl | ha
    · exact absurd rfl hi
    · exact ⟨a, by rw [hls]; exact ha, rfl⟩
  have hperform : o.perform (.settle status) = ⟨es, o.notices ++ e.notices status⟩ := by
    unfold Outbox.State.perform
    rw [hentries]
  rw [answered, hnotify, hperform]
  refine ⟨?_, ?_, ?_, ?_⟩
  · show ls.mutationQueue.queue.map _ = _
    rw [hls, ← hrest]
    exact map_row_congr (fun a ha => getElem?_erase_of_ne _ (hne a ha))
      fun a ha => hkept _ (hne a ha)
  · intro i hi
    obtain ⟨hi, hmem⟩ := Std.ExtTreeMap.mem_erase.mp hi
    exact hothers (fun heq => hi (Std.LawfulEqCmp.compare_eq_iff_eq.mpr heq)) (h.callbacks i hmem)
  · intro i hi
    have hi' : b.batchId ≠ i := by
      rintro rfl
      exact hgone hi
    have hmem : i ∈ s.pendingWritesCallbacks := by
      rw [Std.ExtTreeMap.mem_iff_isSome_getElem?, ← hkept i hi',
        ← Std.ExtTreeMap.mem_iff_isSome_getElem?]
      exact hi
    exact hothers hi' (h.waiting i hmem)
  · rw [List.map_append, ← h.notices]
    simp [Outbox.Entry.notices, Notice.of]

/-- Every move is an operation of the outbox, or none. -/
theorem Tracks.move {o : Desk} (h : s.Tracks o) (hs : s.localStore.Inv) {m : Move} (hm : s.Fits m)
    (hmove : s.move m = some t) : t.Tracks (o.run (opsOf m)) := by
  cases m with
  | stay =>
      obtain rfl := Option.some.inj hmove
      exact h
  | write ms callback =>
      obtain ⟨k, hk⟩ := hm
      obtain ⟨changes, ls, hwrite, -, hqueue, -, -, -, -⟩ := hs.writeLocally hk
      rw [SyncEngine.move, hwrite] at hmove
      obtain rfl := Option.some.inj hmove
      exact h.write hs.queue callback hqueue
  | wait callback =>
      obtain rfl := Option.some.inj hmove
      exact h.wait hs.queue callback
  | acknowledge response =>
      obtain ⟨b, hb, hanswers⟩ := hm
      obtain ⟨rest, hq⟩ := List.head?_eq_some_iff.mp hb
      obtain ⟨-, ls, -, hacknowledge, -, -, hrest⟩ := acknowledge_eq hs hq hanswers
      obtain rfl := Option.some.inj (hmove.symm.trans hacknowledge)
      exact h.settle hs.queue hq hrest .ok
  | reject status =>
      obtain ⟨b, rest, hq⟩ := List.exists_cons_of_ne_nil hm
      obtain ⟨-, ls, -, hreject, -, -, hrest⟩ := reject_eq hs hq status
      obtain rfl := Option.some.inj (hmove.symm.trans hreject)
      exact h.settle hs.queue hq hrest status
  | receive v updates =>
      obtain ⟨changes, ls, happly, -, hqueue, -, -, -, -⟩ := hs.applyRemoteEvent hm
      rw [SyncEngine.move, SyncEngine.applyRemoteEvent, happly] at hmove
      obtain rfl := Option.some.inj hmove
      have hsame : ls.mutationQueue.queue = s.queue := congrArg MemoryMutationQueue.queue hqueue
      refine ⟨?_, ?_, ?_, h.notices⟩
      · show ls.mutationQueue.queue.map _ = _
        rw [hsame]
        exact h.rows
      · show ∀ i, i ∈ s.mutationCallbacks → ∃ b ∈ ls.mutationQueue.queue, b.batchId = i
        rw [hsame]
        exact h.callbacks
      · show ∀ i, i ∈ s.pendingWritesCallbacks → ∃ b ∈ ls.mutationQueue.queue, b.batchId = i
        rw [hsame]
        exact h.waiting

/-! ## Runs -/

/-- The writes of a run, with their callbacks. -/
def writes (es : List Event) : List (List Mutation × Callback) :=
  es.filterMap fun
    | .writeMutations ms callback => some (ms, callback)
    | _ => none

/-- The calls of the callbacks of writes. -/
def answers (notices : List Notice) : List (Callback × Code) :=
  notices.filterMap fun
    | .mutation callback status => some (callback, status)
    | .pendingWrites _ _ => none

theorem answers_map_of (ns : List (Outbox.Notice Callback Code)) :
    answers (ns.map Notice.of) = Outbox.settled ns := by
  unfold answers Outbox.settled
  rw [List.filterMap_map]
  refine List.filterMap_congr fun n _ => ?_
  cases n <;> rfl

theorem moveOf_streamRead (s : SyncEngine) (response : WriteResponse) :
    s.moveOf (.streamRead response) = .acknowledge response
      ∨ s.moveOf (.streamRead response) = .stay := by
  by_cases h : s.remoteStore.writeStream.handshakeComplete = true
  · exact Or.inl (if_pos h)
  · exact Or.inr (if_neg h)

theorem moveOf_streamFinish (s : SyncEngine) (status : Code) :
    s.moveOf (.streamFinish status) = .reject status
      ∨ s.moveOf (.streamFinish status) = .stay := by
  by_cases h : s.faulty status = true
  · exact Or.inl (if_pos h)
  · exact Or.inr (if_neg h)

theorem submitted_opsOf (s : SyncEngine) (e : Event) :
    Outbox.submitted (opsOf (s.moveOf e)) = writes [e] := by
  cases e with
  | streamRead response => rcases moveOf_streamRead s response with h | h <;> rw [h] <;> rfl
  | streamFinish status => rcases moveOf_streamFinish s status with h | h <;> rw [h] <;> rfl
  | _ => rfl

theorem wait_mem_opsOf {e : Event} {callback : Callback}
    (h : .wait callback ∈ opsOf (s.moveOf e)) : e = .registerPendingWritesCallback callback := by
  cases e with
  | registerPendingWritesCallback c =>
      have hc : (Outbox.Op.wait callback : Outbox.Op (List Mutation) Callback Code) = .wait c := by
        simpa [moveOf, opsOf] using h
      injection hc with hc
      rw [hc]
  | streamRead response =>
      rcases moveOf_streamRead s response with hm | hm <;> rw [hm] at h <;> simp [opsOf] at h
  | streamFinish status =>
      rcases moveOf_streamFinish s status with hm | hm <;> rw [hm] at h <;> simp [opsOf] at h
  | _ => simp [moveOf, opsOf] at h

theorem Inv.step_eq (h : s.Inv) {e : Event} (he : s.Enabled e) (hstep : s.step e = some t) :
    t.Inv ∧ s.Fits (s.moveOf e) ∧ ∃ u r, s.move (s.moveOf e) = some u
      ∧ t = { u with remoteStore := r } := by
  have hcut : ¬ s.CutOff e := by
    intro hcut
    rw [h.cutOff he hcut] at hstep
    cases hstep
  obtain ⟨hfits, u, r, hmove, heq, hlocal, hr⟩ := step_of_inv h he hcut
  obtain rfl := Option.some.inj (hstep.symm.trans heq)
  exact ⟨⟨hlocal, hr⟩, hfits, u, r, hmove, rfl⟩

/-- A run is a run of the outbox. -/
theorem Tracks.trace {o : Desk} {es : List Event} (hs : s.Inv) (ho : s.Tracks o)
    (h : system.Trace Enabled s es t) :
    t.Inv ∧ ∃ ops, t.Tracks (o.run ops) ∧ Outbox.submitted ops = writes es
      ∧ ∀ callback, .wait callback ∈ ops → .registerPendingWritesCallback callback ∈ es := by
  induction h with
  | nil => exact ⟨hs, [], ho, rfl, by simp⟩
  | @snoc es t u e _ he hstep ih =>
      obtain ⟨ht, ops, htracks, hsubmitted, hwaits⟩ := ih
      obtain ⟨hu, hfits, v, r, hmove, rfl⟩ := ht.step_eq he hstep
      have hv := htracks.move ht.localStore hfits hmove
      refine ⟨hu, ops ++ opsOf (t.moveOf e), ?_, ?_, ?_⟩
      · rw [Outbox.State.run, List.foldl_append]
        exact ⟨hv.rows, hv.callbacks, hv.waiting, hv.notices⟩
      · rw [writes, List.filterMap_append, ← writes, ← writes, ← hsubmitted, ← submitted_opsOf t e]
        exact List.filterMap_append
      · intro callback hmem
        rcases List.mem_append.mp hmem with hmem | hmem
        · exact List.mem_append_left _ (hwaits callback hmem)
        · obtain rfl := wait_mem_opsOf hmem
          exact List.mem_append_right _ List.mem_cons_self

theorem tracks_initial : SyncEngine.initial.Tracks ⟨[], []⟩ where
  rows := rfl
  callbacks _ hi := absurd hi Std.ExtTreeMap.not_mem_empty
  waiting _ hi := absurd hi Std.ExtTreeMap.not_mem_empty
  notices := rfl

/-- The writes are those that have been answered, and then the pending ones. -/
theorem writes_of_trace {es : List Event} (h : system.Trace Enabled .initial es s) :
    ∃ done rest, writes es = done ++ rest
      ∧ (answers s.notices).map Prod.fst = done.map Prod.snd
      ∧ (s.queue.map fun b => (b.mutations, s.mutationCallbacks[b.batchId]?)) =
        rest.map fun w => (w.1, some w.2) := by
  obtain ⟨-, ops, htracks, hsubmitted, -⟩ := tracks_initial.trace inv_initial h
  have hstart : Outbox.State.History (⟨[], []⟩ : Desk) [] := ⟨[], rfl, rfl⟩
  obtain ⟨done, hall, hdone⟩ := Outbox.run_history hstart ops
  rw [List.nil_append, hsubmitted] at hall
  refine ⟨done, _, hall, ?_, ?_⟩
  · rw [htracks.notices, answers_map_of]
    exact hdone
  · have hrows := congrArg (List.map fun r => (r.1, r.2.1)) htracks.rows
    rw [List.map_map, List.map_map] at hrows
    unfold Outbox.State.pending
    rw [List.map_map]
    exact hrows

/-- The writes are answered in their order, each at most once, and those that are
not answered are pending, with their callbacks. -/
theorem every_write {es : List Event} (h : system.Trace Enabled .initial es s) :
    (answers s.notices).map Prod.fst =
        ((writes es).take (answers s.notices).length).map Prod.snd
      ∧ (s.queue.map fun b => (b.mutations, s.mutationCallbacks[b.batchId]?)) =
        ((writes es).drop (answers s.notices).length).map fun w => (w.1, some w.2) := by
  obtain ⟨done, rest, hall, hdone, hrest⟩ := writes_of_trace h
  have hlength : (answers s.notices).length = done.length := by
    have hlen := congrArg List.length hdone
    simpa using hlen
  rw [hall, hlength, List.take_left, List.drop_left]
  exact ⟨hdone, hrest⟩

theorem every_write_sending : ∃ s : SyncEngine,
    (s.queue.map fun b => (b.mutations, s.mutationCallbacks[b.batchId]?)) =
      [([.delete ["Class", "home"] .none], some 7)] := by
  obtain ⟨s, htrace, -, -, -, hnotices⟩ := exists_sending
  have hpending := (every_write htrace).2
  rw [hnotices] at hpending
  exact ⟨s, hpending⟩

/-- Who waits is called exactly when as many writes have been answered as were
pending. -/
theorem pendingWrites_called_iff {es es' : List Event} {callback : Callback} {u : SyncEngine}
    (h : system.Trace Enabled .initial es s)
    (hnew : .registerPendingWritesCallback callback ∉ es ++ es')
    (h' : system.Trace Enabled (s.registerPendingWritesCallback callback) es' u) :
    .pendingWrites callback .ok ∈ u.notices ↔
      (answers s.notices).length + s.queue.length ≤ (answers u.notices).length := by
  rw [List.mem_append, not_or] at hnew
  obtain ⟨hinv, ops, htracks, -, hwaits⟩ := tracks_initial.trace inv_initial h
  have hwait := htracks.wait hinv.localStore.queue callback
  have hinv' : (s.registerPendingWritesCallback callback).Inv := by
    obtain ⟨hlocal, hremote⟩ := registerPendingWritesCallback_eq s callback
    refine ⟨hlocal ▸ hinv.localStore, ?_⟩
    unfold queue
    rw [hlocal, hremote]
    exact hinv.remoteStore
  obtain ⟨-, ops', htracks', -, hwaits'⟩ := hwait.trace hinv' h'
  have hfresh : Outbox.State.Fresh (Outbox.State.run (⟨[], []⟩ : Desk) ops) callback :=
    Outbox.State.Fresh.run ⟨List.not_mem_nil, fun e he => absurd he List.not_mem_nil⟩
      fun op hop heq => hnew.1 (hwaits callback (heq ▸ hop))
  have hother : ∀ op ∈ ops', op ≠ .wait callback :=
    fun op hop heq => hnew.2 (hwaits' callback (heq ▸ hop))
  have hcalled := Outbox.caughtUp_iff hfresh hother
  have hentries := congrArg List.length htracks.rows
  rw [List.length_map, List.length_map] at hentries
  rw [htracks'.notices, htracks.notices, answers_map_of, answers_map_of, hentries, ← hcalled,
    List.mem_map]
  constructor
  · rintro ⟨n, hn, heq⟩
    cases n with
    | settled c status => cases heq
    | caughtUp c =>
        injection heq with hc
        exact hc ▸ hn
  · exact fun hn => ⟨_, hn, rfl⟩

theorem pendingWrites_called_iff_sending : ∃ s : SyncEngine,
    s.notices = [.mutation 7 .ok, .pendingWrites 8 .ok] ∧ .pendingWrites 8 .ok ∈ s.notices :=
  ⟨_, rfl, (pendingWrites_called_iff
    (show system.Trace Enabled .initial [
        .writeMutations [.delete ["Class", "home"] .none] 7, .enableNetwork, .token 0 .ok,
        .streamRead ⟨1, []⟩] _ from
      .snoc (.snoc (.snoc (.snoc .nil ⟨_, .delete⟩ rfl) trivial rfl) trivial rfl)
        ⟨_, rfl, _, rfl, fun _ hms => by cases hms⟩ rfl)
    (by simp)
    (show system.Trace Enabled _ [.streamRead ⟨1, [⟨1, none⟩]⟩] _ from
      .single ⟨_, rfl, _, rfl, fun _ hms => by
        injection hms with hms
        exact hms ▸ .cons rfl .nil⟩ rfl)).mpr (by decide)⟩

/-! ## Draining -/

/-- The network is enabled, or something outstanding arrives, without an error. -/
inductive Helpful : Event → Prop
  | enableNetwork : Helpful .enableNetwork
  | token (i : Nat) : Helpful (.token i .ok)
  | backoffElapsed : Helpful .backoffElapsed
  | streamRead (response : WriteResponse) : Helpful (.streamRead response)

/-- Reached with helpful events, while all answers are successes. -/
def Drives (s t : SyncEngine) : Prop :=
  ∃ es, system.Trace Enabled s es t ∧ (∀ e ∈ es, Helpful e)
    ∧ ∃ ns, t.notices = s.notices ++ ns ∧ ∀ a ∈ answers ns, a.2 = .ok

theorem Drives.refl (s : SyncEngine) : s.Drives s :=
  ⟨[], .nil, by simp, [], (List.append_nil _).symm, by simp [answers]⟩

theorem Drives.trans {u : SyncEngine} (h : s.Drives t) (h' : t.Drives u) : s.Drives u := by
  obtain ⟨es, htrace, hes, ns, hns, hok⟩ := h
  obtain ⟨es', htrace', hes', ns', hns', hok'⟩ := h'
  refine ⟨es ++ es', htrace.trans htrace', ?_, ns ++ ns', ?_, ?_⟩
  · intro e he
    exact (List.mem_append.mp he).elim (hes e) (hes' e)
  · rw [hns', hns, List.append_assoc]
  · intro a ha
    rw [answers, List.filterMap_append] at ha
    exact (List.mem_append.mp ha).elim (hok a) (hok' a)

/-- A step without an answer. -/
theorem Drives.quiet {e : Event} (he : s.Enabled e) (hhelpful : Helpful e)
    (hstep : s.step e = some t) (hnotices : t.notices = s.notices) : s.Drives t :=
  ⟨[e], .single he hstep, by simpa using hhelpful, [], by rw [hnotices, List.append_nil],
    by simp [answers]⟩

/-- A response that answers all mutations. -/
def resultFor : Mutation → MutationResult
  | .transform _ ts => ⟨1, some (ts.map fun _ => .null)⟩
  | _ => ⟨1, none⟩

theorem answers_resultFor (ms : List Mutation) :
    List.Forall₂ Mutation.Answers ms (ms.map resultFor) := by
  rw [List.forall₂_map_right_iff, List.forall₂_same]
  intro m _
  cases m with
  | transform key ts => exact ⟨_, rfl, by rw [List.length_map]⟩
  | _ => rfl

/-- Only the stream is different, which has come nearer to being established. -/
def Prepares (s t : SyncEngine) : Prop := s.Drives t ∧ t.Inv ∧ ∃ w, t = s.setStream w

theorem Prepares.trans {u : SyncEngine} (h : s.Prepares t) (h' : t.Prepares u) :
    s.Prepares u := by
  obtain ⟨hdrives, -, w, rfl⟩ := h
  obtain ⟨hdrives', hinv, w', rfl⟩ := h'
  exact ⟨hdrives.trans hdrives', hinv, w', rfl⟩

theorem Inv.prepares (h : s.Inv) {e : Event} (he : s.Enabled e) (hhelpful : Helpful e)
    {w : WriteStream} (hstep : s.step e = some (s.setStream w)) : s.Prepares (s.setStream w) :=
  ⟨.quiet he hhelpful hstep rfl, (h.step_eq he hstep).1, w, rfl⟩

/-- The handshake is answered. -/
theorem Inv.prepares_handshaking (h : s.Inv) {count : Nat} {tokens : List Nat}
    (hw : s.remoteStore.writeStream =
      ⟨.opened, count, false, false, tokens, some [.handshake], false⟩) :
    ∃ t, s.Prepares t ∧ t.remoteStore.writeStream.handshakeComplete = true := by
  have henabled : s.Enabled (.streamRead ⟨1, []⟩) :=
    ⟨_, by rw [hw], _, rfl, fun ms hms => by cases hms⟩
  exact ⟨_, h.prepares henabled (.streamRead _) (onStreamRead_handshake hw _), rfl⟩

/-- The token arrives. -/
theorem Inv.prepares_starting (h : s.Inv) {count : Nat} {tokens : List Nat} {hs : Bool}
    (hw : s.remoteStore.writeStream = ⟨.starting, count, false, false, tokens, none, hs⟩)
    (hlive : Live tokens count) :
    ∃ t, s.Prepares t ∧ t.remoteStore.writeStream.handshakeComplete = true := by
  have hcomplete : hs = false := by
    by_contra hcomplete
    have hopen := h.remoteStore.handshake (by rw [hw]; simpa using hcomplete)
    rw [hw] at hopen
    cases hopen
  subst hcomplete
  obtain ⟨old, hperm, -⟩ := hlive
  obtain ⟨i, hi⟩ := List.mem_iff_getElem?.mp (hperm.symm.subset List.mem_cons_self)
  have hstep : s.step (.token i .ok) = some (s.setStream
      ⟨.opened, count, false, false, tokens.eraseIdx i, some [.handshake], false⟩) := by
    show s.onToken i .ok = _
    unfold SyncEngine.onToken
    simp only [hw, hi, if_true]
    exact resume_ok rfl
  have hfirst := h.prepares (e := .token i .ok) trivial (.token i) hstep
  obtain ⟨t, hsecond, ht⟩ := hfirst.2.1.prepares_handshaking rfl
  exact ⟨t, hfirst.trans hsecond, ht⟩

/-- A stream that is needed can be established. -/
theorem Inv.establish (h : s.Inv) (henabled : s.remoteStore.isNetworkEnabled = true)
    (hne : s.queue ≠ []) :
    ∃ t, s.Prepares t ∧ t.remoteStore.writeStream.handshakeComplete = true := by
  have hpipeline : s.remoteStore.writePipeline ≠ [] := by
    rw [h.remoteStore.pipeline, if_pos henabled]
    intro hnil
    rcases List.take_eq_nil_iff.mp hnil with h0 | hnil
    · cases h0
    · exact hne hnil
  have hstarted := h.remoteStore.started hpipeline
  have hshape := h.remoteStore.shape
  generalize hw : s.remoteStore.writeStream = w at hshape hstarted
  cases hshape with
  | closed hstate _ => rcases hstate with rfl | rfl <;> cases hstarted
  | starting hlive => exact h.prepares_starting hw hlive
  | @backoff count tokens hs _ hstale =>
      have htimer : s.remoteStore.writeStream.backoffTimer = true := by rw [hw]
      have hstep : s.step .backoffElapsed = some (s.setStream
          ⟨.starting, count, false, false, tokens ++ [count], none, hs⟩) := by
        show s.onBackoffElapsed = _
        unfold SyncEngine.onBackoffElapsed
        rw [hw]
        rfl
      have hfirst := h.prepares (e := .backoffElapsed) htimer .backoffElapsed hstep
      obtain ⟨t, hsecond, ht⟩ := hfirst.2.1.prepares_starting rfl hstale.live
      exact ⟨t, hfirst.trans hsecond, ht⟩
  | handshaking _ => exact h.prepares_handshaking hw
  | established _ _ => exact ⟨s, ⟨.refl s, h, _, rfl⟩, by rw [hw]⟩

/-- The first write is answered with a success, and nothing else is. -/
theorem answered_notices (s : SyncEngine) (b : MutationBatch) (status : Code) (ls : LocalStore) :
    ∃ ns, (s.answered b status ls).notices = s.notices ++ ns ∧ ∀ a ∈ answers ns, a.2 = status := by
  unfold answered triggerPendingWriteCallbacks notifyUser
  cases s.mutationCallbacks[b.batchId]? with
  | none =>
      cases s.pendingWritesCallbacks[b.batchId]? with
      | none => exact ⟨[], (List.append_nil _).symm, by simp [answers]⟩
      | some cs => exact ⟨_, rfl, by simp [answers]⟩
  | some callback =>
      cases s.pendingWritesCallbacks[b.batchId]? with
      | none => exact ⟨_, rfl, by simp [answers]⟩
      | some cs => exact ⟨_, List.append_assoc _ _ _, by simp [answers]⟩

theorem Inv.drain_first (h : s.Inv) (henabled : s.remoteStore.isNetworkEnabled = true)
    (hcomplete : s.remoteStore.writeStream.handshakeComplete = true) {b : MutationBatch}
    {q : List MutationBatch} (hq : s.queue = b :: q) :
    ∃ t, s.Drives t ∧ t.Inv ∧ t.queue = q ∧ t.remoteStore.isNetworkEnabled = true
      ∧ t.remoteStore.writeStream.handshakeComplete = true := by
  have hp : s.remoteStore.writePipeline = b :: q.take 9 := by
    rw [h.remoteStore.pipeline, if_pos henabled, hq]
    rfl
  have hopen := h.remoteStore.handshake hcomplete
  have hshape := h.remoteStore.shape
  generalize hw : s.remoteStore.writeStream = w at hshape hopen
  cases hshape with
  | closed hstate _ => rcases hstate with rfl | rfl <;> cases hopen
  | starting _ => cases hopen
  | backoff _ => cases hopen
  | handshaking _ =>
      rw [hw] at hcomplete
      cases hcomplete
  | @established count idle tokens _ hstale hidle =>
      have hbusy : idle = false := by
        by_contra hne
        have hnil := hidle (by simpa using hne)
        rw [hp] at hnil
        cases hnil
      subst hbusy
      rw [hp] at hw
      let response : WriteResponse := ⟨1, b.mutations.map resultFor⟩
      have hanswers : List.Forall₂ Mutation.Answers b.mutations response.results :=
        answers_resultFor b.mutations
      obtain ⟨q', ls, r, hq', hls, htail, -, hread, hr, hon, hhs⟩ :=
        h.result hstale hp hw hanswers
      obtain rfl : q = q' := (List.cons.inj (hq.symm.trans hq')).2
      have he : s.Enabled (.streamRead response) := by
        refine ⟨_, by rw [hw], _, rfl, ?_⟩
        intro ms hms
        injection hms with hms
        exact hms ▸ hanswers
      obtain ⟨ns, hns, hok⟩ := answered_notices s b .ok ls
      refine ⟨_, ⟨[_], .single he hread, by simpa using Helpful.streamRead _, ns, hns, hok⟩,
        ⟨hls, ?_⟩, htail, hon, hhs⟩
      show r.Inv ls.mutationQueue.queue
      rw [htail]
      exact hr

/-- One write after the other is answered. -/
theorem Inv.drain (h : s.Inv) (henabled : s.remoteStore.isNetworkEnabled = true)
    (hcomplete : s.remoteStore.writeStream.handshakeComplete = true) :
    ∃ t, s.Drives t ∧ t.queue = [] := by
  generalize hq : s.queue = q
  induction q generalizing s with
  | nil => exact ⟨s, .refl s, hq⟩
  | cons b q ih =>
      obtain ⟨t, hdrives, ht, hrest, hon, hhs⟩ := h.drain_first henabled hcomplete hq
      obtain ⟨u, hdrives', hu⟩ := ih ht hon hhs hrest
      exact ⟨u, hdrives.trans hdrives', hu⟩

theorem writes_helpful {es : List Event} (h : ∀ e ∈ es, Helpful e) : writes es = [] := by
  unfold writes
  rw [List.filterMap_eq_nil_iff]
  intro e he
  cases h e he <;> rfl

/-- From every state helpful events are enough to answer all writes, and the
answers that were still due are successes. -/
theorem drains {es : List Event} (h : system.Trace Enabled .initial es s) :
    ∃ es' t, system.Trace Enabled s es' t ∧ (∀ e ∈ es', Helpful e) ∧ t.queue = []
      ∧ ∃ late, answers t.notices = answers s.notices ++ late ∧ (∀ a ∈ late, a.2 = .ok)
        ∧ (answers t.notices).map Prod.fst = (writes es).map Prod.snd := by
  obtain ⟨hs, -⟩ := tracks_initial.trace inv_initial h
  obtain ⟨t, ⟨es', htrace, hes, ns, hns, hok⟩, hempty⟩ : ∃ t, s.Drives t ∧ t.queue = [] := by
    obtain ⟨r, henable, hr, hon⟩ := hs.enableNetwork_eq
    have hfirst : s.Drives { s with remoteStore := r } :=
      .quiet (e := .enableNetwork) trivial .enableNetwork henable rfl
    have hinv : Inv { s with remoteStore := r } := ⟨hs.localStore, hr⟩
    by_cases hnil : s.queue = []
    · exact ⟨_, hfirst, hnil⟩
    · obtain ⟨u, ⟨hsecond, hu, w, rfl⟩, hcomplete⟩ := hinv.establish hon hnil
      obtain ⟨t, hthird, ht⟩ := hu.drain hon hcomplete
      exact ⟨t, (hfirst.trans hsecond).trans hthird, ht⟩
  refine ⟨es', t, htrace, hes, hempty, answers ns, ?_, hok, ?_⟩
  · rw [hns]
    exact List.filterMap_append
  · obtain ⟨done, rest, hall, hdone, hrest⟩ := writes_of_trace (h.trans htrace)
    rw [hempty, List.map_nil, List.nil_eq, List.map_eq_nil_iff] at hrest
    have hsame : writes (es ++ es') = writes es := by
      rw [writes, List.filterMap_append, ← writes, ← writes, writes_helpful hes, List.append_nil]
    rw [hdone, ← hsame, hall, hrest, List.append_nil]

theorem drains_sending : ∃ t : SyncEngine, t.queue = []
    ∧ (answers t.notices).map Prod.fst = [7] := by
  obtain ⟨s, htrace, -⟩ := exists_sending
  obtain ⟨-, t, -, -, hempty, -, -, -, hanswers⟩ := drains htrace
  exact ⟨t, hempty, hanswers⟩

end SyncEngine

end GradeIo.Firestore
