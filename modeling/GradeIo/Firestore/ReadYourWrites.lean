import GradeIo.Firestore.Calls
import GradeIo.Firestore.Outcomes

/-!
# Reading one's own writes

A client that is alone with its documents reads what it has written: after every
run, in whatever states network and stream have been, a document is what the
writes make of it, apart from those that the backend has rejected
(`read_your_writes`). The pending writes and the acknowledged ones are applied by
different code to different documents; a reader does not see which of them have
been acknowledged.
-/

namespace GradeIo.Firestore

open DocDb Keyed Transition

/-! ## Tame writes -/

/-- No dictionary in it has keys out of order. -/
def Sorted (v : Value) : Prop := norm v = v

/-- A write of a sorted value, by which no dictionary is merged; an update has a
key without dots. -/
def Tame : Write → Prop
  | .setMerge _ _ v => Sorted v ∧ ∀ fs, v ≠ .map fs
  | .unionMerge _ _ v => Sorted v
  | .unionUpdate _ k v => Sorted v ∧ '.' ∉ k.toList
  | .delete _ => True

def SortedDoc (d : Option Doc) : Prop := ∀ (k : String) v, (d.getD ∅)[k]? = some v → Sorted v

theorem norm_array (vs : List Value) : norm (.array vs) = .array (vs.map norm) :=
  congrArg Value.array (plainList_ofValues vs)

theorem sorted_array {vs : List Value} : Sorted (.array vs) ↔ ∀ v ∈ vs, Sorted v := by
  unfold Sorted
  rw [norm_array, Value.array.injEq]
  constructor
  · intro h v hv
    obtain ⟨i, hi, rfl⟩ := List.getElem_of_mem hv
    have hget := congrArg (fun l => l[i]?) h
    simpa [hi] using hget
  · intro h
    exact (List.map_congr_left h).trans (List.map_id vs)

theorem sorted_elements {o : Option Value} (h : ∀ v, o = some v → Sorted v) :
    ∀ v ∈ elements o, Sorted v := by
  cases o with
  | none => exact List.forall_mem_nil _
  | some v =>
      cases v with
      | array vs => exact sorted_array.mp (h _ rfl)
      | _ => exact List.forall_mem_nil _

theorem sorted_addIfAbsent {vs : List Value} {v : Value} (h : ∀ e ∈ vs, Sorted e)
    (hv : Sorted v) : Sorted (.array (addIfAbsent vs v)) := by
  refine sorted_array.mpr fun e he => ?_
  unfold addIfAbsent at he
  split at he
  · exact h e he
  · rcases List.mem_append.mp he with he | he
    · exact h e he
    · exact List.mem_singleton.mp he ▸ hv

theorem SortedDoc.union {d : Option Doc} (h : SortedDoc d) {v : Value} (hv : Sorted v)
    (key : String) : SortedDoc (some (Doc.union (d.getD ∅) key v)) := by
  intro k u hu
  rw [Option.getD_some] at hu
  by_cases hk : k = key
  · subst hk
    rw [Doc.union_self] at hu
    exact Option.some.inj hu ▸ sorted_addIfAbsent (sorted_elements (h k)) hv
  · rw [Doc.union_of_ne _ hk] at hu
    exact h k u hu

/-- Tame writes keep the values sorted. -/
theorem Tame.onDoc {w : Write} (hw : Tame w) {d : Option Doc} (h : SortedDoc d) :
    SortedDoc (w.onDoc d) := by
  cases w with
  | setMerge p key v =>
      intro k u hu
      have hinsert : ((d.getD ∅).insert key v)[k]? = some u := hu
      rw [Std.ExtTreeMap.getElem?_insert] at hinsert
      split at hinsert
      · exact Option.some.inj hinsert ▸ hw.1
      · exact h k u hinsert
  | unionMerge p key v => exact h.union hw key
  | unionUpdate p key v =>
      cases d with
      | none => exact h
      | some d => exact h.union hw.1 key
  | delete p =>
      intro k u hu
      cases hu

/-- Among sorted values equality is not lost. -/
theorem Tame.fits {w : Write} (hw : Tame w) {d : Option Doc} (h : SortedDoc d) : Fits w d := by
  have hseparate : ∀ (k : String) v, Sorted v → Separate (d.getD ∅)[k]? v := by
    intro k v hv e he heq
    rw [← hv, ← heq]
    exact (sorted_elements (h k) e he).symm
  cases w with
  | setMerge p key v => exact hw.2
  | unionMerge p key v => exact hseparate key v hw
  | unionUpdate p key v => exact ⟨hw.2, hseparate key v hw.1⟩
  | delete p => trivial

/-- The same fields. -/
def Same (c : Option Dict) (d : Option Doc) : Prop :=
  c.isSome = d.isSome ∧ ∀ k, (c.getD []).lookup k = (d.getD ∅)[k]?

theorem same_of_shows {c : Option Dict} {d : Option Doc} (h : Shows c d) (hd : SortedDoc d) :
    Same c d := by
  refine ⟨h.1, fun k => ?_⟩
  rw [h.2]
  cases hk : (d.getD ∅)[k]? with
  | none => rfl
  | some v => exact congrArg some (hd k v hk)

/-! ## Contents and stores -/

/-- The documents show those of the store, whose values are sorted. -/
structure Mirrors (c : DocumentKey → Option Dict) (store : Store) : Prop where
  shows : ∀ p, Shows (c (keyOf p)) (store.get? p)
  sorted : ∀ p, SortedDoc (store.get? p)

theorem mirrors_empty : Mirrors (fun _ => none) fun _ => ∅ where
  shows p := ⟨rfl, fun k => rfl⟩
  sorted p k v h := by cases h

/-- One call, carried out by the client and in the store. -/
theorem Mirrors.call {c c' : DocumentKey → Option Dict} {store : Store} (h : Mirrors c store)
    {w : Write} {ms : List Mutation} (hw : Tame w) (hcall : call w = .ok ms)
    (hself : c' (keyOf w.path) = effectOf ms (keyOf w.path) (c (keyOf w.path)))
    (hother : ∀ p, p ≠ w.path → c' (keyOf p) = c (keyOf p)) : Mirrors c' (store.apply w) := by
  have hsorted := h.sorted w.path
  obtain ⟨-, hshows⟩ := call_refines hcall (hw.fits hsorted) (h.shows w.path)
  constructor
  · intro p
    by_cases hp : p = w.path
    · subst hp
      rw [Store.get?_apply_self, hself]
      exact hshows
    · rw [Store.get?_apply_of_ne _ hp, hother p hp]
      exact h.shows p
  · intro p
    by_cases hp : p = w.path
    · subst hp
      rw [Store.get?_apply_self]
      exact hw.onDoc hsorted
    · rw [Store.get?_apply_of_ne _ hp]
      exact h.sorted p

theorem regular_of_call {w : Write} {ms : List Mutation} (hw : Tame w) (hcall : call w = .ok ms) :
    Regular (keyOf w.path) ms :=
  (call_refines hcall (hw.fits (mirrors_empty.sorted w.path)) (mirrors_empty.shows w.path)).1

/-- The pending batches are those of the writes. -/
def CallsOf (ws : List Write) (batches : List MutationBatch) : Prop :=
  List.Forall₂ (fun w b => call w = .ok b.mutations) ws batches

theorem Mirrors.pending {c : DocumentKey → Option Dict} {store : Store} (h : Mirrors c store)
    {ws : List Write} {batches : List MutationBatch} (hws : ∀ w ∈ ws, Tame w)
    (hcalls : CallsOf ws batches) :
    Mirrors (fun key => pending batches key (c key)) (store.applyAll ws) := by
  induction hcalls generalizing c store with
  | nil => exact h
  | @cons w b ws batches hcall _ ih =>
      have hw := hws w List.mem_cons_self
      have hregular := regular_of_call hw hcall
      have hfirst : Mirrors (fun key => effectOf b.mutations key (c key)) (store.apply w) :=
        h.call hw hcall rfl fun p hp => hregular.effectOf_of_ne (keyOf_injective.ne (Ne.symm hp)) _
      exact ih hfirst fun w hw => hws w (List.mem_cons_of_mem _ hw)

/-! ## Moves -/

/-- The writes that the backend has not rejected; those without a status are
pending. -/
def surviving : List Write → List Code → List Write
  | w :: ws, c :: cs => if c = .ok then w :: surviving ws cs else surviving ws cs
  | ws, _ => ws

theorem surviving_nil (ws : List Write) : surviving ws [] = ws := by
  cases ws <;> rfl

theorem surviving_append {done : List Write} {cs cs' : List Code} (h : done.length = cs.length)
    (ws : List Write) : surviving (done ++ ws) (cs ++ cs') = surviving done cs ++ surviving ws cs' := by
  induction done generalizing cs with
  | nil =>
      obtain rfl := List.length_eq_zero_iff.mp h.symm
      rfl
  | cons w done ih =>
      cases cs with
      | nil => cases h
      | cons c cs =>
          have hrest := ih (Nat.succ.inj h)
          by_cases hc : c = .ok
          · simp [surviving, hc, hrest]
          · simp [surviving, hc, hrest]

namespace SyncEngine

variable {s t : SyncEngine} {o : Desk} {ws : List Write}

/-- Nobody else writes: what the backend acknowledges is new to the cache, or has
changed nothing, and what it sends is cached already. -/
def Calm (s : SyncEngine) : Move → Prop
  | .acknowledge response => ∀ b, s.queue.head? = some b →
      ∀ v, response.results.getLast?.map MutationResult.version = some v → ∀ key ∈ b.keys,
        (s.localStore.get key).all (fun d => decide (d.version < v)) = true
          ∨ effectOf b.mutations key (content (s.localStore.get key)) =
            content (s.localStore.get key)
  | .receive _ updates => ∀ u ∈ updates, content u.2 = content (s.localStore.get u.1)
  | _ => True

def Alone (s : SyncEngine) (e : Event) : Prop := s.Enabled e ∧ s.Calm (s.moveOf e)

/-- The cache shows what the answered writes have made, as far as they were
accepted; the others are in the queue. -/
def Reflects (s : SyncEngine) (ws : List Write) : Prop :=
  ∃ done rest, ws = done ++ rest ∧ done.length = (answers s.notices).length
    ∧ CallsOf rest s.queue
    ∧ Mirrors (fun key => content (s.localStore.get key))
        (Store.applyAll (fun _ => ∅) (surviving done ((answers s.notices).map Prod.snd)))

/-- One more answer. -/
theorem Tracks.answers_answered (h : s.Tracks o) {b : MutationBatch} {rest : List MutationBatch}
    (hqueue : s.queue = b :: rest) (status : Code) (ls : LocalStore) :
    ∃ callback, answers (s.answered b status ls).notices =
      answers s.notices ++ [(callback, status)] := by
  obtain ⟨e, -, -, hcallback, hwaiters, -⟩ := h.first hqueue
  obtain ⟨waiting, hnotify, -, -⟩ := notify_eq hcallback hwaiters status
  refine ⟨e.ticket, ?_⟩
  rw [answered, hnotify]
  simp [answers]

/-- The first write has been answered, and the cache is as the answer says. -/
theorem Reflects.answered (h : s.Reflects ws) (ho : s.Tracks o) {b : MutationBatch}
    {q : List MutationBatch} (hq : s.queue = b :: q) {ls : LocalStore}
    (htail : ls.mutationQueue.queue = q) (status : Code)
    (hcache : ∀ w ∈ ws, call w = .ok b.mutations → ∀ store,
      Mirrors (fun key => content (s.localStore.get key)) store →
      Mirrors (fun key => content (ls.get key)) (store.applyAll (surviving [w] [status]))) :
    (s.answered b status ls).Reflects ws := by
  obtain ⟨done, rest, rfl, hlength, hcalls, hmirrors⟩ := h
  obtain ⟨callback, hanswers⟩ := ho.answers_answered hq status ls
  rw [hq] at hcalls
  cases hcalls with
  | @cons w _ rest _ hcall hcalls =>
      have hw : w ∈ done ++ w :: rest := List.mem_append_right _ List.mem_cons_self
      refine ⟨done ++ [w], rest, by simp, ?_, ?_, ?_⟩
      · rw [hanswers, List.length_append, List.length_append, hlength]
        rfl
      · show CallsOf rest ls.mutationQueue.queue
        rw [htail]
        exact hcalls
      · have hsurviving : surviving (done ++ [w]) ((answers s.notices ++ [(callback, status)]).map
            Prod.snd) = surviving done ((answers s.notices).map Prod.snd)
              ++ surviving [w] [status] := by
          rw [List.map_append, surviving_append (by rw [List.length_map, hlength])]
          rfl
        rw [hanswers, hsurviving, Store.applyAll, List.foldl_append]
        exact hcache w hw hcall _ hmirrors

/-- An acknowledged write is in the cache. -/
theorem Reflects.acknowledge (h : s.Reflects ws) (hs : s.localStore.Inv) (ho : s.Tracks o)
    (htame : ∀ w ∈ ws, Tame w) {response : WriteResponse} (hfits : s.Fits (.acknowledge response))
    (hcalm : s.Calm (.acknowledge response)) (hmove : s.move (.acknowledge response) = some t) :
    t.Reflects ws := by
  obtain ⟨b, q, k, v, ls, hq, hk, hv, rfl, htail, hother, hsettles⟩ :=
    move_acknowledge hs hfits hmove
  refine h.answered ho hq htail .ok fun w hw hcall store hmirrors => ?_
  have hkey : keyOf w.path ∈ b.keys := (regular_of_call (htame w hw) hcall).mem_keys.mpr rfl
  obtain rfl := hk.mem_keys.mp hkey
  refine hmirrors.call (htame w hw) hcall ?_ fun p hp =>
    congrArg content (hother _ (keyOf_injective.ne hp))
  unfold LocalStore.Settles at hsettles
  split at hsettles
  · obtain ⟨d, hd, hdata, -, -⟩ := hsettles
    rw [hd]
    exact hdata
  · rename_i hbehind
    rcases hcalm b (by rw [hq]; rfl) v hv _ hkey with hnew | hsame
    · exact absurd hnew hbehind
    · rw [hsettles, hsame]

/-- A rejected write is gone. -/
theorem Reflects.reject (h : s.Reflects ws) (hs : s.localStore.Inv) (ho : s.Tracks o)
    {status : Code} (hst : status ≠ .ok) (hfits : s.Fits (.reject status))
    (hmove : s.move (.reject status) = some t) : t.Reflects ws := by
  obtain ⟨b, q, ls, hq, rfl, htail, hget⟩ := move_reject hs hfits hmove
  refine h.answered ho hq htail status fun w hw hcall store hmirrors => ?_
  have hgone : surviving [w] [status] = [] := by simp [surviving, hst]
  simp only [hgone, hget]
  exact hmirrors

/-- A write is pending at first. -/
theorem Reflects.write (h : s.Reflects ws) {w : Write} {ms : List Mutation}
    (hcall : call w = .ok ms) {ls : LocalStore} {id : Int}
    (hqueue : ls.mutationQueue.queue = s.queue ++ [⟨id, ms⟩])
    (hcache : ls.remoteDocumentCache = s.localStore.remoteDocumentCache)
    (callbacks : Std.ExtTreeMap Int Callback) :
    Reflects { s with localStore := ls, mutationCallbacks := callbacks } (ws ++ [w]) := by
  obtain ⟨done, rest, rfl, hlength, hcalls, hmirrors⟩ := h
  have hget : ∀ key, ls.get key = s.localStore.get key := by
    intro key
    unfold LocalStore.get
    rw [hcache]
  refine ⟨done, rest ++ [w], List.append_assoc _ _ _, hlength, ?_, ?_⟩
  · show CallsOf (rest ++ [w]) ls.mutationQueue.queue
    rw [hqueue]
    exact List.rel_append hcalls (.cons hcall .nil)
  · simp only [hget]
    exact hmirrors

theorem Reflects.wait (h : s.Reflects ws) (callback : Callback) :
    (s.registerPendingWritesCallback callback).Reflects ws := by
  obtain ⟨hlocal, -⟩ := registerPendingWritesCallback_eq s callback
  have hanswers : answers (s.registerPendingWritesCallback callback).notices =
      answers s.notices := by
    unfold registerPendingWritesCallback
    simp only
    split
    · simp [answers]
    · rfl
  unfold Reflects queue at h ⊢
  rw [hlocal, hanswers]
  exact h

/-- What is received has the content that is cached already. -/
theorem content_received {old : Option MaybeDocument} {doc : MaybeDocument}
    (h : content doc = content old) : content (LocalStore.received old doc) = content old := by
  unfold LocalStore.received
  split
  · exact h
  · split
    · exact h
    · rfl

theorem Reflects.receive (h : s.Reflects ws) (hs : s.localStore.Inv) {v : SnapshotVersion}
    {updates : List (DocumentKey × MaybeDocument)} (hfits : s.Fits (.receive v updates))
    (hcalm : s.Calm (.receive v updates)) (hmove : s.move (.receive v updates) = some t) :
    t.Reflects ws := by
  obtain ⟨changes, ls, happly, -, hqueue, -, hreceived, hother, -⟩ := hs.applyRemoteEvent hfits
  rw [SyncEngine.move, SyncEngine.applyRemoteEvent, happly] at hmove
  obtain rfl := Option.some.inj hmove
  have hget : ∀ key, content (ls.get key) = content (s.localStore.get key) := by
    intro key
    by_cases hkey : key ∈ updates.map Prod.fst
    · obtain ⟨u, hu, rfl⟩ := List.mem_map.mp hkey
      rw [hreceived u hu]
      exact content_received (hcalm u hu)
    · rw [hother key hkey]
  obtain ⟨done, rest, hws, hlength, hcalls, hmirrors⟩ := h
  refine ⟨done, rest, hws, hlength, ?_, ?_⟩
  · show CallsOf rest ls.mutationQueue.queue
    rw [hqueue]
    exact hcalls
  · simp only [hget]
    exact hmirrors

/-- `ok` is no error. -/
theorem ne_ok_of_moveOf {e : Event} {status : Code} (h : s.moveOf e = .reject status) :
    status ≠ .ok := by
  cases e with
  | streamFinish status' =>
      rw [moveOf] at h
      split at h
      · rename_i hfaulty
        injection h with h
        subst h
        rintro rfl
        simp [faulty, Datastore.isPermanentWriteError, Datastore.isPermanentError] at hfaulty
      · cases h
  | streamRead response =>
      rcases moveOf_streamRead s response with hm | hm <;> rw [hm] at h <;> cases h
  | _ => cases h

/-- One step, with the write that it may be. -/
theorem Reflects.step (h : s.Reflects ws) (hs : s.Inv) (ho : s.Tracks o)
    (htame : ∀ w ∈ ws, Tame w) {e : Event} (he : s.Alone e) (hstep : s.step e = some t)
    {new : List Write} (hnew : List.Forall₂ (fun w m => call w = .ok m.1) new (writes [e])) :
    t.Reflects (ws ++ new) := by
  obtain ⟨hinv, hfits, u, r, hmove, rfl⟩ := hs.step_eq he.1 hstep
  have hcalm := he.2
  have hstatus : ∀ status, s.moveOf e = .reject status → status ≠ .ok :=
    fun _ hm => ne_ok_of_moveOf hm
  rw [← submitted_opsOf s e] at hnew
  suffices hu : u.Reflects (ws ++ new) from hu
  generalize s.moveOf e = m at hfits hmove hcalm hstatus hnew
  cases m with
  | write ms callback =>
      cases hnew with
      | cons hcall hnil =>
          cases hnil
          obtain ⟨k, hk⟩ := hfits
          obtain ⟨changes, ls, hwrite, -, hqueue, -, hcache, -, -⟩ := hs.localStore.writeLocally hk
          rw [SyncEngine.move, hwrite] at hmove
          obtain rfl := Option.some.inj hmove
          exact h.write hcall hqueue hcache _
  | stay =>
      cases hnew
      obtain rfl := Option.some.inj hmove
      rwa [List.append_nil]
  | wait callback =>
      cases hnew
      obtain rfl := Option.some.inj hmove
      rw [List.append_nil]
      exact h.wait callback
  | acknowledge response =>
      cases hnew
      rw [List.append_nil]
      exact h.acknowledge hs.localStore ho htame hfits hcalm hmove
  | reject status =>
      cases hnew
      rw [List.append_nil]
      exact h.reject hs.localStore ho (hstatus status rfl) hfits hmove
  | receive v updates =>
      cases hnew
      rw [List.append_nil]
      exact h.receive hs.localStore hfits hcalm hmove

/-! ## Runs -/

theorem reflects_initial : SyncEngine.initial.Reflects [] := by
  refine ⟨[], [], rfl, rfl, .nil, ?_⟩
  have hnone : ∀ key, SyncEngine.initial.localStore.get key = none := by
    intro key
    show Option.map _ (∅ : RemoteDocumentCache)[key]? = none
    rw [Std.ExtTreeMap.getElem?_empty]
    rfl
  simp only [hnone]
  exact mirrors_empty

theorem reflects_of_trace {es : List Event} (h : system.Trace Alone .initial es s)
    (hcalls : List.Forall₂ (fun w m => call w = .ok m.1) ws (writes es))
    (htame : ∀ w ∈ ws, Tame w) : s.Inv ∧ (∃ o, s.Tracks o) ∧ s.Reflects ws := by
  induction h generalizing ws with
  | nil =>
      cases hcalls
      exact ⟨inv_initial, ⟨_, tracks_initial⟩, reflects_initial⟩
  | @snoc es t u e _ he hstep ih =>
      have hsplit : writes (es ++ [e]) = writes es ++ writes [e] := List.filterMap_append
      rw [hsplit] at hcalls
      have hbefore := List.forall₂_take_append _ _ _ hcalls
      have hnew := List.forall₂_drop_append _ _ _ hcalls
      have hold : ∀ w ∈ ws.take (writes es).length, Tame w :=
        fun w hw => htame w (List.mem_of_mem_take hw)
      obtain ⟨ht, ⟨o, ho⟩, hreflects⟩ := ih hbefore hold
      obtain ⟨hu, hfits, v, r, hmove, rfl⟩ := ht.step_eq he.1 hstep
      have hv := ho.move ht.localStore hfits hmove
      have hnext := hreflects.step ht ho hold he hstep hnew
      rw [List.take_append_drop] at hnext
      exact ⟨hu, ⟨_, hv.rows, hv.callbacks, hv.waiting, hv.notices⟩, hnext⟩

/-- A document reads as all writes so far make it, except those that the backend
has rejected. -/
theorem read_your_writes {es : List Event} (h : system.Trace Alone .initial es s)
    (hcalls : List.Forall₂ (fun w m => call w = .ok m.1) ws (writes es))
    (htame : ∀ w ∈ ws, Tame w) (p : DocPath) :
    ∃ doc, s.localStore.getDocument (keyOf p) = some doc
      ∧ Same (content doc) ((Store.applyAll (fun _ => ∅)
          (surviving ws ((answers s.notices).map Prod.snd))).get? p) := by
  obtain ⟨hs, -, done, rest, rfl, hlength, hpending, hmirrors⟩ := reflects_of_trace h hcalls htame
  obtain ⟨doc, hdoc, hview⟩ := hs.localStore.getDocument (keyOf p)
  have hall := hmirrors.pending (fun w hw => htame w (List.mem_append_right _ hw)) hpending
  have hlength' : done.length = ((answers s.notices).map Prod.snd).length := by
    rw [hlength, List.length_map]
  have hsurviving : surviving (done ++ rest) ((answers s.notices).map Prod.snd ++ []) =
      surviving done ((answers s.notices).map Prod.snd) ++ surviving rest [] :=
    surviving_append hlength' rest
  rw [List.append_nil, surviving_nil] at hsurviving
  refine ⟨doc, hdoc, ?_⟩
  rw [hview, hsurviving, Store.applyAll, List.foldl_append]
  exact same_of_shows (hall.shows p) (hall.sorted p)

theorem read_your_writes_rejected : ∃ (s : SyncEngine) (doc : Option MaybeDocument),
    s.notices = [.mutation 7 .permissionDenied]
    ∧ s.localStore.getDocument (keyOf ⟨"Class", "home"⟩) = some doc
    ∧ ((content doc).getD []).lookup "title" = none
    ∧ ((content doc).getD []).lookup "room" = some (.string "12") := by
  obtain ⟨doc, hdoc, -, hsame⟩ := read_your_writes
    (show system.Trace Alone .initial [
        .writeMutations [.patch (keyOf ⟨"Class", "home"⟩) [("title", .string "Math")] [["title"]]
          .none] 7,
        .writeMutations [.patch (keyOf ⟨"Class", "home"⟩) [("room", .string "12")] [["room"]]
          .none] 8,
        .enableNetwork, .token 0 .ok, .streamRead ⟨1, []⟩, .streamFinish .permissionDenied] _ from
      .snoc (.snoc (.snoc (.snoc (.snoc (.snoc .nil
        ⟨⟨_, .patch _ _ (Or.inl rfl)⟩, trivial⟩ rfl)
        ⟨⟨_, .patch _ _ (Or.inl rfl)⟩, trivial⟩ rfl)
        ⟨trivial, trivial⟩ rfl)
        ⟨trivial, trivial⟩ rfl)
        ⟨⟨_, rfl, _, rfl, fun _ hms => by cases hms⟩, trivial⟩ rfl)
        ⟨by rfl, by exact trivial⟩ rfl)
    (show List.Forall₂ _ [.setMerge ⟨"Class", "home"⟩ "title" (.string "Math"),
      .setMerge ⟨"Class", "home"⟩ "room" (.string "12")] _ from .cons rfl (.cons rfl .nil))
    (List.forall_mem_cons.mpr ⟨⟨rfl, fun _ h => by cases h⟩,
      List.forall_mem_singleton.mpr ⟨rfl, fun _ h => by cases h⟩⟩) ⟨"Class", "home"⟩
  exact ⟨_, doc, rfl, hdoc, hsame "title", hsame "room"⟩

end SyncEngine

end GradeIo.Firestore
