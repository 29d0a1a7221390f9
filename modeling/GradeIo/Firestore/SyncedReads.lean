import GradeIo.Firestore.ReadYourWrites

/-!
# Documents without pending writes

A reader is told whether a document has pending writes. If it has none, and the
events tell the truth about the backend (`Event.Truthful`), the reader sees what
the backend had at the version of the document (`synced_read`): no write of the
client shows, pending or acknowledged, until the backend has sent its result.
Two such reads never go back to an older version (`monotonic_reads`).

Other clients may write at any time; what the backend had at which version is the
parameter `history`.
-/

namespace GradeIo.Firestore

open Transition

/-- A document of an event is what the backend had at its version. -/
def Event.Truthful (history : DocumentKey → SnapshotVersion → Option DocDb.Dict) : Event → Prop
  | .remoteEvent _ updates => ∀ u ∈ updates, u.2.version ≠ 0 → u.2.data? = history u.1 u.2.version
  | _ => True

/-- No access is lost. -/
def Event.Keeps : Event → Prop
  | .remoteEvent _ updates => ∀ u ∈ updates, u.2.version ≠ 0
  | _ => True

/-! ## Pending writes show -/

/-- Where a mutation has been applied, there are pending writes, or a deletion
without a version. -/
theorem applyToLocalView_of_synced {m : Mutation} {doc base : Option MaybeDocument}
    {d : MaybeDocument} (h : m.applyToLocalView doc base = some d)
    (hsynced : d.hasPendingWrites = false) (hversion : d.version ≠ 0) : doc = some d := by
  unfold Mutation.applyToLocalView at h
  split at h
  · cases m with
    | set key value p =>
        obtain rfl := Option.some.inj h
        cases hsynced
    | patch key value mask p =>
        obtain rfl := Option.some.inj h
        cases hsynced
    | delete key p =>
        obtain rfl := Option.some.inj h
        exact absurd rfl hversion
    | transform key ts =>
        simp only at h
        split at h
        · obtain rfl := Option.some.inj h
          cases hsynced
        · exact h
  · exact h

theorem applyToLocalDocument_of_synced {b : MutationBatch} {key : DocumentKey}
    {doc : Option MaybeDocument} {d : MaybeDocument} (h : b.applyToLocalDocument key doc = some d)
    (hsynced : d.hasPendingWrites = false) (hversion : d.version ≠ 0) : doc = some d := by
  unfold MutationBatch.applyToLocalDocument at h
  -- the base document stays the same while the mutations are applied
  generalize hbase : doc = base at h
  have hfold : ∀ (ms : List Mutation) (before : Option MaybeDocument),
      ms.foldl (fun doc m => if m.key = key then m.applyToLocalView doc base else doc) before =
        some d → before = some d := by
    intro ms
    induction ms with
    | nil => exact fun _ h => h
    | cons m ms ih =>
        intro before h
        have hfirst : (if m.key = key then m.applyToLocalView before base else before) = some d :=
          ih _ h
        split at hfirst
        · exact applyToLocalView_of_synced hfirst hsynced hversion
        · exact hfirst
  exact hfold b.mutations base h

namespace LocalStore

theorem applyAll_of_synced {batches : List MutationBatch} {key : DocumentKey}
    {doc : Option MaybeDocument} {d : MaybeDocument} (h : applyAll batches key doc = some d)
    (hsynced : d.hasPendingWrites = false) (hversion : d.version ≠ 0) : doc = some d := by
  unfold applyAll at h
  induction batches generalizing doc with
  | nil => exact h
  | cons b batches ih => exact applyToLocalDocument_of_synced (ih h) hsynced hversion

variable {s : LocalStore}

/-- What is read without pending writes is the cached document. -/
theorem Inv.get_of_synced (h : s.Inv) {key : DocumentKey} {d : MaybeDocument}
    (hread : s.getDocument key = some (some d)) (hsynced : d.hasPendingWrites = false)
    (hversion : d.version ≠ 0) : s.get key = some d := by
  rw [LocalStore.getDocument, h.queue.affectingDocumentKey] at hread
  exact applyAll_of_synced (Option.some.inj hread) hsynced hversion

/-- A cached document is the backend's, unless it has pending writes. -/
def Honest (history : DocumentKey → SnapshotVersion → Option DocDb.Dict) (s : LocalStore) : Prop :=
  ∀ key d, s.get key = some d → d.hasPendingWrites = false → d.version ≠ 0 →
    d.data? = history key d.version

/-- `0` where nothing is cached. -/
def cachedVersion (s : LocalStore) (key : DocumentKey) : SnapshotVersion :=
  (s.get key).elim 0 MaybeDocument.version

theorem received_eq_some {old : Option MaybeDocument} {doc d : MaybeDocument}
    (h : received old doc = some d) : d = doc ∨ old = some d := by
  unfold received at h
  split at h
  · cases h
  · split at h
    · exact Or.inl (Option.some.inj h).symm
    · exact Or.inr h

/-- An older document does not replace a newer one. -/
theorem version_le_received {old : Option MaybeDocument} {doc : MaybeDocument}
    (h : doc.version ≠ 0) :
    old.elim 0 MaybeDocument.version ≤ (received old doc).elim 0 MaybeDocument.version := by
  unfold received
  split
  · exact absurd rfl h
  · split
    · rename_i hreplaces
      cases old with
      | none => exact Nat.zero_le _
      | some e =>
          have hnew : replaces doc e = true := hreplaces
          unfold replaces at hnew
          simp only [Bool.or_eq_true, Bool.and_eq_true, decide_eq_true_eq] at hnew
          show e.version ≤ doc.version
          rcases hnew with hlt | ⟨heq, -⟩
          · exact Nat.le_of_lt hlt
          · exact Nat.le_of_eq heq.symm
    · exact Nat.le_refl _

end LocalStore

namespace SyncEngine

variable {s t : SyncEngine} {history : DocumentKey → SnapshotVersion → Option DocDb.Dict}

theorem eq_of_moveOf_receive {e : Event} {v : SnapshotVersion}
    {updates : List (DocumentKey × MaybeDocument)} (h : s.moveOf e = .receive v updates) :
    e = .remoteEvent v updates := by
  cases e with
  | remoteEvent v' updates' =>
      injection h with hv hu
      rw [hv, hu]
  | streamRead response =>
      rcases moveOf_streamRead s response with hm | hm <;> rw [hm] at h <;> cases h
  | streamFinish status =>
      rcases moveOf_streamFinish s status with hm | hm <;> rw [hm] at h <;> cases h
  | _ => cases h

/-- What a step makes of a cached document: nothing, a newer one with pending
writes, or what is received. -/
theorem Inv.cached_cases (h : s.Inv) {e : Event} (he : s.Enabled e) (hstep : s.step e = some t)
    (key : DocumentKey) :
    t.localStore.get key = s.localStore.get key
      ∨ (∃ d, t.localStore.get key = some d ∧ d.hasPendingWrites = true
        ∧ s.localStore.cachedVersion key ≤ d.version)
      ∨ ∃ v updates u, e = .remoteEvent v updates ∧ u ∈ updates ∧ u.1 = key
        ∧ t.localStore.get key = LocalStore.received (s.localStore.get key) u.2 := by
  obtain ⟨-, hfits, u, r, hmove, rfl⟩ := h.step_eq he hstep
  show u.localStore.get key = _ ∨ (∃ d, u.localStore.get key = some d ∧ _) ∨
    ∃ v updates w, e = .remoteEvent v updates ∧ w ∈ updates ∧ w.1 = key
      ∧ u.localStore.get key = LocalStore.received (s.localStore.get key) w.2
  generalize hm : s.moveOf e = m at hfits hmove
  have hcache : ∀ {ls : LocalStore}, ls.remoteDocumentCache = s.localStore.remoteDocumentCache →
      ls.get key = s.localStore.get key := by
    intro ls hls
    unfold LocalStore.get
    rw [hls]
  cases m with
  | stay =>
      obtain rfl := Option.some.inj hmove
      exact Or.inl rfl
  | write ms callback =>
      obtain ⟨k, hk⟩ := hfits
      obtain ⟨changes, ls, hwrite, -, -, -, hsame, -, -⟩ := h.localStore.writeLocally hk
      rw [SyncEngine.move, hwrite] at hmove
      obtain rfl := Option.some.inj hmove
      exact Or.inl (hcache hsame)
  | wait callback =>
      obtain rfl := Option.some.inj hmove
      exact Or.inl (congrArg (LocalStore.get · key) (registerPendingWritesCallback_eq s callback).1)
  | acknowledge response =>
      obtain ⟨b, q, k, v, ls, -, -, -, rfl, -, hother, hsettles⟩ :=
        move_acknowledge h.localStore hfits hmove
      by_cases hkey : key = k
      · subst hkey
        unfold LocalStore.Settles at hsettles
        split at hsettles
        · rename_i hbehind
          obtain ⟨d, hd, -, hversion, hpending⟩ := hsettles
          refine Or.inr (Or.inl ⟨d, hd, hpending, ?_⟩)
          unfold LocalStore.cachedVersion
          cases hget : s.localStore.get key with
          | none => exact Nat.zero_le _
          | some e =>
              rw [hget] at hbehind
              have hlt : e.version < v := of_decide_eq_true hbehind
              show e.version ≤ d.version
              rw [hversion]
              exact Nat.le_of_lt hlt
        · exact Or.inl hsettles
      · exact Or.inl (hother key hkey)
  | reject status =>
      obtain ⟨b, q, ls, -, rfl, -, hget⟩ := move_reject h.localStore hfits hmove
      exact Or.inl (hget key)
  | receive v updates =>
      obtain ⟨changes, ls, happly, -, -, -, hreceived, hother, -⟩ :=
        h.localStore.applyRemoteEvent hfits
      rw [SyncEngine.move, SyncEngine.applyRemoteEvent, happly] at hmove
      obtain rfl := Option.some.inj hmove
      by_cases hkey : key ∈ updates.map Prod.fst
      · obtain ⟨w, hw, rfl⟩ := List.mem_map.mp hkey
        exact Or.inr (Or.inr ⟨v, updates, w, eq_of_moveOf_receive hm, hw, rfl, hreceived w hw⟩)
      · exact Or.inl (hother key hkey)

/-! ## Runs -/

/-- The backend tells the truth. -/
def Served (history : DocumentKey → SnapshotVersion → Option DocDb.Dict) (s : SyncEngine)
    (e : Event) : Prop := s.Enabled e ∧ e.Truthful history

theorem inv_of_served (h : system.Run (Served history) s) : s.Inv :=
  inv_of_run (h.weaken fun _ _ he => he.1)

/-- The cache stays the backend's. -/
theorem honest_of_served (h : system.Run (Served history) s) : s.localStore.Honest history := by
  induction h with
  | init hinit =>
      obtain rfl := hinit
      intro key d hd
      have hnone : (∅ : RemoteDocumentCache)[key]?.map Prod.fst = some d := hd
      rw [Std.ExtTreeMap.getElem?_empty] at hnone
      cases hnone
  | @step s t e hrun he hstep ih =>
      intro key d hd hsynced hversion
      rcases (inv_of_served hrun).cached_cases he.1 hstep key with
        hsame | ⟨d', hd', hpending, -⟩ | ⟨v, updates, u, rfl, hu, rfl, hreceived⟩
      · exact ih key d (hsame ▸ hd) hsynced hversion
      · obtain rfl := Option.some.inj (hd.symm.trans hd')
        rw [hpending] at hsynced
        cases hsynced
      · rcases LocalStore.received_eq_some (hreceived.symm.trans hd) with rfl | hold
        · exact he.2 u hu hversion
        · exact ih u.1 d hold hsynced hversion

/-- What is read without pending writes is what the backend had at that version,
whatever the client itself has written meanwhile. -/
theorem synced_read (h : system.Run (Served history) s) {key : DocumentKey} {d : MaybeDocument}
    (hread : s.localStore.getDocument key = some (some d)) (hsynced : d.hasPendingWrites = false)
    (hversion : d.version ≠ 0) : d.data? = history key d.version :=
  honest_of_served h key d ((inv_of_served h).localStore.get_of_synced hread hsynced hversion)
    hsynced hversion

/-- A backend that counts the versions of every document. -/
def counting (_ : DocumentKey) (v : SnapshotVersion) : Option DocDb.Dict :=
  some [("n", .number v)]

def counted (v : SnapshotVersion) : MaybeDocument := .document [("n", .number v)] v .synced

/-- The client that has received one document of it. -/
def showing (v : SnapshotVersion) : SyncEngine :=
  { initial with
    localStore := ⟨.initial, (∅ : RemoteDocumentCache).insert ["Class", "home"] (counted v, v), v⟩ }

theorem served_counted {s : SyncEngine} {v : SnapshotVersion} (hv : v ≠ 0)
    (hle : s.localStore.lastRemoteSnapshotVersion ≤ v) :
    s.Served counting (.remoteEvent v [(["Class", "home"], counted v)]) :=
  ⟨⟨List.nodup_singleton _, Or.inr ⟨hv, hle⟩⟩, List.forall_mem_singleton.mpr fun _ => rfl⟩

theorem run_showing : system.Run (Served counting) (showing 3) :=
  .step (.init rfl) (served_counted (v := 3) (by decide) (by decide)) rfl

/-- For the runs that follow: the shown document is written, the write is sent
and acknowledged, and the document comes back. -/
theorem exists_written : ∃ s t u : SyncEngine,
    system.Trace (fun s e => s.Served counting e ∧ e.Keeps) (showing 3) [.writeMutations
        [.patch ["Class", "home"] [("n", .number 6)] [["n"]] (.exists true)] 7] s
    ∧ system.Trace (fun s e => s.Served counting e ∧ e.Keeps) s
        [.enableNetwork, .token 0 .ok, .streamRead ⟨1, []⟩, .streamRead ⟨6, [⟨6, none⟩]⟩] t
    ∧ system.Trace (fun s e => s.Served counting e ∧ e.Keeps) t
        [.remoteEvent 6 [(["Class", "home"], counted 6)]] u
    ∧ s.localStore.getDocument ["Class", "home"] =
        some (some (.document [("n", .number 6)] 3 .localMutations))
    ∧ t.localStore.getDocument ["Class", "home"] =
        some (some (.document [("n", .number 6)] 6 .committedMutations))
    ∧ u.localStore.getDocument ["Class", "home"] = some (some (counted 6)) := by
  have hshake : ∀ ms, WriteRequest.handshake = .mutations ms →
      List.Forall₂ Mutation.Answers ms (WriteResponse.mk 1 []).results :=
    fun _ hms => by cases hms
  have hanswer : ∀ ms, WriteRequest.mutations [.patch ["Class", "home"] [("n", .number 6)] [["n"]]
      (.exists true)] = .mutations ms →
      List.Forall₂ Mutation.Answers ms (WriteResponse.mk 6 [⟨6, none⟩]).results := by
    intro ms hms
    cases hms
    exact .cons rfl .nil
  exact ⟨_, _, _, .single ⟨⟨⟨_, .patch _ _ (Or.inr rfl)⟩, trivial⟩, trivial⟩ rfl,
    .snoc (.snoc (.snoc (.snoc .nil ⟨⟨trivial, trivial⟩, trivial⟩ rfl)
      ⟨⟨trivial, trivial⟩, trivial⟩ rfl) ⟨⟨⟨_, rfl, _, rfl, hshake⟩, trivial⟩, trivial⟩ rfl)
      ⟨⟨⟨_, rfl, _, rfl, hanswer⟩, trivial⟩, trivial⟩ rfl,
    .single ⟨served_counted (v := 6) (by decide) (by decide),
      List.forall_mem_singleton.mpr (show (counted 6).version ≠ 0 by decide)⟩ rfl, rfl, rfl, rfl⟩

theorem synced_read_written : ∃ s t u : SyncEngine,
    s.localStore.getDocument ["Class", "home"] =
        some (some (.document [("n", .number 6)] 3 .localMutations))
      ∧ t.localStore.getDocument ["Class", "home"] =
          some (some (.document [("n", .number 6)] 6 .committedMutations))
      ∧ u.localStore.getDocument ["Class", "home"] = some (some (counted 6))
      ∧ (counted 3).data? = counting ["Class", "home"] 3
      ∧ (counted 6).data? = counting ["Class", "home"] 6 := by
  obtain ⟨s, t, u, hwrite, hsend, hback, hs, ht, hu⟩ := exists_written
  have htrace := ((hwrite.trans hsend).trans hback).weaken fun _ _ he => he.1
  have hread : (showing 3).localStore.getDocument ["Class", "home"] = some (some (counted 3)) := rfl
  exact ⟨s, t, u, hs, ht, hu,
    synced_read run_showing hread rfl (show (counted 3).version ≠ 0 by decide),
    synced_read (htrace.run run_showing) hu rfl (show (counted 6).version ≠ 0 by decide)⟩

theorem cachedVersion_le (hs : system.Run (Served history) s) {es : List Event}
    (h : system.Trace (fun s e => s.Served history e ∧ e.Keeps) s es t) (key : DocumentKey) :
    system.Run (Served history) t
      ∧ s.localStore.cachedVersion key ≤ t.localStore.cachedVersion key := by
  induction h with
  | nil => exact ⟨hs, Nat.le_refl _⟩
  | @snoc es t u e _ he hstep ih =>
      obtain ⟨ht, hle⟩ := ih
      refine ⟨.step ht he.1 hstep, hle.trans ?_⟩
      unfold LocalStore.cachedVersion
      rcases (inv_of_served ht).cached_cases he.1.1 hstep key with
        hsame | ⟨d, hd, -, hnewer⟩ | ⟨v, updates, w, rfl, hw, rfl, hreceived⟩
      · rw [hsame]
      · rw [hd]
        exact hnewer
      · rw [hreceived]
        exact LocalStore.version_le_received (he.2 w hw)

/-- A later read without pending writes is not older, and the same at the same
version. -/
theorem monotonic_reads (hs : system.Run (Served history) s) {es : List Event}
    (h : system.Trace (fun s e => s.Served history e ∧ e.Keeps) s es t) {key : DocumentKey}
    {d d' : MaybeDocument} (hread : s.localStore.getDocument key = some (some d))
    (hread' : t.localStore.getDocument key = some (some d')) (hsynced : d.hasPendingWrites = false)
    (hsynced' : d'.hasPendingWrites = false) (hversion : d.version ≠ 0) (hversion' : d'.version ≠ 0) :
    d.version ≤ d'.version ∧ (d'.version = d.version → d'.data? = d.data?) := by
  obtain ⟨ht, hle⟩ := cachedVersion_le hs h key
  have hget := (inv_of_served hs).localStore.get_of_synced hread hsynced hversion
  have hget' := (inv_of_served ht).localStore.get_of_synced hread' hsynced' hversion'
  unfold LocalStore.cachedVersion at hle
  rw [hget, hget'] at hle
  refine ⟨hle, fun heq => ?_⟩
  rw [honest_of_served hs key d hget hsynced hversion,
    honest_of_served ht key d' hget' hsynced' hversion', heq]

theorem monotonic_reads_written : ∃ u : SyncEngine,
    (showing 3).localStore.getDocument ["Class", "home"] = some (some (counted 3))
      ∧ u.localStore.getDocument ["Class", "home"] = some (some (counted 6))
      ∧ (counted 3).version ≤ (counted 6).version := by
  obtain ⟨s, t, u, hwrite, hsend, hback, -, -, hu⟩ := exists_written
  have hread : (showing 3).localStore.getDocument ["Class", "home"] = some (some (counted 3)) := rfl
  exact ⟨u, hread, hu, (monotonic_reads run_showing ((hwrite.trans hsend).trans hback) hread hu rfl
    rfl (show (counted 3).version ≠ 0 by decide) (show (counted 6).version ≠ 0 by decide)).1⟩

end SyncEngine

end GradeIo.Firestore
