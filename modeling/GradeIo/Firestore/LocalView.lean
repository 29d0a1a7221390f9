import GradeIo.Firestore.LocalStore

/-!
# What a reader sees

The view of a document is its cached content with the pending batches applied
to it (`LocalStore.view`). For each operation of the local store there is one
lemma that says that it does not fail, what is left in queue and cache, and what
becomes of the views: a write is applied on top of them, an acknowledgement
leaves them alone unless the cache is ahead of it, a rejection takes the batch
out, an event of the backend changes what lies below. What an operation reports
as changed are the new views.
-/

namespace GradeIo.Firestore

open DocDb

/-- The pending batches, in their order. -/
def pending (batches : List MutationBatch) (key : DocumentKey) (c : Option Dict) : Option Dict :=
  batches.foldl (fun c b => effectOf b.mutations key c) c

/-- Every batch is of one call. -/
def AllRegular (batches : List MutationBatch) : Prop := ∀ b ∈ batches, ∃ k, Regular k b.mutations

namespace LocalStore

structure Inv (s : LocalStore) : Prop where
  queue : s.mutationQueue.Inv
  regular : AllRegular s.mutationQueue.queue

def view (s : LocalStore) (key : DocumentKey) : Option Dict :=
  pending s.mutationQueue.queue key (content (s.get key))

theorem content_applyAll {batches : List MutationBatch} (h : AllRegular batches)
    (key : DocumentKey) (doc : Option MaybeDocument) :
    content (applyAll batches key doc) = pending batches key (content doc) := by
  unfold applyAll pending
  induction batches generalizing doc with
  | nil => rfl
  | cons b batches ih =>
      obtain ⟨k, hk⟩ := h b List.mem_cons_self
      rw [List.foldl_cons, List.foldl_cons, ih fun a ha => h a (List.mem_cons_of_mem _ ha)]
      exact congrArg (batches.foldl _) hk.content_local

/-- Batches that do not concern the document may be left out. -/
theorem pending_filter {batches : List MutationBatch} (h : AllRegular batches) {key : DocumentKey}
    {p : MutationBatch → Bool} (hp : ∀ b ∈ batches, key ∈ b.keys → p b = true) (c : Option Dict) :
    pending (batches.filter p) key c = pending batches key c := by
  unfold pending
  induction batches generalizing c with
  | nil => rfl
  | cons b batches ih =>
      have hrest := ih (fun a ha => h a (List.mem_cons_of_mem _ ha))
        fun a ha => hp a (List.mem_cons_of_mem _ ha)
      cases hpb : p b with
      | true =>
          rw [List.filter_cons_of_pos hpb, List.foldl_cons, List.foldl_cons]
          exact hrest _
      | false =>
          obtain ⟨k, hk⟩ := h b List.mem_cons_self
          have hne : k ≠ key := by
            rintro rfl
            obtain ⟨m, hm⟩ := List.exists_mem_of_ne_nil _ hk.ne_nil
            have hkey := hp b List.mem_cons_self (List.mem_map.mpr ⟨m, hm, hk.key_eq m hm⟩)
            rw [hpb] at hkey
            cases hkey
          rw [List.filter_cons_of_neg (by simp [hpb]), List.foldl_cons, hk.effectOf_of_ne hne]
          exact hrest c

theorem AllRegular.filter {batches : List MutationBatch} (h : AllRegular batches)
    (p : MutationBatch → Bool) : AllRegular (batches.filter p) :=
  fun b hb => h b (List.mem_of_mem_filter hb)

variable {s : LocalStore}

/-- What is read is the view. -/
theorem Inv.getDocument (h : s.Inv) (key : DocumentKey) :
    ∃ d, s.getDocument key = some d ∧ content d = s.view key := by
  refine ⟨_, by rw [LocalStore.getDocument, h.queue.affectingDocumentKey]; rfl, ?_⟩
  rw [content_applyAll (AllRegular.filter h.regular _)]
  exact pending_filter h.regular (fun b _ hb => by simpa using hb) _

/-- The same for several documents, on top of given ones. -/
theorem Inv.getLocalViewOfDocuments (h : s.Inv) (baseDocs : OptionalMaybeDocumentMap) :
    ∃ m, s.getLocalViewOfDocuments baseDocs = some m
      ∧ (∀ key, key ∈ m ↔ key ∈ baseDocs)
      ∧ ∀ key base, baseDocs[key]? = some base →
          content m[key]? = pending s.mutationQueue.queue key (content base) := by
  refine ⟨_, by rw [LocalStore.getLocalViewOfDocuments, h.queue.affectingDocumentKeys]; rfl, ?_, ?_⟩
  · intro key
    exact Std.ExtTreeMap.mem_map
  · intro key base hbase
    rw [Std.ExtTreeMap.getElem?_map, hbase, Option.map_some]
    have hmem : key ∈ baseDocs :=
      Std.ExtTreeMap.mem_iff_isSome_getElem?.mpr (by rw [hbase]; rfl)
    have hview := content_applyAll (AllRegular.filter h.regular
      fun b => decide (∃ key ∈ baseDocs.keys, key ∈ b.keys)) key base
    rw [pending_filter h.regular fun b _ hb => by simpa using ⟨key, hmem, hb⟩] at hview
    rw [← hview]
    cases applyAll _ key base <;> rfl

theorem getElem?_foldl_insert {α : Type} (f : DocumentKey → α) (l : List DocumentKey)
    (m : Std.ExtTreeMap DocumentKey α) (key : DocumentKey) :
    (l.foldl (fun m k => m.insert k (f k)) m)[key]? = if key ∈ l then some (f key) else m[key]? := by
  induction l generalizing m with
  | nil => rfl
  | cons k l ih =>
      rw [List.foldl_cons, ih, Std.ExtTreeMap.getElem?_insert]
      simp only [Std.LawfulEqCmp.compare_eq_iff_eq]
      grind

theorem Inv.getDocuments (h : s.Inv) (keys : DocumentKeySet) :
    ∃ m, s.getDocuments keys = some m ∧ (∀ key, key ∈ m ↔ key ∈ keys)
      ∧ ∀ key ∈ keys, content m[key]? = s.view key := by
  obtain ⟨m, hm, hmem, hsome⟩ :=
    h.getLocalViewOfDocuments (keys.toList.foldl (fun m k => m.insert k (s.get k)) ∅)
  refine ⟨m, hm, ?_, ?_⟩
  · intro key
    rw [hmem, Std.ExtTreeMap.mem_iff_isSome_getElem?, getElem?_foldl_insert,
      ← Std.ExtTreeSet.mem_toList]
    split <;> simp_all
  · intro key hkey
    refine hsome key (s.get key) ?_
    rw [getElem?_foldl_insert, if_pos (Std.ExtTreeSet.mem_toList.mpr hkey)]

/-! ## Writing -/

/-- A write is applied on top of every view, at once. -/
theorem Inv.writeLocally (h : s.Inv) {k : DocumentKey} {ms : List Mutation} (hms : Regular k ms) :
    ∃ changes s', s.writeLocally ms = some ((s.mutationQueue.nextBatchId, changes), s')
      ∧ s'.Inv ∧ s'.mutationQueue.queue =
          s.mutationQueue.queue ++ [⟨s.mutationQueue.nextBatchId, ms⟩]
      ∧ s'.mutationQueue.nextBatchId = s.mutationQueue.nextBatchId + 1
      ∧ s'.remoteDocumentCache = s.remoteDocumentCache
      ∧ s'.lastRemoteSnapshotVersion = s.lastRemoteSnapshotVersion
      ∧ ∀ key, s'.view key = effectOf ms key (s.view key) := by
  obtain ⟨m, hm, -, -⟩ := h.getDocuments (ms.foldl (fun ks m => ks.insert m.key) ∅)
  obtain ⟨q, hq, hqueue, hnext, hinv⟩ := h.queue.addMutationBatch hms.ne_nil
  have hwrite : s.writeLocally ms = some ((s.mutationQueue.nextBatchId,
      (MutationBatch.mk s.mutationQueue.nextBatchId ms).applyToLocalDocumentSet m),
      { s with mutationQueue := q }) := by
    unfold LocalStore.writeLocally
    simp only [hm, hq, Option.bind_eq_bind, Option.bind_some]
  refine ⟨_, _, hwrite, ⟨hinv, ?_⟩, hqueue, hnext, rfl, rfl, ?_⟩
  · intro b hb
    rw [hqueue] at hb
    rcases List.mem_append.mp hb with hb | hb
    · exact h.regular b hb
    · obtain rfl := List.mem_singleton.mp hb
      exact ⟨k, hms⟩
  · intro key
    unfold view pending
    rw [hqueue, List.foldl_append, List.foldl_cons, List.foldl_nil]
    rfl

end LocalStore

/-! ## The document of a call -/

section

variable {k : DocumentKey} {b : MutationBatch} {rs : List MutationResult}

theorem mem_keySet {key : DocumentKey} : key ∈ b.keySet ↔ key ∈ b.keys := by
  have hfold : ∀ (l : List DocumentKey) (ks : DocumentKeySet),
      key ∈ l.foldl (fun s k => s.insert k) ks ↔ key ∈ ks ∨ key ∈ l := by
    intro l
    induction l with
    | nil => simp
    | cons a l ih =>
        intro ks
        rw [List.foldl_cons, ih, Std.ExtTreeSet.mem_insert, Std.LawfulEqCmp.compare_eq_iff_eq,
          List.mem_cons]
        grind
  unfold MutationBatch.keySet
  rw [hfold]
  simp

theorem Regular.mem_keys (h : Regular k b.mutations) {key : DocumentKey} :
    key ∈ b.keys ↔ key = k := by
  unfold MutationBatch.keys
  rw [List.mem_map]
  constructor
  · rintro ⟨m, hm, rfl⟩
    exact h.key_eq m hm
  · rintro rfl
    obtain ⟨m, hm⟩ := List.exists_mem_of_ne_nil _ h.ne_nil
    exact ⟨m, hm, h.key_eq m hm⟩

theorem Regular.keySet_toList (h : Regular k b.mutations) : b.keySet.toList = [k] := by
  have hmem : ∀ key, key ∈ b.keySet.toList ↔ key = k := by
    intro key
    rw [Std.ExtTreeSet.mem_toList, mem_keySet, h.mem_keys]
  have hdistinct : b.keySet.toList.Pairwise fun a c => compare a c = .lt :=
    Std.ExtTreeSet.ordered_toList
  cases hl : b.keySet.toList with
  | nil =>
      have hk := (hmem k).mpr rfl
      rw [hl] at hk
      cases hk
  | cons a l =>
      rw [hl] at hmem hdistinct
      obtain rfl := (hmem a).mp List.mem_cons_self
      cases l with
      | nil => rfl
      | cons c l =>
          obtain rfl := (hmem c).mp (List.mem_cons_of_mem _ List.mem_cons_self)
          have hlt := (List.pairwise_cons.mp hdistinct).1 c List.mem_cons_self
          exact absurd hlt (MemoryMutationQueue.Inv.compare_key_self c)

/-- All results are for the document, the last one counts. -/
theorem Regular.docVersions (h : Regular k b.mutations)
    (hlen : b.mutations.length = rs.length) :
    ∃ vs, Firestore.docVersions b rs = some vs
      ∧ vs[k]? = rs.getLast?.map MutationResult.version := by
  refine ⟨_, by rw [Firestore.docVersions, if_pos hlen], ?_⟩
  have hfold : ∀ (ms : List Mutation) (rs : List MutationResult)
      (vs : Std.ExtTreeMap DocumentKey SnapshotVersion), (∀ m ∈ ms, m.key = k) →
      ms.length = rs.length →
      ((ms.zip rs).foldl (fun vs r => vs.insert r.1.key r.2.version) vs)[k]? =
        (rs.getLast?.map MutationResult.version).or vs[k]? := by
    intro ms
    induction ms with
    | nil =>
        intro rs vs _ hlen
        obtain rfl := List.length_eq_zero_iff.mp hlen.symm
        rfl
    | cons m ms ih =>
        intro rs vs hkey hlen
        cases rs with
        | nil => cases hlen
        | cons r rs =>
            rw [List.zip_cons_cons, List.foldl_cons,
              ih rs _ (fun m hm => hkey m (List.mem_cons_of_mem _ hm)) (by simpa using hlen),
              hkey m List.mem_cons_self, Std.ExtTreeMap.getElem?_insert_self, List.getLast?_cons]
            cases rs.getLast? <;> rfl
  rw [hfold _ _ _ h.key_eq hlen]
  simp

theorem Regular.exists_version {ms : List Mutation} (h : Regular k ms)
    (hrs : List.Forall₂ Mutation.Answers ms rs) :
    ∃ v, rs.getLast?.map MutationResult.version = some v := by
  cases hlast : rs.getLast? with
  | some r => exact ⟨_, rfl⟩
  | none =>
      obtain rfl := List.getLast?_eq_none_iff.mp hlast
      exact absurd (List.forall₂_nil_right_iff.mp hrs) h.ne_nil

end

namespace LocalStore

variable {s : LocalStore}

/-! ## Acknowledgements -/

/-- The reported documents show the new view, the others have kept theirs. -/
def Reports (changes : MaybeDocumentMap) (s s' : LocalStore) : Prop :=
  ∀ key, (key ∈ changes → content changes[key]? = s'.view key)
    ∧ (key ∉ changes → s'.view key = s.view key)

/-- Where a call was taken out of the queue, only its document is reported. -/
theorem reports_keySet {s' : LocalStore} {k : DocumentKey} {b : MutationBatch}
    {rest : List MutationBatch} {changes : MaybeDocumentMap} (hb : Regular k b.mutations)
    (hq : s.mutationQueue.queue = b :: rest) (hqueue : s'.mutationQueue.queue = rest)
    (hother : ∀ key, key ≠ k → s'.get key = s.get key)
    (hmem : ∀ key, key ∈ changes ↔ key ∈ b.keySet)
    (hviews : ∀ key ∈ b.keySet, content changes[key]? = s'.view key) : Reports changes s s' := by
  intro key
  rw [hmem]
  refine ⟨hviews key, fun hkey => ?_⟩
  rw [mem_keySet, hb.mem_keys] at hkey
  unfold view pending
  rw [hq, hqueue, List.foldl_cons, hother key hkey, hb.effectOf_of_ne (Ne.symm hkey)]

/-- What an acknowledged write leaves in the cache: its result, unless there is
something as new already. -/
def Settles (before after : Option MaybeDocument) (c : Option Dict) (v : SnapshotVersion) : Prop :=
  if before.all (fun d => decide (d.version < v)) then
    ∃ d, after = some d ∧ d.data? = c ∧ d.version = v ∧ d.hasPendingWrites = true
  else after = before

theorem Inv.acknowledgeBatch (h : s.Inv) {k : DocumentKey} {b : MutationBatch}
    {rest : List MutationBatch} (hq : s.mutationQueue.queue = b :: rest)
    (hb : Regular k b.mutations) {rs : List MutationResult}
    (hrs : List.Forall₂ Mutation.Answers b.mutations rs) {v : SnapshotVersion}
    (hv : rs.getLast?.map MutationResult.version = some v) (commitVersion : SnapshotVersion) :
    ∃ changes s', s.acknowledgeBatch b commitVersion rs = some (changes, s')
      ∧ s'.Inv ∧ s'.mutationQueue.queue = rest
      ∧ s'.mutationQueue.nextBatchId = s.mutationQueue.nextBatchId
      ∧ s'.lastRemoteSnapshotVersion = s.lastRemoteSnapshotVersion
      ∧ (∀ key, key ≠ k → s'.get key = s.get key)
      ∧ Settles (s.get k) (s'.get k) (effectOf b.mutations k (content (s.get k))) v
      ∧ Reports changes s s' := by
  obtain ⟨q, hremove, hqueue, hnext, hqinv⟩ := h.queue.removeMutationBatch hq
  obtain ⟨vs, hvs, hvk⟩ := hb.docVersions hrs.length_eq
  rw [hv] at hvk
  have hack : s.mutationQueue.acknowledgeBatch b = some s.mutationQueue := by
    unfold MemoryMutationQueue.acknowledgeBatch
    rw [hq]
    exact if_pos rfl
  obtain ⟨cache, hcache, hother, hself⟩ : ∃ cache : RemoteDocumentCache,
      applyBatchResultTo b commitVersion rs vs s.remoteDocumentCache k = some cache
      ∧ (∀ key, key ≠ k → cache[key]? = s.remoteDocumentCache[key]?)
      ∧ Settles (s.get k) (cache[k]?.map Prod.fst)
          (effectOf b.mutations k (content (s.get k))) v := by
    unfold applyBatchResultTo Settles
    simp only [hvk, Option.bind_eq_bind, Option.bind_some]
    show ∃ cache, (if (s.get k).all _ = true then _ else _) = some cache ∧ _
    split
    · obtain ⟨d, hd, hdata, hversion, hpending⟩ : ∃ d,
          (MutationBatch.mk b.batchId b.mutations).applyToRemoteDocument k rs (s.get k) =
            some (some d) ∧ _ := hb.content_remote hrs hv
      refine ⟨s.remoteDocumentCache.insert k (d, commitVersion), ?_, ?_, ?_⟩
      · show ((MutationBatch.mk b.batchId b.mutations).applyToRemoteDocument k rs (s.get k)).bind _
          = _
        rw [hd]
        rfl
      · intro key hne
        rw [Std.ExtTreeMap.getElem?_insert, if_neg]
        rw [Std.LawfulEqCmp.compare_eq_iff_eq]
        exact Ne.symm hne
      · rw [Std.ExtTreeMap.getElem?_insert_self]
        exact ⟨d, rfl, hdata, hversion, hpending⟩
    · exact ⟨s.remoteDocumentCache, rfl, fun _ _ => rfl, rfl⟩
  have hresult : s.applyBatchResult b commitVersion rs =
      some { s with mutationQueue := q, remoteDocumentCache := cache } := by
    unfold applyBatchResult
    simp only [hvs, hb.keySet_toList, hremove, Option.bind_eq_bind, Option.bind_some,
      List.foldlM_cons, List.foldlM_nil, hcache]
    rfl
  have hinv : Inv { s with mutationQueue := q, remoteDocumentCache := cache } := by
    refine ⟨hqinv, ?_⟩
    show AllRegular q.queue
    rw [hqueue]
    exact fun a ha => h.regular a (by rw [hq]; exact List.mem_cons_of_mem _ ha)
  have hothers : ∀ key, key ≠ k → LocalStore.get { s with
      mutationQueue := q
      remoteDocumentCache := cache } key = s.get key := by
    intro key hne
    exact congrArg (Option.map Prod.fst) (hother key hne)
  obtain ⟨changes, hchanges, hmem, hviews⟩ := hinv.getDocuments b.keySet
  refine ⟨changes, _, ?_, hinv, hqueue, hnext, rfl, hothers, hself,
    reports_keySet hb hq hqueue hothers hmem hviews⟩
  · unfold LocalStore.acknowledgeBatch
    simp only [hack, Option.bind_eq_bind, Option.bind_some]
    show (s.applyBatchResult b commitVersion rs).bind _ = _
    rw [hresult]
    simp only [Option.bind_some, hqinv.performConsistencyCheck, if_true, hchanges]

/-! ## Rejections -/

theorem Inv.rejectBatch (h : s.Inv) {k : DocumentKey} {b : MutationBatch}
    {rest : List MutationBatch} (hq : s.mutationQueue.queue = b :: rest)
    (hb : Regular k b.mutations) :
    ∃ changes s', s.rejectBatch b.batchId = some (changes, s')
      ∧ s'.Inv ∧ s'.mutationQueue.queue = rest
      ∧ s'.mutationQueue.nextBatchId = s.mutationQueue.nextBatchId
      ∧ s'.lastRemoteSnapshotVersion = s.lastRemoteSnapshotVersion
      ∧ s'.remoteDocumentCache = s.remoteDocumentCache ∧ Reports changes s s' := by
  obtain ⟨q, hremove, hqueue, hnext, hqinv⟩ := h.queue.removeMutationBatch hq
  have hlookup : s.mutationQueue.lookupMutationBatch b.batchId = some (some b) := by
    rw [h.queue.lookupMutationBatch, h.queue.find?_eq (by rw [hq]; exact List.mem_cons_self)]
  have hinv : Inv { s with mutationQueue := q } := by
    refine ⟨hqinv, ?_⟩
    show AllRegular q.queue
    rw [hqueue]
    exact fun a ha => h.regular a (by rw [hq]; exact List.mem_cons_of_mem _ ha)
  obtain ⟨changes, hchanges, hmem, hviews⟩ := hinv.getDocuments b.keySet
  refine ⟨changes, _, ?_, hinv, hqueue, hnext, rfl, rfl,
    reports_keySet hb hq hqueue (fun _ _ => rfl) hmem hviews⟩
  · unfold LocalStore.rejectBatch
    simp only [hlookup, hremove, Option.bind_eq_bind, Option.bind_some,
      hqinv.performConsistencyCheck, if_true, hchanges]

/-! ## Documents from the backend -/

/-- A document takes the place of an older one, and of one that only a write
has made. -/
def replaces (doc e : MaybeDocument) : Bool :=
  decide (e.version < doc.version) || (decide (doc.version = e.version) && e.hasPendingWrites)

/-- What is cached once a document has been received. -/
def received (old : Option MaybeDocument) (doc : MaybeDocument) : Option MaybeDocument :=
  match doc with
  | .noDocument 0 _ => none
  | _ => if old.all (replaces doc) then some doc else old

/-- What the remote store lets through: a made-up event only takes documents
away, and no event is older than the last one. -/
def Admissible (last v : SnapshotVersion) (updates : List (DocumentKey × MaybeDocument)) : Prop :=
  (updates.map Prod.fst).Nodup
    ∧ ((v = 0 ∧ ∀ u ∈ updates, ∃ c, u.2 = .noDocument 0 c) ∨ (v ≠ 0 ∧ last ≤ v))

/-- One document of an event. -/
theorem applyUpdate_eq {v : SnapshotVersion} {existing cache : RemoteDocumentCache}
    {changed : OptionalMaybeDocumentMap} {key : DocumentKey} {doc : MaybeDocument}
    (hsame : cache[key]? = existing[key]?) (hv : v = 0 → ∃ c, doc = .noDocument 0 c) :
    ∃ cache' changed', applyUpdate v existing (cache, changed) (key, doc) = some (cache', changed')
      ∧ cache'[key]?.map Prod.fst = received (existing[key]?.map Prod.fst) doc
      ∧ (∀ other, other ≠ key → cache'[other]? = cache[other]? ∧ changed'[other]? = changed[other]?)
      ∧ ((changed'[key]? = some (some doc) ∧ content (cache'[key]?.map Prod.fst) = content (some doc))
        ∨ (changed' = changed ∧ cache' = cache)) := by
  have hother : ∀ {α : Type} (m : Std.ExtTreeMap DocumentKey α) (a : α) {other : DocumentKey},
      other ≠ key → (m.insert key a)[other]? = m[other]? := by
    intro α m a other hne
    rw [Std.ExtTreeMap.getElem?_insert, if_neg]
    rw [Std.LawfulEqCmp.compare_eq_iff_eq]
    exact Ne.symm hne
  by_cases hgone : ∃ c, doc = .noDocument 0 c
  · obtain ⟨c, rfl⟩ := hgone
    refine ⟨cache.erase key, changed.insert key (some (.noDocument 0 c)), rfl, ?_, ?_,
      Or.inl ⟨?_, ?_⟩⟩
    · rw [Std.ExtTreeMap.getElem?_erase_self]
      rfl
    · intro other hne
      refine ⟨?_, hother changed _ hne⟩
      rw [Std.ExtTreeMap.getElem?_erase, if_neg]
      rw [Std.LawfulEqCmp.compare_eq_iff_eq]
      exact Ne.symm hne
    · rw [Std.ExtTreeMap.getElem?_insert_self]
    · rw [Std.ExtTreeMap.getElem?_erase_self]
      rfl
  · have hv0 : v ≠ 0 := fun h => hgone (hv h)
    have happly : applyUpdate v existing (cache, changed) (key, doc) =
        if existing[key]?.all fun e => replaces doc e.1 then
          some (cache.insert key (doc, v), changed.insert key (some doc))
        else some (cache, changed) := by
      cases doc with
      | noDocument w c =>
          cases w with
          | zero => exact absurd ⟨c, rfl⟩ hgone
          | succ w =>
              simp only [applyUpdate, if_neg hv0]
              rfl
      | _ =>
          simp only [applyUpdate, if_neg hv0]
          rfl
    have hreceived : received (existing[key]?.map Prod.fst) doc =
        if existing[key]?.all fun e => replaces doc e.1 then some doc
        else existing[key]?.map Prod.fst := by
      have hall : (existing[key]?.map Prod.fst).all (replaces doc) =
          existing[key]?.all fun e => replaces doc e.1 := by
        cases existing[key]? <;> rfl
      rw [← hall]
      cases doc with
      | noDocument w c =>
          cases w with
          | zero => exact absurd ⟨c, rfl⟩ hgone
          | succ w => rfl
      | _ => rfl
    rw [happly, hreceived]
    split
    · refine ⟨_, _, rfl, ?_, fun other hne => ⟨hother cache _ hne, hother changed _ hne⟩,
        Or.inl ⟨?_, ?_⟩⟩
      · rw [Std.ExtTreeMap.getElem?_insert_self]
        rfl
      · rw [Std.ExtTreeMap.getElem?_insert_self]
      · rw [Std.ExtTreeMap.getElem?_insert_self]
        rfl
    · exact ⟨cache, changed, rfl, by rw [hsame], fun _ _ => ⟨rfl, rfl⟩, Or.inr ⟨rfl, rfl⟩⟩

/-- All documents of an event; `changed` is what the earlier ones have changed. -/
theorem foldlM_applyUpdate {v : SnapshotVersion} {existing : RemoteDocumentCache}
    {updates : List (DocumentKey × MaybeDocument)} (hnd : (updates.map Prod.fst).Nodup)
    (hv : v = 0 → ∀ u ∈ updates, ∃ c, u.2 = .noDocument 0 c)
    {cache : RemoteDocumentCache} {changed : OptionalMaybeDocumentMap}
    (hsame : ∀ u ∈ updates, cache[u.1]? = existing[u.1]? ∧ changed[u.1]? = none) :
    ∃ cache' changed',
      updates.foldlM (applyUpdate v existing) (cache, changed) = some (cache', changed')
      ∧ (∀ u ∈ updates, cache'[u.1]?.map Prod.fst = received (existing[u.1]?.map Prod.fst) u.2)
      ∧ (∀ key, key ∉ updates.map Prod.fst →
          cache'[key]? = cache[key]? ∧ changed'[key]? = changed[key]?)
      ∧ ∀ u ∈ updates, (∃ base, changed'[u.1]? = some base
            ∧ content (cache'[u.1]?.map Prod.fst) = content base)
          ∨ (changed'[u.1]? = none ∧ cache'[u.1]? = cache[u.1]?) := by
  induction updates generalizing cache changed with
  | nil => exact ⟨cache, changed, rfl, List.forall_mem_nil _, fun _ _ => ⟨rfl, rfl⟩,
      List.forall_mem_nil _⟩
  | cons u updates ih =>
      obtain ⟨key, doc⟩ := u
      obtain ⟨hnot, hnd⟩ := List.nodup_cons.mp hnd
      obtain ⟨hcache, hchanged⟩ := hsame (key, doc) List.mem_cons_self
      obtain ⟨cache₁, changed₁, happly, hself, hother, hreport⟩ : ∃ cache' changed',
          applyUpdate v existing (cache, changed) (key, doc) = some (cache', changed') ∧ _ :=
        applyUpdate_eq hcache fun h => hv h _ List.mem_cons_self
      have hne : ∀ u ∈ updates, u.1 ≠ key := by
        intro u hu hkey
        exact hnot (List.mem_map.mpr ⟨u, hu, hkey⟩)
      obtain ⟨cache', changed', hfold, hselfs, hothers, hreports⟩ := ih hnd
        (fun h u hu => hv h u (List.mem_cons_of_mem _ hu)) fun u hu => by
          obtain ⟨hc, hd⟩ := hother u.1 (hne u hu)
          rw [hc, hd]
          exact hsame u (List.mem_cons_of_mem _ hu)
      obtain ⟨hkeep, hkeep'⟩ := hothers key hnot
      refine ⟨cache', changed', ?_, ?_, ?_, ?_⟩
      · rw [List.foldlM_cons, happly]
        exact hfold
      · intro u hu
        rcases List.mem_cons.mp hu with rfl | hu
        · rw [hkeep, hself]
        · exact hselfs u hu
      · intro other hother'
        rw [List.map_cons, List.mem_cons, not_or] at hother'
        obtain ⟨hc, hd⟩ := hother other hother'.1
        rw [← hc, ← hd]
        exact hothers other hother'.2
      · intro u hu
        rcases List.mem_cons.mp hu with rfl | hu
        · rw [hkeep, hkeep']
          rcases hreport with ⟨hbase, hcontent⟩ | ⟨rfl, rfl⟩
          · exact Or.inl ⟨_, hbase, hcontent⟩
          · exact Or.inr ⟨hchanged, rfl⟩
        · rcases hreports u hu with hbase | ⟨hnone, hc⟩
          · exact Or.inl hbase
          · exact Or.inr ⟨hnone, hc.trans (hother u.1 (hne u hu)).1⟩

/-- An admissible event is applied; the queue stays as it is, and the pending
batches stay on top of what was received. -/
theorem Inv.applyRemoteEvent (h : s.Inv) {v : SnapshotVersion}
    {updates : List (DocumentKey × MaybeDocument)}
    (hadm : Admissible s.lastRemoteSnapshotVersion v updates) :
    ∃ changes s', s.applyRemoteEvent v updates = some (changes, s') ∧ s'.Inv
      ∧ s'.mutationQueue = s.mutationQueue
      ∧ s'.lastRemoteSnapshotVersion = (if v = 0 then s.lastRemoteSnapshotVersion else v)
      ∧ (∀ u ∈ updates, s'.get u.1 = received (s.get u.1) u.2)
      ∧ (∀ key, key ∉ updates.map Prod.fst → s'.get key = s.get key)
      ∧ Reports changes s s' := by
  obtain ⟨hnd, hversion⟩ := hadm
  have hgone : v = 0 → ∀ u ∈ updates, ∃ c, u.2 = .noDocument 0 c := by
    intro hv
    rcases hversion with ⟨-, hgone⟩ | ⟨hne, -⟩
    · exact hgone
    · exact absurd hv hne
  obtain ⟨cache, changed, hfold, hself, hother, hreport⟩ : ∃ cache' changed',
      updates.foldlM (applyUpdate v s.remoteDocumentCache) (s.remoteDocumentCache, ∅) =
        some (cache', changed') ∧ _ :=
    foldlM_applyUpdate hnd hgone fun u _ => ⟨rfl, Std.ExtTreeMap.getElem?_empty⟩
  let s' : LocalStore := { s with
    remoteDocumentCache := cache
    lastRemoteSnapshotVersion := if v = 0 then s.lastRemoteSnapshotVersion else v }
  have hinv : s'.Inv := ⟨h.queue, h.regular⟩
  obtain ⟨changes, hchanges, hmem, hviews⟩ := hinv.getLocalViewOfDocuments changed
  refine ⟨changes, s', ?_, hinv, rfl, rfl, hself, ?_, ?_⟩
  · unfold LocalStore.applyRemoteEvent
    simp only [hfold, Option.bind_eq_bind, Option.bind_some]
    rcases hversion with ⟨hv, -⟩ | ⟨hne, hle⟩
    · have hs' : s' = { s with remoteDocumentCache := cache } := by
        show ({ s with
          remoteDocumentCache := cache
          lastRemoteSnapshotVersion := if v = 0 then _ else v } : LocalStore) = _
        rw [if_pos hv]
      rw [if_pos hv, ← hs', hchanges, Option.bind_some]
    · have hs' : s' = { s with remoteDocumentCache := cache, lastRemoteSnapshotVersion := v } := by
        show ({ s with
          remoteDocumentCache := cache
          lastRemoteSnapshotVersion := if v = 0 then _ else v } : LocalStore) = _
        rw [if_neg hne]
      rw [if_neg hne, if_pos hle, ← hs', hchanges, Option.bind_some]
  · intro key hkey
    exact congrArg (Option.map Prod.fst) (hother key hkey).1
  · intro key
    rw [hmem]
    by_cases hin : key ∈ updates.map Prod.fst
    · obtain ⟨u, hu, rfl⟩ := List.mem_map.mp hin
      rcases hreport u hu with ⟨base, hbase, hcontent⟩ | ⟨hnone, hsame⟩
      · refine ⟨fun _ => ?_, fun hnot => ?_⟩
        · rw [hviews u.1 base hbase, ← hcontent]
          rfl
        · rw [Std.ExtTreeMap.getElem?_eq_none hnot] at hbase
          cases hbase
      · refine ⟨fun hmem => ?_, fun _ => ?_⟩
        · rw [Std.ExtTreeMap.mem_iff_isSome_getElem?, hnone] at hmem
          cases hmem
        · exact congrArg (fun c => pending _ u.1 (content (Option.map Prod.fst c))) hsame
    · obtain ⟨hcache, hchanged⟩ := hother key hin
      refine ⟨fun hmem => ?_, fun _ => ?_⟩
      · rw [Std.ExtTreeMap.mem_iff_isSome_getElem?, hchanged, Std.ExtTreeMap.getElem?_empty] at hmem
        cases hmem
      · exact congrArg (fun c => pending _ key (content (Option.map Prod.fst c))) hcache

end LocalStore

end GradeIo.Firestore
