import GradeIo.Firestore.Mutation

/-!
# Latency compensation

While a batch is pending, a reader sees the cached document with the batch
applied to it; once it is acknowledged, the batch is applied to the cached
document itself, by other methods and with other preconditions on it.

`Regular` are the batches of one call for which the two applications give the
reader the same content (`Regular.content_remote`), so that an acknowledgement
alone changes nothing: a document is deleted, set, or patched with transforms of
other fields than the patched ones. A document that is set with transforms is not
among them (`content_local_setTransform`).
-/

namespace GradeIo.Firestore

open DocDb Keyed

/-! ## Content -/

section

variable {doc base : Option MaybeDocument} {m : Mutation} {k : DocumentKey} {value : Dict}
  {mask : List FieldPath} {p : Precondition} {ts : List FieldTransform} {r : MutationResult}

@[simp] theorem content_none : content none = none := rfl

@[simp] theorem content_document (d : Dict) (v : SnapshotVersion) (s : DocumentState) :
    content (some (.document d v s)) = some d := rfl

@[simp] theorem content_noDocument (v : SnapshotVersion) (c : Bool) :
    content (some (.noDocument v c)) = none := rfl

@[simp] theorem content_unknownDocument (v : SnapshotVersion) :
    content (some (.unknownDocument v)) = none := rfl

theorem any_isDocument (doc : Option MaybeDocument) :
    doc.any MaybeDocument.isDocument = (content doc).isSome := by
  cases doc with
  | none => rfl
  | some d => cases d <;> rfl

/-- What a call asks for: nothing, or that the document exists. -/
def Precondition.Plain (p : Precondition) : Prop := p = .none ∨ p = .exists true

theorem Precondition.Plain.isValidFor (h : p.Plain) (doc : Option MaybeDocument) :
    p.isValidFor doc = (p == .none || (content doc).isSome) := by
  rcases h with rfl | rfl
  · rfl
  · show (true == doc.any MaybeDocument.isDocument) = _
    rw [any_isDocument]
    cases (content doc).isSome <;> rfl

/-- A patch, by content. -/
def patchContent (value : Dict) (mask : List FieldPath) (p : Precondition) (c : Option Dict) :
    Option Dict :=
  if p == .none || c.isSome then some (Mutation.patchObject value mask (c.getD [])) else c

/-- Transforms that look at the document alone. -/
def transformContent (ts : List FieldTransform) (c : Option Dict) : Option Dict :=
  c.map fun d => transformObject d ts (ts.map fun t =>
    t.transformation.apply (ObjectValue.get t.path d))

theorem content_local_patch (h : p.Plain) :
    content ((Mutation.patch k value mask p).applyToLocalView doc base) =
      patchContent value mask p (content doc) := by
  unfold Mutation.applyToLocalView patchContent Mutation.precondition
  rw [h.isValidFor]
  split <;> rfl

/-- Where a transform does not look at the base document. -/
theorem content_local_transform
    (h : ∀ t ∈ ts, ∀ d, content doc = some d → ObjectValue.get t.path d = none →
      (content base).bind (ObjectValue.get t.path) = none) :
    content ((Mutation.transform k ts).applyToLocalView doc base) =
      transformContent ts (content doc) := by
  have hvalid : (Mutation.transform k ts).precondition.isValidFor doc = (content doc).isSome := by
    show (true == doc.any MaybeDocument.isDocument) = _
    rw [any_isDocument]
    cases (content doc).isSome <;> rfl
  unfold Mutation.applyToLocalView
  rw [hvalid]
  cases doc with
  | none => rfl
  | some d =>
      cases d with
      | document d v s =>
          have hprevious : (ts.map fun t => t.transformation.apply
              (Mutation.localPrevious t.path (some (.document d v s)) base)) =
              ts.map fun t => t.transformation.apply (ObjectValue.get t.path d) := by
            refine List.map_congr_left fun t ht => ?_
            unfold Mutation.localPrevious
            rw [content_document, Option.bind_some]
            cases hget : ObjectValue.get t.path d with
            | some v => rfl
            | none => rw [h t ht d rfl hget, Option.none_or]
          simp only [content_document, Option.isSome_some, if_true]
          rw [hprevious]
          rfl
      | _ => rfl

theorem remote_patch (h : p.Plain) (hr : r.transformResults = none) :
    ∃ d, (Mutation.patch k value mask p).applyToRemoteDocument doc r = some d
      ∧ d.data? = patchContent value mask p (content doc) ∧ d.version = r.version
      ∧ d.hasPendingWrites = true := by
  unfold Mutation.applyToRemoteDocument patchContent
  simp only [hr, Option.isSome_none, Bool.false_eq_true, if_false]
  rw [h.isValidFor]
  by_cases hv : (p == .none || (content doc).isSome) = true
  · rw [if_pos hv, if_pos hv]
    exact ⟨_, rfl, rfl, rfl, rfl⟩
  · rw [if_neg hv, if_neg hv]
    refine ⟨_, rfl, ?_, rfl, rfl⟩
    simp only [Bool.or_eq_true, not_or] at hv
    have hnone : content doc = none := by
      cases hc : content doc with
      | none => rfl
      | some d => simp [hc] at hv
    exact hnone.symm

theorem remote_transform {results : List Value} (hr : r.transformResults = some results)
    (hlen : results.length = ts.length) :
    ∃ d, (Mutation.transform k ts).applyToRemoteDocument doc r = some d
      ∧ d.data? = transformContent ts (content doc) ∧ d.version = r.version
      ∧ d.hasPendingWrites = true := by
  unfold Mutation.applyToRemoteDocument
  simp only [hr]
  cases doc with
  | none => exact ⟨_, rfl, rfl, rfl, rfl⟩
  | some d =>
      cases d with
      | document d v s =>
          simp only [hlen, if_true]
          exact ⟨_, rfl, rfl, rfl, rfl⟩
      | _ => exact ⟨_, rfl, rfl, rfl, rfl⟩

end

/-! ## Patches leave the other fields alone -/

theorem get_patchObject {mask : List FieldPath} {q : FieldPath} (h : ∀ p ∈ mask, Apart p q)
    (value obj : Dict) :
    ObjectValue.get q (Mutation.patchObject value mask obj) = ObjectValue.get q obj := by
  unfold Mutation.patchObject
  induction mask generalizing obj with
  | nil => rfl
  | cons p mask ih =>
      have hp : Apart p q := h p List.mem_cons_self
      rw [List.foldl_cons, ih fun p hp => h p (List.mem_cons_of_mem _ hp), if_neg hp.ne_nil.1]
      cases hv : ObjectValue.get p value with
      | none => exact ObjectValue.get_delete_of_apart hp obj
      | some v => exact ObjectValue.get_set_of_apart hp v obj

/-! ## The mutations of one call -/

/-- What is made of a deletion, of a set without transforms, and of a merge or an
update whose transforms are of fields that it leaves alone. -/
inductive Regular (k : DocumentKey) : List Mutation → Prop
  | delete : Regular k [.delete k .none]
  | set (value : Dict) : Regular k [.set k value .none]
  | patch (value : Dict) (mask : List FieldPath) {p : Precondition} :
      p.Plain → Regular k [.patch k value mask p]
  | patchTransform (value : Dict) (mask : List FieldPath) {p : Precondition}
      (ts : List FieldTransform) :
      p.Plain → (∀ q ∈ mask, ∀ t ∈ ts, Apart q t.path) →
        Regular k [.patch k value mask p, .transform k ts]

/-- The meaning of a mutation, by content alone. -/
def Mutation.effect : Mutation → Option Dict → Option Dict
  | .set _ value _, _ => some value
  | .patch _ value mask p, c => patchContent value mask p c
  | .delete _ _, _ => none
  | .transform _ ts, c => transformContent ts c

/-- The meaning of a batch for one document. -/
def effectOf (ms : List Mutation) (key : DocumentKey) (c : Option Dict) : Option Dict :=
  ms.foldl (fun c m => if m.key = key then m.effect c else c) c

/-- Those of transforms have a value for each field, which for arrays is not used. -/
def Mutation.Answers (m : Mutation) (r : MutationResult) : Prop :=
  match m with
  | .transform _ ts => ∃ results, r.transformResults = some results ∧ results.length = ts.length
  | _ => r.transformResults = none

namespace Regular

variable {k key : DocumentKey} {ms : List Mutation} {rs : List MutationResult} {id : Int}
  {doc : Option MaybeDocument}

theorem key_eq (h : Regular k ms) : ∀ m ∈ ms, m.key = k := by
  cases h <;> simp [Mutation.key]

theorem ne_nil (h : Regular k ms) : ms ≠ [] := by
  cases h <;> simp

/-- A call for another document changes nothing. -/
theorem local_of_ne (h : Regular k ms) (hne : k ≠ key) :
    (MutationBatch.mk id ms).applyToLocalDocument key doc = doc := by
  have hkeys : ∀ m ∈ ms, m.key ≠ key := fun m hm => h.key_eq m hm ▸ hne
  unfold MutationBatch.applyToLocalDocument
  clear h
  suffices ∀ d : Option MaybeDocument,
      ms.foldl (fun d m => if m.key = key then m.applyToLocalView d doc else d) d = d from this doc
  induction ms with
  | nil => exact fun _ => rfl
  | cons m ms ih =>
      intro d
      rw [List.foldl_cons, if_neg (hkeys m List.mem_cons_self)]
      exact ih (fun m hm => hkeys m (List.mem_cons_of_mem _ hm)) d

theorem effectOf_of_ne (h : Regular k ms) (hne : k ≠ key) (c : Option Dict) :
    effectOf ms key c = c := by
  have hkeys : ∀ m ∈ ms, m.key ≠ key := fun m hm => h.key_eq m hm ▸ hne
  unfold effectOf
  clear h
  induction ms with
  | nil => rfl
  | cons m ms ih =>
      rw [List.foldl_cons, if_neg (hkeys m List.mem_cons_self)]
      exact ih fun m hm => hkeys m (List.mem_cons_of_mem _ hm)

/-- The local view of a pending call is the meaning of the call: its transforms
see what the patch left, so never the document before the batch. -/
theorem content_local (h : Regular k ms) :
    content ((MutationBatch.mk id ms).applyToLocalDocument key doc) =
      effectOf ms key (content doc) := by
  by_cases hkey : k = key
  · subst hkey
    unfold MutationBatch.applyToLocalDocument effectOf
    cases h with
    | delete => simp [Mutation.key, Mutation.effect, Mutation.applyToLocalView,
        Mutation.precondition, Precondition.isValidFor]
    | set value => simp [Mutation.key, Mutation.effect, Mutation.applyToLocalView,
        Mutation.precondition, Precondition.isValidFor]
    | patch value mask hp =>
        simp only [List.foldl_cons, List.foldl_nil, Mutation.key, if_true]
        exact content_local_patch hp
    | patchTransform value mask ts hp hapart =>
        simp only [List.foldl_cons, List.foldl_nil, Mutation.key, if_true]
        rw [content_local_transform, content_local_patch hp]
        · rfl
        · intro t ht d hd hget
          rw [content_local_patch hp] at hd
          cases hc : content doc with
          | none => rfl
          | some e =>
              have hd' : Mutation.patchObject value mask e = d := by
                simpa [patchContent, hc] using hd
              rw [← hd', get_patchObject fun q hq => hapart q hq t ht] at hget
              exact hget
  · rw [h.local_of_ne hkey, h.effectOf_of_ne hkey]

/-- The acknowledged call means the same for the cached document. -/
theorem content_remote (h : Regular k ms) (hr : List.Forall₂ Mutation.Answers ms rs)
    {v : SnapshotVersion} (hv : rs.getLast?.map MutationResult.version = some v) :
    ∃ d, (MutationBatch.mk id ms).applyToRemoteDocument k rs doc = some (some d)
      ∧ d.data? = effectOf ms k (content doc) ∧ d.version = v ∧ d.hasPendingWrites = true := by
  have hlen : rs.length = ms.length := hr.length_eq.symm
  unfold MutationBatch.applyToRemoteDocument
  rw [if_pos hlen]
  cases h with
  | delete =>
      obtain ⟨r, rs, ha, hnil, rfl⟩ := List.forall₂_cons_left_iff.mp hr
      obtain rfl := List.forall₂_nil_left_iff.mp hnil
      obtain rfl : r.version = v := Option.some.inj hv
      have ha : r.transformResults = none := ha
      exact ⟨.noDocument r.version true, by simp [Mutation.key, Mutation.applyToRemoteDocument, ha],
        by simp [effectOf, Mutation.key, Mutation.effect, MaybeDocument.data?], rfl, rfl⟩
  | set value =>
      obtain ⟨r, rs, ha, hnil, rfl⟩ := List.forall₂_cons_left_iff.mp hr
      obtain rfl := List.forall₂_nil_left_iff.mp hnil
      obtain rfl : r.version = v := Option.some.inj hv
      have ha : r.transformResults = none := ha
      exact ⟨.document value r.version .committedMutations,
        by simp [Mutation.key, Mutation.applyToRemoteDocument, ha],
        by simp [effectOf, Mutation.key, Mutation.effect, MaybeDocument.data?], rfl, rfl⟩
  | patch value mask hp =>
      obtain ⟨r, rs, ha, hnil, rfl⟩ := List.forall₂_cons_left_iff.mp hr
      obtain rfl := List.forall₂_nil_left_iff.mp hnil
      obtain rfl : r.version = v := Option.some.inj hv
      obtain ⟨d, hd, hdata, hver, hpend⟩ : ∃ d,
          (Mutation.patch k value mask _).applyToRemoteDocument doc r = some d ∧ _ :=
        remote_patch hp ha
      refine ⟨d, ?_, ?_, hver, hpend⟩
      · simp [Mutation.key, hd]
      · simp [effectOf, Mutation.key, Mutation.effect, hdata]
  | patchTransform value mask ts hp hapart =>
      obtain ⟨r, rs, ha, hrest, rfl⟩ := List.forall₂_cons_left_iff.mp hr
      obtain ⟨r', rs, ha', hnil, rfl⟩ := List.forall₂_cons_left_iff.mp hrest
      obtain rfl := List.forall₂_nil_left_iff.mp hnil
      obtain rfl : r'.version = v := Option.some.inj hv
      obtain ⟨results, hresults, hlen'⟩ := ha'
      obtain ⟨d, hd, hdata, -, -⟩ : ∃ d,
          (Mutation.patch k value mask _).applyToRemoteDocument doc r = some d ∧ _ :=
        remote_patch hp ha
      obtain ⟨e, he, hdata', hver', hpend'⟩ : ∃ e,
          (Mutation.transform k ts).applyToRemoteDocument (some d) r' = some e ∧ _ :=
        remote_transform hresults hlen'
      refine ⟨e, ?_, ?_, hver', hpend'⟩
      · simp [Mutation.key, hd, he]
      · rw [hdata', show content (some d) = d.data? from rfl, hdata]
        simp [effectOf, Mutation.key, Mutation.effect]

end Regular

/-! ## A set with transforms -/

/-- While a set is pending, its transforms still see the document that it takes
the place of. -/
theorem content_local_setTransform {k : DocumentKey} {value : Dict} {ts : List FieldTransform}
    {id : Int} {doc : Option MaybeDocument} :
    content ((MutationBatch.mk id [.set k value .none, .transform k ts]).applyToLocalDocument k
        doc) =
      some (transformObject value ts (ts.map fun t => t.transformation.apply
        ((ObjectValue.get t.path value).or ((content doc).bind (ObjectValue.get t.path))))) := by
  unfold MutationBatch.applyToLocalDocument
  simp only [List.foldl_cons, List.foldl_nil, Mutation.key, if_true]
  rfl

/-- Acknowledged, they do not. -/
theorem effectOf_setTransform {k : DocumentKey} {value : Dict} {ts : List FieldTransform}
    {c : Option Dict} :
    effectOf [.set k value .none, .transform k ts] k c =
      some (transformObject value ts (ts.map fun t => t.transformation.apply
        (ObjectValue.get t.path value))) := by
  simp [effectOf, Mutation.key, Mutation.effect, transformContent]

example : content ((MutationBatch.mk 1 [.set ["Class", "art"] [] .none, .transform ["Class", "art"]
      [⟨["studentIDs"], .arrayUnion [.string "s_ann"]⟩]]).applyToLocalDocument ["Class", "art"]
        (some (.document [("studentIDs", .array [.string "s_bob"])] 1 .synced))) =
      some [("studentIDs", .array [.string "s_bob", .string "s_ann"])]
    ∧ effectOf [.set ["Class", "art"] [] .none, .transform ["Class", "art"]
        [⟨["studentIDs"], .arrayUnion [.string "s_ann"]⟩]] ["Class", "art"]
        (some [("studentIDs", .array [.string "s_bob"])]) =
      some [("studentIDs", .array [.string "s_ann"])] := by
  decide

end GradeIo.Firestore
