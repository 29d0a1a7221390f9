import GradeIo.Lib.DocStore

/-!
# Documents that carry their name

Nothing here names a particular program. A collection whose documents all hold
their own name in one field can be searched by name or by that field, with the
same result, as long as names that are taken for one are one (`lookups_eq_iff`).
The other lemmas say exactly which writes keep such a collection.
-/

namespace DocDb

/-! ## The name of a document -/

theorem not_mem_of_mem_splitOn {α : Type} [BEq α] [LawfulBEq α] {sep : α} {l seg : List α}
    (h : seg ∈ l.splitOn sep) : sep ∉ seg := by
  induction l generalizing seg with
  | nil =>
      rw [List.splitOn_nil, List.mem_singleton] at h
      rw [h]
      exact List.not_mem_nil
  | cons x l ih =>
      rw [List.splitOn_cons_eq_if_modifyHead] at h
      split at h
      · rcases List.mem_cons.mp h with rfl | h
        · exact List.not_mem_nil
        · exact ih h
      · rename_i hx
        cases hsplit : l.splitOn sep with
        | nil => exact absurd hsplit (List.splitOn_ne_nil sep l)
        | cons first rest =>
            rw [hsplit, List.modifyHead_cons] at h
            rcases List.mem_cons.mp h with rfl | h
            · have hfirst : sep ∉ first := ih (by rw [hsplit]; exact List.mem_cons_self)
              intro hmem
              rcases List.mem_cons.mp hmem with rfl | hmem
              · exact hx (by simp)
              · exact hfirst hmem
            · exact ih (by rw [hsplit]; exact List.mem_cons_of_mem _ h)

/-- A name that is used as it is. -/
def Plain (name : String) : Prop := name ≠ "" ∧ '/' ∉ name.toList

theorem Plain.path {name : String} (h : Plain name) (collection : String) :
    documentPath collection name = some ⟨collection, name⟩ :=
  documentPath_of_no_slash h.1 h.2

/-- Whatever it is made from, an address ends with a plain name. -/
theorem plain_of_documentPath {collection name : String} {p : DocPath}
    (h : documentPath collection name = some p) : Plain p.document := by
  obtain ⟨last, parents, hreverse, rfl⟩ := documentPath_eq_some h
  have hlast : last ∈ (name.toList.splitOn '/').filter (· ≠ []) := by
    rw [← List.mem_reverse, hreverse]
    exact List.mem_cons_self
  obtain ⟨hmem, hne⟩ := List.mem_filter.mp hlast
  refine ⟨by simpa using hne, ?_⟩
  rw [String.toList_ofList]
  exact not_mem_of_mem_splitOn hmem

/-! ## Collections searched by a field -/

/-- The address is made from a name. -/
def Write.Addressed (w : Write) : Prop := ∃ c name, documentPath c name = some w.path

namespace Store

variable {s s' : Store} {P : String → Prop} {c key : String} {p : DocPath}

/-- Every document has a plain name. -/
def PlainNames (s : Store) : Prop := ∀ p, (s.get? p).isSome → Plain p.document

theorem PlainNames.empty : PlainNames fun _ => ∅ := fun p hp => by simp [get?] at hp

theorem PlainNames.of_get? (h : s.PlainNames)
    (hsame : ∀ q, ¬ Plain q.document → s'.get? q = s.get? q) : s'.PlainNames := by
  intro q hq
  by_contra hplain
  rw [hsame q hplain] at hq
  exact hplain (h q hq)

theorem PlainNames.applyAll {ws : List Write} (h : s.PlainNames)
    (hws : ∀ w ∈ ws, w.Addressed) : (s.applyAll ws).PlainNames := by
  refine h.of_get? fun q hq => get?_applyAll_of_ne fun w hw => ?_
  rintro rfl
  obtain ⟨c, name, hpath⟩ := hws w hw
  exact hq (plain_of_documentPath hpath)

/-- Every document of the collection holds its name, and the name is admissible. -/
def SelfNamed (s : Store) (P : String → Prop) (c key : String) : Prop :=
  ∀ n d, s.get? ⟨c, n⟩ = some d → d[key]? = some (.string n) ∧ P n

theorem SelfNamed.empty (P : String → Prop) (c key : String) : SelfNamed (fun _ => ∅) P c key :=
  fun n d hd => by simp [get?] at hd

theorem selfNamed_congr (hsame : ∀ n, s'.get? ⟨c, n⟩ = s.get? ⟨c, n⟩) :
    s'.SelfNamed P c key ↔ s.SelfNamed P c key := by
  simp only [SelfNamed, hsame]

/-- A write elsewhere. -/
theorem selfNamed_apply_of_ne {w : Write} (hne : w.path.collection ≠ c) :
    (s.apply w).SelfNamed P c key ↔ s.SelfNamed P c key :=
  selfNamed_congr fun n => s.get?_apply_of_ne fun hn => hne (by rw [← hn])

/-- Only one document changes. -/
theorem SelfNamed.iff_of_get? (h : s.SelfNamed P c key)
    (hsame : ∀ q, q ≠ p → s'.get? q = s.get? q) :
    s'.SelfNamed P c key ↔ (p.collection = c →
      ∀ d, s'.get? p = some d → d[key]? = some (.string p.document) ∧ P p.document) := by
  constructor
  · rintro hafter rfl d hd
    exact hafter _ _ hd
  · intro hdoc n d hd
    by_cases hpath : (⟨c, n⟩ : DocPath) = p
    · subst hpath
      exact hdoc rfl d hd
    · rw [hsame _ hpath] at hd
      exact h n d hd

/-- A document holds its name if it is there. -/
theorem SelfNamed.getD_field (h : s.SelfNamed P c key) (hp : p.collection = c) :
    ((s.get? p).getD ∅)[key]? = some (.string p.document) ∧ P p.document ↔
      (s.get? p).isSome := by
  subst hp
  cases hd : s.get? p with
  | none => simp
  | some d => simpa using h _ d hd

/-- One field is set. -/
theorem SelfNamed.setMerge_iff (h : s.SelfNamed P c key) (k : String) (v : Value) :
    (s.apply (.setMerge p k v)).SelfNamed P c key ↔ (p.collection = c →
      if k = key then v = .string p.document ∧ P p.document else (s.get? p).isSome) := by
  have hget : (s.apply (.setMerge p k v)).get? p = some (((s.get? p).getD ∅).insert k v) :=
    s.get?_apply_self _
  rw [h.iff_of_get? (p := p) fun q hq => s.get?_apply_of_ne (w := .setMerge p k v) hq, hget]
  simp only [Option.some.injEq, forall_eq']
  refine forall_congr' fun hp => ?_
  by_cases hk : k = key
  · subst hk
    simp
  · rw [if_neg hk, ← h.getD_field hp]
    simp [Std.ExtTreeMap.getElem?_insert, hk]

theorem SelfNamed.delete (h : s.SelfNamed P c key) (p : DocPath) :
    (s.apply (.delete p)).SelfNamed P c key := by
  have hget : (s.apply (.delete p)).get? p = none := s.get?_apply_self _
  rw [h.iff_of_get? (p := p) fun q hq => s.get?_apply_of_ne (w := .delete p) hq, hget]
  rintro - d ⟨⟩

/-- Fields that are merged into one document, one of which may be the name. -/
theorem SelfNamed.mergeAll_iff (h : s.SelfNamed P c key) {f : String × Value} {fs : Dict} :
    (s.applyAll (mergeAll p (f :: fs))).SelfNamed P c key ↔ (p.collection = c →
      ((f :: fs).reverse.lookup key).or ((s.get? p).getD ∅)[key]? = some (.string p.document)
        ∧ P p.document) := by
  rw [h.iff_of_get? (p := p) fun q hq => get?_mergeAll_of_ne hq, get?_mergeAll]
  simp only [Option.some.injEq, forall_eq', Doc.getElem?_merge]

/-- Writes to other fields of a document that is there, and elsewhere. -/
theorem SelfNamed.applyAll {ws : List Write} (h : s.SelfNamed P c key) {n : String}
    (hn : (s.get? ⟨c, n⟩).isSome)
    (hws : ∀ w ∈ ws, w.path.collection ≠ c ∨ ∃ k v, w = .setMerge ⟨c, n⟩ k v ∧ k ≠ key) :
    (s.applyAll ws).SelfNamed P c key := by
  induction ws generalizing s with
  | nil => exact h
  | cons w ws ih =>
      have hrest := fun w' hw' => hws w' (List.mem_cons_of_mem w hw')
      rcases hws w List.mem_cons_self with hne | ⟨k, v, rfl, hk⟩
      · refine ih ((selfNamed_apply_of_ne hne).mpr h) ?_ hrest
        rw [s.get?_apply_of_ne fun hpath => hne (by rw [← hpath])]
        exact hn
      · refine ih ((h.setMerge_iff k v).mpr fun _ => by rwa [if_neg hk]) ?_ hrest
        have hget : (s.apply (.setMerge ⟨c, n⟩ k v)).get? ⟨c, n⟩ =
            some (((s.get? ⟨c, n⟩).getD ∅).insert k v) := s.get?_apply_self _
        rw [hget]
        rfl

/-! ## Searching by name and by the field -/

section

variable {R : String → String → Prop} [∀ n m, Decidable (R n m)]

/-- Taken for one, two names find the same. -/
theorem filter_like_congr (hR : Equivalence R) {n n' : String} (h : R n n') :
    ((s.documents c).filter fun p => R n p.1) = (s.documents c).filter fun p => R n' p.1 :=
  List.filter_congr fun _ _ =>
    decide_eq_decide.mpr ⟨hR.trans (hR.symm h), hR.trans h⟩

/-- The names that one name is taken for. -/
theorem SelfNamed.filter_like (h : s.SelfNamed (fun m => ∀ n, R n m → n = m) c key)
    (hR : Equivalence R) (n : String) :
    (s.documents c).filter (fun p => R n p.1) =
      (s.documents c).filter fun p => p.2[key]? = some (.string n) := by
  refine List.filter_congr fun p hp => decide_eq_decide.mpr ?_
  obtain ⟨hfield, halone⟩ := h p.1 p.2 (mem_documents.mp hp)
  rw [hfield, Option.some.injEq, Value.string.injEq]
  constructor
  · exact fun hlike => (halone n hlike).symm
  · rintro rfl
    exact hR.refl _

/-- Searching by name, up to what is taken for one, and searching by the field
find the same for every name exactly if the documents hold their names and
nothing else is taken for these. -/
theorem lookups_eq_iff (hR : Equivalence R) :
    (∀ n, ((s.documents c).filter fun p => R n p.1).head? =
        (s.whereField c key (.string n)).head?) ↔
      s.SelfNamed (fun m => ∀ n, R n m → n = m) c key := by
  constructor
  · intro heq m d hd
    have hfound : ∀ {n m' d'}, ((s.documents c).filter fun p => R n p.1).head? = some (m', d') →
        d'[key]? = some (.string n) := fun {n m' d'} hhead =>
      (mem_whereField.mp (List.mem_of_head? ((heq n).symm.trans hhead))).2
    -- the first of the documents that are taken for this one
    have hmem : (m, d) ∈ (s.documents c).filter fun p => R m p.1 :=
      List.mem_filter.mpr ⟨mem_documents.mpr hd, decide_eq_true (hR.refl m)⟩
    obtain ⟨⟨m', d'⟩, hhead⟩ := Option.ne_none_iff_exists'.mp
      (mt List.head?_eq_none_iff.mp (List.ne_nil_of_mem hmem))
    have hlike : R m m' := of_decide_eq_true (List.mem_filter.mp (List.mem_of_head? hhead)).2
    have hname : ∀ n, R n m' → n = m := by
      intro n hn
      have hfield := hfound (n := n) (by
        rw [filter_like_congr hR (hR.trans hn (hR.symm hlike))]
        exact hhead)
      rw [hfound hhead] at hfield
      injection hfield with hfield
      injection hfield with hfield
      exact hfield.symm
    obtain rfl : m' = m := hname m' (hR.refl m')
    have hget := mem_documents.mp (List.mem_filter.mp (List.mem_of_head? hhead)).1
    obtain rfl : d' = d := Option.some.inj (hget.symm.trans hd)
    exact ⟨hfound hhead, hname⟩
  · intro h n
    rw [h.filter_like hR, whereField]

end

end Store

end DocDb
