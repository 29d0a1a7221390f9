import GradeIo.Firestore.Mutation
import GradeIo.Lib.SelfNamed

/-!
# Addresses

`resource_path.cc` and the references made from it: a path is refused with `//`
in it and cut at the slashes otherwise, empty ends aside; a collection has an
odd number of segments and a document an even one.

The store of documents has an addressing rule of its own, `documentPath`. Both
accept the same names, and two names address the same document in one exactly
if they do in the other (`document_iff`, `keyOf_injective`).
-/

namespace GradeIo.Firestore

open DocDb

abbrev ResourcePath := List String

namespace ResourcePath

/-- `find("//") != npos`. -/
def hasDoubleSlash : List Char → Bool
  | c :: d :: l => (c = '/' && d = '/') || hasDoubleSlash (d :: l)
  | _ => false

def fromString (path : String) : Except String ResourcePath :=
  if hasDoubleSlash path.toList then
    .error ("Invalid path (" ++ path ++ "). Paths must not contain // in them.")
  else .ok (((path.toList.splitOn '/').filter (· ≠ [])).map String.ofList)

def canonicalString (path : ResourcePath) : String := "/".intercalate path

end ResourcePath

namespace CollectionReference

def make (path : ResourcePath) : Except String ResourcePath :=
  if path.length % 2 ≠ 1 then
    .error ("Invalid collection reference. Collection references must have an odd number of "
      ++ "segments, but " ++ path.canonicalString ++ " has " ++ toString path.length)
  else .ok path

def document (path : ResourcePath) (documentPath : String) : Except String DocumentKey := do
  let subPath ← ResourcePath.fromString documentPath
  let path := path ++ subPath
  if path.length % 2 ≠ 0 then
    .error ("Invalid document reference. Document references must have an even number of "
      ++ "segments, but " ++ path.canonicalString ++ " has " ++ toString path.length)
  else .ok path

end CollectionReference

/-- `Firestore.firestore().collection(path)`. -/
def collection (path : String) : Except String ResourcePath := do
  CollectionReference.make (← ResourcePath.fromString path)

/-! ## The addressing rule of the store -/

theorem nil_mem_dropLast_iff {h : List Char} {t : List (List Char)} :
    [] ∈ (h :: t).dropLast ↔ (h = [] ∧ t ≠ []) ∨ [] ∈ t.dropLast := by
  cases t with
  | nil => simp
  | cons a t => simp [eq_comm]

/-- A double slash is an empty segment that has a neighbour on either side. -/
theorem hasDoubleSlash_iff (l : List Char) :
    ResourcePath.hasDoubleSlash l = true ↔ [] ∈ (l.splitOn '/').tail.dropLast := by
  induction l with
  | nil => simp [ResourcePath.hasDoubleSlash]
  | cons c l ih =>
      obtain ⟨h, t, hsplit⟩ : ∃ h t, l.splitOn '/' = h :: t :=
        List.exists_cons_of_ne_nil (List.splitOn_ne_nil '/' l)
      rw [List.splitOn_cons_eq_if_modifyHead]
      by_cases hc : c = '/'
      · rw [if_pos (by simpa using hc), List.tail_cons, hsplit, nil_mem_dropLast_iff]
        rw [hsplit, List.tail_cons] at ih
        rw [← ih]
        cases l with
        | nil =>
            rw [List.splitOn_nil] at hsplit
            obtain ⟨rfl, rfl⟩ := List.cons.inj hsplit
            simp [ResourcePath.hasDoubleSlash]
        | cons d l =>
            have hhead : d = '/' ↔ h = [] ∧ t ≠ [] := by
              rw [List.splitOn_cons_eq_if_modifyHead] at hsplit
              by_cases hd : d = '/'
              · rw [if_pos (by simpa using hd)] at hsplit
                obtain ⟨rfl, rfl⟩ := List.cons.inj hsplit
                simp [hd, List.splitOn_ne_nil]
              · rw [if_neg (by simpa using hd)] at hsplit
                obtain ⟨h', t', hsplit'⟩ :=
                  List.exists_cons_of_ne_nil (List.splitOn_ne_nil '/' l)
                rw [hsplit', List.modifyHead_cons] at hsplit
                obtain ⟨rfl, rfl⟩ := List.cons.inj hsplit
                simp [hd]
            simp [ResourcePath.hasDoubleSlash, hc, hhead]
      · rw [if_neg (by simpa using hc), hsplit, List.modifyHead_cons, List.tail_cons]
        rw [hsplit, List.tail_cons] at ih
        rw [← ih]
        cases l <;> simp [ResourcePath.hasDoubleSlash, hc]

/-- The key of the document that an address of the store stands for. -/
def keyOf (p : DocPath) : DocumentKey :=
  (p.collection.toList.splitOn '/').map String.ofList ++ [p.document]

/-- Segments without slashes survive being joined and split. -/
theorem splitOn_intercalate_ofList {l : List String} (hne : l ≠ [])
    (h : ∀ s ∈ l, '/' ∉ s.toList) :
    (("/".intercalate l).toList.splitOn '/').map String.ofList = l := by
  have hsep : "/".toList = ['/'] := rfl
  rw [String.toList_intercalate, hsep, List.splitOn_intercalate]
  · simp [Function.comp_def]
  · intro s hs
    obtain ⟨t, ht, rfl⟩ := List.mem_map.mp hs
    exact h t ht
  · simpa using hne

/-- The segments of an accepted name, with the collection before them. -/
theorem keyOf_of_documentPath {collection name : String} {p : DocPath} (hc : Plain collection)
    (h : documentPath collection name = some p) :
    keyOf p = collection :: ((name.toList.splitOn '/').filter (· ≠ [])).map String.ofList := by
  obtain ⟨last, parents, hreverse, rfl⟩ := documentPath_eq_some h
  have hsegments : (name.toList.splitOn '/').filter (· ≠ []) = parents.reverse ++ [last] := by
    rw [← List.reverse_reverse ((name.toList.splitOn '/').filter (· ≠ [])), hreverse,
      List.reverse_cons]
  have hslash : ∀ s ∈ collection :: parents.reverse.map String.ofList, '/' ∉ s.toList := by
    intro s hs
    rcases List.mem_cons.mp hs with rfl | hs
    · exact hc.2
    · obtain ⟨seg, hseg, rfl⟩ := List.mem_map.mp hs
      rw [String.toList_ofList]
      have hmem : seg ∈ (name.toList.splitOn '/').filter (· ≠ []) := by
        rw [hsegments]
        exact List.mem_append_left _ hseg
      exact not_mem_of_mem_splitOn (List.mem_filter.mp hmem).1
  rw [keyOf, splitOn_intercalate_ofList (List.cons_ne_nil _ _) hslash, hsegments]
  simp

theorem documentPath_isSome_iff (collection name : String) :
    (documentPath collection name).isSome = true ↔
      ResourcePath.hasDoubleSlash name.toList = false
        ∧ ((name.toList.splitOn '/').filter (· ≠ [])).length % 2 = 1 := by
  rw [← Bool.not_eq_true, hasDoubleSlash_iff, documentPath]
  by_cases hd : [] ∈ (name.toList.splitOn '/').tail.dropLast
  · simp [hd]
  · rw [if_neg hd, ← List.length_reverse]
    cases (List.filter (· ≠ []) (name.toList.splitOn '/')).reverse with
    | nil => simp
    | cons last parents =>
        simp only [List.length_cons]
        split
        · rename_i heven
          simp [hd]
          omega
        · rename_i hodd
          simp [hd]
          omega

theorem collection_of_plain {c : String} (hc : Plain c) : collection c = .ok [c] := by
  have hsegments : ((c.toList.splitOn '/').filter (· ≠ [])).map String.ofList = [c] := by
    have hne : c.toList ≠ [] := by simpa using hc.1
    rw [List.splitOn_eq_singleton hc.2]
    simp [hne]
  have hdouble : ResourcePath.hasDoubleSlash c.toList = false := by
    rw [← Bool.not_eq_true, hasDoubleSlash_iff, List.splitOn_eq_singleton hc.2]
    simp
  unfold collection ResourcePath.fromString
  rw [hdouble, if_neg Bool.false_ne_true, hsegments]
  rfl

/-- A name below a collection is accepted by one rule if and only if it is by
the other, and stands for the same document. -/
theorem document_iff {c name : String} (hc : Plain c) (key : DocumentKey) :
    (do CollectionReference.document (← collection c) name) = .ok key ↔
      ∃ p, documentPath c name = some p ∧ keyOf p = key := by
  have hlength : ∀ l : List (List Char), ([c] ++ l.map String.ofList).length = l.length + 1 := by
    intro l
    simp
  have haccepted := documentPath_isSome_iff c name
  rw [collection_of_plain hc]
  show CollectionReference.document [c] name = .ok key ↔ _
  unfold CollectionReference.document ResourcePath.fromString
  cases hdouble : ResourcePath.hasDoubleSlash name.toList with
  | true =>
      have hnone : documentPath c name = none := by
        rw [← Option.not_isSome_iff_eq_none, haccepted, hdouble]
        simp
      rw [if_pos rfl, hnone]
      constructor
      · intro h
        cases h
      · rintro ⟨p, h, -⟩
        cases h
  | false =>
      rw [if_neg Bool.false_ne_true]
      show (if _ then _ else _) = _ ↔ _
      by_cases hodd : ((name.toList.splitOn '/').filter (· ≠ [])).length % 2 = 1
      · obtain ⟨p, hp⟩ := Option.isSome_iff_exists.mp (haccepted.mpr ⟨hdouble, hodd⟩)
        have heven : ¬ ([c] ++ ((name.toList.splitOn '/').filter (· ≠ [])).map
            String.ofList).length % 2 ≠ 0 := by
          rw [hlength]
          omega
        rw [if_neg heven, hp]
        have hkey := keyOf_of_documentPath hc hp
        constructor
        · intro h
          exact ⟨p, rfl, hkey.trans (Except.ok.inj h)⟩
        · rintro ⟨q, hq, rfl⟩
          obtain rfl := Option.some.inj hq
          rw [hkey]
          rfl
      · have hnone : documentPath c name = none := by
          rw [← Option.not_isSome_iff_eq_none, haccepted]
          exact fun h => hodd h.2
        have hlen : ([c] ++ ((name.toList.splitOn '/').filter (· ≠ [])).map
            String.ofList).length % 2 ≠ 0 := by
          rw [hlength]
          omega
        rw [if_pos hlen, hnone]
        constructor
        · intro h
          cases h
        · rintro ⟨p, h, -⟩
          cases h

theorem document_iff_home :
    (do CollectionReference.document (← collection "Class") "washington/") =
        .ok ["Class", "washington"] ↔
      ∃ p, documentPath "Class" "washington/" = some p ∧ keyOf p = ["Class", "washington"] :=
  document_iff ⟨by decide, by decide⟩ _

/-- Addresses of the store that differ stand for different documents. -/
theorem keyOf_injective : Function.Injective keyOf := by
  intro p q h
  obtain ⟨hcollection, hdocument⟩ := List.append_inj' h rfl
  have hsplit := List.map_injective_iff.mpr (fun _ _ => String.ofList_inj.mp) hcollection
  have hjoin : p.collection.toList = q.collection.toList := by
    have hjoined : List.intercalate ['/'] (p.collection.toList.splitOn '/') =
        p.collection.toList := List.intercalate_splitOn '/'
    rw [hsplit, List.intercalate_splitOn] at hjoined
    exact hjoined.symm
  have hname : p.collection = q.collection := String.toList_inj.mp hjoin
  have hdoc : p.document = q.document := by simpa using hdocument
  cases p
  cases q
  exact congrArg₂ DocPath.mk hname hdoc

end GradeIo.Firestore
