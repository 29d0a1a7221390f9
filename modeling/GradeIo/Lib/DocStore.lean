import Mathlib
import GradeIo.Lib.Keyed
import GradeIo.Lib.Value

/-!
# A store of documents

Documents are finite maps from field names to values, gathered in named
collections. A client changes the store by *writes*, each addressed to one
document and atomic: merge one field, add one element to an array field
(creating the document, or only if it exists), delete the document.

Everything a proof needs about a write is `Store.get?_apply`: it acts on the
document it is addressed to by `Write.onDoc` and leaves all others alone.

`documentPath` is the addressing rule: a document name is split at slashes,
and a name the database has no document for is rejected.
-/

namespace DocDb

open Keyed

abbrev Doc := Std.ExtTreeMap String Value

abbrev Collection := Std.ExtTreeMap String Doc

/-- All collections, by name. Those never written are empty. -/
abbrev Store := String → Collection

/-- The dictionary of all fields of a document. -/
def Doc.data (d : Doc) : Dict := d.toList

theorem Doc.nodup_data (d : Doc) : (Doc.data d |>.map Prod.fst).Nodup := by
  have h := Std.ExtTreeMap.distinct_keys_toList (t := d)
  rw [List.Nodup, List.pairwise_map]
  exact h.imp fun hne heq => hne (by simp [heq])

@[simp] theorem Doc.lookup_data (d : Doc) (k : String) : (Doc.data d).lookup k = d[k]? := by
  apply Option.ext
  intro v
  rw [lookup_eq_some_iff_mem d.nodup_data]
  exact Std.ExtTreeMap.mem_toList_iff_getElem?_eq_some

theorem Doc.mem_data {d : Doc} {k : String} {v : Value} : (k, v) ∈ Doc.data d ↔ d[k]? = some v :=
  Std.ExtTreeMap.mem_toList_iff_getElem?_eq_some

/-! ## Addresses -/

structure DocPath where
  collection : String
  document : String
deriving DecidableEq, Repr

/-- The document that `name` addresses below `collection`. A name with `//` is
rejected, empty segments at either end are skipped, and the number of
remaining segments must be odd: the others name nested collections. -/
def documentPath (collection name : String) : Option DocPath :=
  let segments := name.toList.splitOn '/'
  if [] ∈ segments.tail.dropLast then none
  else
    match (segments.filter (· ≠ [])).reverse with
    | [] => none
    | last :: parents =>
        if parents.length % 2 = 0 then
          some ⟨"/".intercalate (collection :: parents.reverse.map String.ofList),
            String.ofList last⟩
        else none

/-- The document is named by the last segment, the collection by the others. -/
theorem documentPath_eq_some {collection name : String} {p : DocPath}
    (h : documentPath collection name = some p) : ∃ last parents,
      ((name.toList.splitOn '/').filter (· ≠ [])).reverse = last :: parents
      ∧ p = ⟨"/".intercalate (collection :: parents.reverse.map String.ofList),
          String.ofList last⟩ := by
  unfold documentPath at h
  simp only at h
  split at h
  · cases h
  · split at h
    · cases h
    · rename_i last parents hreverse
      split at h
      · exact ⟨last, parents, hreverse, (Option.some.inj h).symm⟩
      · cases h

/-- A non-empty name without a slash is the id of a document of the collection. -/
theorem documentPath_of_no_slash {collection name : String} (hne : name ≠ "")
    (h : '/' ∉ name.toList) : documentPath collection name = some ⟨collection, name⟩ := by
  have hl : name.toList ≠ [] := by simpa using hne
  unfold documentPath
  rw [List.splitOn_eq_singleton h]
  simp [hl]

/-- The collection that a path addresses, by the same rules; here the number of
segments must be odd. -/
def collectionPath (path : String) : Option String :=
  let segments := path.toList.splitOn '/'
  if [] ∈ segments.tail.dropLast then none
  else
    let names := segments.filter (· ≠ [])
    if names.length % 2 = 1 then some ("/".intercalate (names.map String.ofList)) else none

@[simp] theorem documentPath_empty (collection : String) : documentPath collection "" = none := by
  simp [documentPath]

/-- Nested collections have longer names: the first character stays. -/
theorem head?_collection_of_documentPath {collection name : String} {p : DocPath}
    (hne : collection ≠ "") (h : documentPath collection name = some p) :
    p.collection.toList.head? = collection.toList.head? := by
  have hl : collection.toList ≠ [] := by simpa using hne
  have hhead : ∀ names : List String,
      ("/".intercalate (collection :: names)).toList.head? = collection.toList.head? := by
    intro names
    cases names with
    | nil => rw [String.intercalate_singleton]
    | cons n names =>
        rw [String.intercalate_cons_of_ne_nil (List.cons_ne_nil n names), String.toList_append,
          String.toList_append, List.append_assoc, List.head?_append_of_ne_nil _ hl]
  obtain ⟨last, parents, -, rfl⟩ := documentPath_eq_some h
  exact hhead _

/-- The last segment of a name ends as the name does. -/
theorem exists_splitOn_of_getLast? {l : List Char} {c sep : Char} (h : l.getLast? = some c)
    (hne : c ≠ sep) : ∃ front seg, l.splitOn sep = front ++ [seg] ∧ seg.getLast? = some c := by
  by_cases hmem : sep ∈ l
  · obtain ⟨as, bs, hrev, hnot⟩ := List.eq_append_cons_of_mem (List.mem_reverse.mpr hmem)
    have hl : l = bs.reverse ++ sep :: as.reverse := by
      rw [← List.reverse_reverse l, hrev]
      simp
    have hnot' : sep ∉ as.reverse := by simpa using hnot
    refine ⟨bs.reverse.splitOn sep, as.reverse, ?_, ?_⟩
    · rw [hl, List.splitOn_append_cons_self, List.splitOn_eq_singleton hnot']
    · rw [hl, List.getLast?_append_cons] at h
      cases has : as.reverse with
      | nil =>
          rw [has] at h
          exact absurd (Option.some.inj h).symm hne
      | cons a rest =>
          rw [has, List.getLast?_cons_cons] at h
          exact h
  · exact ⟨[], l, by rw [List.splitOn_eq_singleton hmem]; rfl, h⟩

theorem getLast?_document_of_documentPath {collection name : String} {p : DocPath} {c : Char}
    (h : documentPath collection name = some p) (hlast : name.toList.getLast? = some c)
    (hne : c ≠ '/') : p.document.toList.getLast? = some c := by
  obtain ⟨front, seg, hsplit, hseg⟩ := exists_splitOn_of_getLast? hlast hne
  have hsegne : seg ≠ [] := by
    rintro rfl
    cases hseg
  have hreverse : ((front ++ [seg]).filter (· ≠ [])).reverse =
      seg :: (front.filter (· ≠ [])).reverse := by
    simp [List.filter_append, hsegne]
  obtain ⟨last, parents, hlast', rfl⟩ := documentPath_eq_some h
  rw [hsplit, hreverse] at hlast'
  obtain ⟨rfl, -⟩ := List.cons.inj hlast'
  simpa using hseg

/-! ## Writes -/

inductive Write where
  /-- Set one field, keeping the others; creates the document. -/
  | setMerge (path : DocPath) (key : String) (value : Value)
  /-- Add one element to an array field; creates the document. -/
  | unionMerge (path : DocPath) (key : String) (value : Value)
  /-- Add one element to an array field of an existing document. -/
  | unionUpdate (path : DocPath) (key : String) (value : Value)
  | delete (path : DocPath)
deriving DecidableEq

def Write.path : Write → DocPath
  | .setMerge p _ _ => p
  | .unionMerge p _ _ => p
  | .unionUpdate p _ _ => p
  | .delete p => p

/-- The elements of an array field; a field of another type counts as empty. -/
def elements : Option Value → List Value
  | some (.array vs) => vs
  | _ => []

/-- Only an array has elements. -/
theorem array_elements_of_mem {o : Option Value} {v : Value} (h : v ∈ elements o) :
    some (.array (elements o)) = o := by
  unfold elements at h ⊢
  split at h
  · rfl
  · cases h

/-- Array union with one element: appended unless an equal one is present. -/
def Doc.union (d : Doc) (key : String) (v : Value) : Doc :=
  d.alter key fun old => some (.array (addIfAbsent (elements old) v))

@[simp] theorem Doc.union_self (d : Doc) (key : String) (v : Value) :
    (d.union key v)[key]? = some (.array (addIfAbsent (elements d[key]?) v)) := by
  simp [Doc.union]

theorem Doc.union_of_ne (d : Doc) {key k : String} (h : k ≠ key) (v : Value) :
    (d.union key v)[k]? = d[k]? := by
  simp [Doc.union, Std.ExtTreeMap.getElem?_alter, Ne.symm h]

/-- Several fields set, keeping the others. -/
def Doc.merge (d : Doc) (fs : Dict) : Doc := fs.foldl (fun d f => d.insert f.1 f.2) d

/-- The last value given for a field counts, if there is one. -/
theorem Doc.getElem?_merge (d : Doc) (fs : Dict) (k : String) :
    (d.merge fs)[k]? = (fs.reverse.lookup k).or d[k]? := by
  induction fs generalizing d with
  | nil => rfl
  | cons f fs ih =>
      have h : (d.merge (f :: fs))[k]? = (Doc.merge (d.insert f.1 f.2) fs)[k]? := rfl
      rw [h, ih, Std.ExtTreeMap.getElem?_insert, List.reverse_cons, List.lookup_append]
      by_cases hk : k = f.1
      · subst hk
        cases fs.reverse.lookup f.1 <;> simp [List.lookup]
      · have hb : (k == f.1) = false := by simpa using hk
        have hc : ¬ compare f.1 k = .eq := by simpa using Ne.symm hk
        rw [if_neg hc]
        cases fs.reverse.lookup k <;> simp [List.lookup, hb]

/-- What a write makes of the document it addresses. -/
def Write.onDoc : Write → Option Doc → Option Doc
  | .setMerge _ k v, d => some ((d.getD ∅).insert k v)
  | .unionMerge _ k v, d => some (Doc.union (d.getD ∅) k v)
  | .unionUpdate _ k v, d => d.map fun d => Doc.union d k v
  | .delete _, _ => none

/-- One merge for each field. -/
def mergeAll (p : DocPath) (fs : Dict) : List Write := fs.map fun f => .setMerge p f.1 f.2

theorem path_of_mem_mergeAll {p : DocPath} {fs : Dict} {w : Write} (h : w ∈ mergeAll p fs) :
    w.path = p := by
  obtain ⟨f, -, rfl⟩ := List.mem_map.mp h
  rfl

namespace Store

def get? (s : Store) (p : DocPath) : Option Doc := (s p.collection)[p.document]?

def apply (s : Store) (w : Write) : Store := fun c =>
  if c = w.path.collection then (s c).alter w.path.document w.onDoc else s c

def applyAll (s : Store) (ws : List Write) : Store := ws.foldl apply s

/-- The documents of a collection, in the order of their ids. -/
def documents (s : Store) (c : String) : List (String × Doc) := (s c).toList

/-- The documents whose field `key` has the given value, in the order of their ids. -/
def whereField (s : Store) (c key : String) (v : Value) : List (String × Doc) :=
  (s.documents c).filter fun d => d.2[key]? = some v

/-- A write acts on the document it addresses and on no other. -/
theorem get?_apply (s : Store) (w : Write) (p : DocPath) :
    (s.apply w).get? p = if p = w.path then w.onDoc (s.get? p) else s.get? p := by
  obtain ⟨c, d⟩ := p
  unfold get? apply
  by_cases hc : c = w.path.collection
  · subst hc
    rw [if_pos rfl, Std.ExtTreeMap.getElem?_alter]
    by_cases hd : d = w.path.document
    · subst hd
      simp
    · have hne : (⟨w.path.collection, d⟩ : DocPath) ≠ w.path := fun h =>
        hd (congrArg DocPath.document h)
      simp [hne, Ne.symm hd]
  · have hne : (⟨c, d⟩ : DocPath) ≠ w.path := fun h => hc (congrArg DocPath.collection h)
    rw [if_neg hc, if_neg hne]

theorem get?_apply_self (s : Store) (w : Write) :
    (s.apply w).get? w.path = w.onDoc (s.get? w.path) := by
  rw [get?_apply, if_pos rfl]

theorem get?_apply_of_ne (s : Store) {w : Write} {p : DocPath} (h : p ≠ w.path) :
    (s.apply w).get? p = s.get? p := by
  rw [get?_apply, if_neg h]

@[simp] theorem applyAll_nil (s : Store) : s.applyAll [] = s := rfl

@[simp] theorem applyAll_cons (s : Store) (w : Write) (ws : List Write) :
    s.applyAll (w :: ws) = (s.apply w).applyAll ws := rfl

/-- Writes to other collections leave a collection as it was. -/
theorem applyAll_collection_of_ne {c : String} :
    ∀ {ws : List Write} {s : Store}, (∀ w ∈ ws, c ≠ w.path.collection) → s.applyAll ws c = s c
  | [], _, _ => rfl
  | w :: ws, s, h => by
      rw [applyAll_cons, applyAll_collection_of_ne fun w' hw' => h w' (List.mem_cons_of_mem _ hw')]
      exact if_neg (h w List.mem_cons_self)

/-- Writes to other documents leave a document as it was. -/
theorem get?_applyAll_of_ne {p : DocPath} :
    ∀ {ws : List Write} {s : Store}, (∀ w ∈ ws, p ≠ w.path) →
      (s.applyAll ws).get? p = s.get? p
  | [], _, _ => rfl
  | w :: ws, s, h => by
      rw [applyAll_cons, get?_applyAll_of_ne fun w' hw' => h w' (List.mem_cons_of_mem _ hw'),
        get?_apply_of_ne s (h w (List.mem_cons_self ..))]

/-- In a store made of writes, every document is one that they are addressed to. -/
theorem path_mem_of_get?_applyAll {ws : List Write} {p : DocPath}
    (h : ((applyAll (fun _ => ∅) ws).get? p).isSome) : p ∈ ws.map Write.path := by
  by_contra hnot
  have hne : ∀ w ∈ ws, p ≠ w.path := by
    rintro w hw rfl
    exact hnot (List.mem_map_of_mem hw)
  rw [get?_applyAll_of_ne hne] at h
  cases h

/-! ### Merging several fields -/

theorem get?_mergeAll_of_ne {s : Store} {p q : DocPath} {fs : Dict} (h : q ≠ p) :
    (s.applyAll (mergeAll p fs)).get? q = s.get? q :=
  get?_applyAll_of_ne fun _ hw => path_of_mem_mergeAll hw ▸ h

theorem get?_mergeAll {s : Store} {p : DocPath} {f : String × Value} {fs : Dict} :
    (s.applyAll (mergeAll p (f :: fs))).get? p =
      some (Doc.merge ((s.get? p).getD ∅) (f :: fs)) := by
  induction fs generalizing s f with
  | nil => exact (s.get?_apply_self _).trans rfl
  | cons g fs ih =>
      have h := ih (s := s.apply (.setMerge p f.1 f.2)) (f := g)
      have hp : (s.apply (.setMerge p f.1 f.2)).get? p =
          some (((s.get? p).getD ∅).insert f.1 f.2) := s.get?_apply_self _
      rw [hp] at h
      exact h

/-- A store is the function it gives from paths to documents. -/
theorem ext_get? {s t : Store} (h : ∀ p, s.get? p = t.get? p) : s = t := by
  funext c
  exact Std.ExtTreeMap.ext_getElem? fun d => h ⟨c, d⟩

/-- Setting a field to the value it has changes nothing. -/
theorem apply_setMerge_of_field {s : Store} {p : DocPath} {d : Doc} {key : String} {v : Value}
    (hget : s.get? p = some d) (hfield : d[key]? = some v) : s.apply (.setMerge p key v) = s := by
  refine ext_get? fun q => ?_
  by_cases hq : q = p
  · subst hq
    have hself : (s.apply (.setMerge q key v)).get? q = some (((s.get? q).getD ∅).insert key v) :=
      s.get?_apply_self _
    have hsame : d.insert key v = d := by
      refine Std.ExtTreeMap.ext_getElem? fun k => ?_
      rw [Std.ExtTreeMap.getElem?_insert]
      split
      · rename_i hk
        rw [← hfield, Std.LawfulEqCmp.eq_of_compare hk]
      · rfl
    rw [hself, hget]
    exact congrArg some hsame
  · exact get?_apply_of_ne s hq

/-- Fields merged into one document set that document in its collection. -/
theorem mergeAll_collection {s : Store} {p : DocPath} {f : String × Value} {fs : Dict} :
    (s.applyAll (mergeAll p (f :: fs))) p.collection =
      (s p.collection).insert p.document (Doc.merge ((s.get? p).getD ∅) (f :: fs)) := by
  refine Std.ExtTreeMap.ext_getElem? fun m => ?_
  have hget : ((s.applyAll (mergeAll p (f :: fs))) p.collection)[m]? =
      (s.applyAll (mergeAll p (f :: fs))).get? ⟨p.collection, m⟩ := rfl
  rw [hget, Std.ExtTreeMap.getElem?_insert]
  by_cases hm : m = p.document
  · subst hm
    rw [get?_mergeAll]
    simp
  · have hne : (⟨p.collection, m⟩ : DocPath) ≠ p := fun h => hm (congrArg DocPath.document h)
    rw [get?_mergeAll_of_ne hne]
    simp [Ne.symm hm, get?]

/-! ### One field of a document -/

def field (s : Store) (p : DocPath) (key : String) : Option Value := (s.get? p).bind (·[key]?)

theorem field_apply_setMerge (s : Store) (p q : DocPath) (key k : String) (v : Value) :
    (s.apply (.setMerge p key v)).field q k =
      if q = p ∧ k = key then some v else s.field q k := by
  unfold field
  by_cases hq : q = p
  · subst hq
    have hget : (s.apply (.setMerge q key v)).get? q = some (((s.get? q).getD ∅).insert key v) :=
      s.get?_apply_self _
    rw [hget]
    by_cases hk : k = key
    · simp [hk]
    · cases s.get? q <;> simp [Std.ExtTreeMap.getElem?_insert, hk, Ne.symm hk]
  · rw [get?_apply_of_ne s hq, if_neg fun h => hq h.1]

theorem field_apply_unionMerge (s : Store) (p q : DocPath) (key k : String) (v : Value) :
    (s.apply (.unionMerge p key v)).field q k =
      if q = p ∧ k = key then some (.array (addIfAbsent (elements (s.field p key)) v))
      else s.field q k := by
  unfold field
  by_cases hq : q = p
  · subst hq
    have hget : (s.apply (.unionMerge q key v)).get? q =
        some (Doc.union ((s.get? q).getD ∅) key v) := s.get?_apply_self _
    rw [hget]
    by_cases hk : k = key
    · subst hk
      cases s.get? q <;> simp
    · cases s.get? q <;> simp [hk, Doc.union_of_ne]
  · rw [get?_apply_of_ne s hq, if_neg fun h => hq h.1]

theorem field_apply_unionUpdate_of_ne (s : Store) (p q : DocPath) {key k : String} (h : k ≠ key)
    (v : Value) : (s.apply (.unionUpdate p key v)).field q k = s.field q k := by
  unfold field
  by_cases hq : q = p
  · subst hq
    have hget : (s.apply (.unionUpdate q key v)).get? q =
        (s.get? q).map fun d => Doc.union d key v := s.get?_apply_self _
    rw [hget]
    cases s.get? q with
    | none => rfl
    | some d => exact Doc.union_of_ne d h v
  · rw [get?_apply_of_ne s hq]

theorem mem_documents {s : Store} {c id : String} {d : Doc} :
    (id, d) ∈ s.documents c ↔ s.get? ⟨c, id⟩ = some d :=
  Std.ExtTreeMap.mem_toList_iff_getElem?_eq_some

theorem mem_whereField {s : Store} {c key id : String} {v : Value} {d : Doc} :
    (id, d) ∈ s.whereField c key v ↔ s.get? ⟨c, id⟩ = some d ∧ d[key]? = some v := by
  simp [whereField, mem_documents]

/-! ### The first document of a query -/

/-- `(m, d)` comes first among the documents of the collection that a query keeps. -/
structure First (s : Store) (c : String) (keeps : String × Doc → Bool) (m : String) (d : Doc) :
    Prop where
  get : s.get? ⟨c, m⟩ = some d
  kept : keeps (m, d) = true
  first : ∀ m' d', s.get? ⟨c, m'⟩ = some d' → keeps (m', d') = true →
    m' = m ∨ compare m m' = .lt

/-- `(m, d)` comes first among the documents that a query by field finds. -/
structure Found (s : Store) (c key : String) (v : Value) (m : String) (d : Doc) : Prop where
  get : s.get? ⟨c, m⟩ = some d
  field : d[key]? = some v
  first : ∀ m' d', s.get? ⟨c, m'⟩ = some d' → d'[key]? = some v → m' = m ∨ compare m m' = .lt

theorem filter_documents_pairwise (s : Store) (c : String) (keeps : String × Doc → Bool) :
    ((s.documents c).filter keeps).Pairwise fun a b => compare a.1 b.1 = .lt :=
  (Std.ExtTreeMap.ordered_keys_toList (t := s c)).filter _

theorem filter_documents_eq_cons_iff {s : Store} {c m : String} {keeps : String × Doc → Bool}
    {d : Doc} :
    (∃ rest, (s.documents c).filter keeps = (m, d) :: rest) ↔ s.First c keeps m d := by
  have hkept : ∀ {m' d'}, (m', d') ∈ (s.documents c).filter keeps ↔
      s.get? ⟨c, m'⟩ = some d' ∧ keeps (m', d') = true := by
    simp [mem_documents]
  have hpair := s.filter_documents_pairwise c keeps
  constructor
  · rintro ⟨rest, h⟩
    obtain ⟨hget, hkeeps⟩ := hkept.mp (h ▸ List.mem_cons_self : (m, d) ∈ _)
    refine ⟨hget, hkeeps, fun m' d' hget' hkeeps' => ?_⟩
    have hmem' := hkept.mpr ⟨hget', hkeeps'⟩
    rw [h] at hmem' hpair
    rcases List.mem_cons.mp hmem' with heq | htail
    · exact Or.inl (Prod.mk.inj heq).1
    · exact Or.inr ((List.pairwise_cons.mp hpair).1 _ htail)
  · intro h
    have hmem := hkept.mpr ⟨h.get, h.kept⟩
    cases hlist : (s.documents c).filter keeps with
    | nil => simp [hlist] at hmem
    | cons p rest =>
        obtain ⟨m', d'⟩ := p
        have hhead : (m', d') ∈ (s.documents c).filter keeps := by simp [hlist]
        rw [hlist] at hmem hpair
        rcases List.mem_cons.mp hmem with heq | htail
        · exact ⟨rest, by rw [heq]⟩
        -- the head would come both before and after `m`
        · exfalso
          obtain ⟨hget', hkeeps'⟩ := hkept.mp hhead
          have hlt : compare m' m = .lt := (List.pairwise_cons.mp hpair).1 _ htail
          rcases h.first m' d' hget' hkeeps' with rfl | hgt
          · simp at hlt
          · rw [show compare m' m = (compare m m').swap from Std.OrientedCmp.eq_swap, hgt] at hlt
            cases hlt

/-- A query finds nothing, or has a first document. -/
theorem filter_documents_eq_nil_or_first (s : Store) (c : String) (keeps : String × Doc → Bool) :
    (s.documents c).filter keeps = [] ∨ ∃ m d, s.First c keeps m d := by
  cases h : (s.documents c).filter keeps with
  | nil => exact Or.inl rfl
  | cons p rest => exact Or.inr ⟨p.1, p.2, filter_documents_eq_cons_iff.mp ⟨rest, h⟩⟩

theorem First.eq {s : Store} {c m m' : String} {keeps : String × Doc → Bool} {d d' : Doc}
    (h : s.First c keeps m d) (h' : s.First c keeps m' d') : m = m' ∧ d = d' := by
  obtain ⟨rest, hlist⟩ := filter_documents_eq_cons_iff.mpr h
  obtain ⟨rest', hlist'⟩ := filter_documents_eq_cons_iff.mpr h'
  exact Prod.mk.inj (List.cons.inj (hlist.symm.trans hlist')).1

theorem whereField_eq_cons_iff {s : Store} {c key m : String} {v : Value} {d : Doc} :
    (∃ rest, s.whereField c key v = (m, d) :: rest) ↔ s.Found c key v m d := by
  refine filter_documents_eq_cons_iff.trans ?_
  constructor
  · intro h
    exact ⟨h.get, of_decide_eq_true h.kept, fun m' d' hget hfield =>
      h.first m' d' hget (decide_eq_true hfield)⟩
  · intro h
    exact ⟨h.get, decide_eq_true h.field, fun m' d' hget hkeeps =>
      h.first m' d' hget (of_decide_eq_true hkeeps)⟩

end Store

/-! ## Setting fields one after another -/

/-- One field of a document with the value it is set to. -/
structure Put where
  path : DocPath
  key : String
  value : Value
deriving DecidableEq

def Put.write (w : Put) : Write := .setMerge w.path w.key w.value

/-- The field has the value already. -/
def Put.Holds (s : Store) (w : Put) : Prop := s.field w.path w.key = some w.value
namespace Store

def putAll (s : Store) (l : List Put) : Store := s.applyAll (l.map Put.write)

theorem putAll_append (s : Store) (l l' : List Put) :
    s.putAll (l ++ l') = (s.putAll l).putAll l' := by
  rw [putAll, putAll, putAll, List.map_append, applyAll, applyAll, applyAll, List.foldl_append]

/-- A field has the value last set. -/
theorem field_putAll (s : Store) (l : List Put) (p : DocPath) (k : String) :
    (s.putAll l).field p k =
      ((l.reverse.find? fun w => w.path = p ∧ w.key = k).map Put.value).or (s.field p k) := by
  induction l using List.reverseRecOn with
  | nil => rfl
  | append_singleton l w ih =>
      have hlast : (s.putAll (l ++ [w])).field p k =
          if p = w.path ∧ k = w.key then some w.value else (s.putAll l).field p k := by
        rw [putAll_append]
        exact field_apply_setMerge ..
      rw [hlast, List.reverse_append, List.reverse_singleton, List.singleton_append,
        List.find?_cons]
      by_cases hw : p = w.path ∧ k = w.key
      · simp [hw]
      · have hw' : ¬ (w.path = p ∧ w.key = k) := fun h => hw ⟨h.1.symm, h.2.symm⟩
        rw [if_neg hw, ih]
        simp [hw']

theorem apply_of_holds {s : Store} {w : Put} (h : w.Holds s) : s.apply w.write = s := by
  obtain ⟨d, hget, hfield⟩ := Option.bind_eq_some_iff.mp h
  exact apply_setMerge_of_field hget hfield

/-- Nothing changes exactly if every field has its value already. -/
theorem putAll_eq_self_iff {s : Store} {l : List Put}
    (hagree : ∀ a ∈ l, ∀ b ∈ l, a.path = b.path → a.key = b.key → a.value = b.value) :
    s.putAll l = s ↔ ∀ w ∈ l, w.Holds s := by
  constructor
  · intro h w hw
    have hfield := field_putAll s l w.path w.key
    rw [h] at hfield
    obtain ⟨w', hfind⟩ :
        ∃ w', (l.reverse.find? fun x => x.path = w.path ∧ x.key = w.key) = some w' := by
      rw [← Option.isSome_iff_exists, List.find?_isSome]
      exact ⟨w, by simpa using hw, by simp⟩
    obtain ⟨hpath, hkey⟩ : w'.path = w.path ∧ w'.key = w.key := by
      simpa using List.find?_some hfind
    have hmem : w' ∈ l := by simpa using List.mem_of_find?_eq_some hfind
    rw [hfind, Option.map_some, Option.some_or] at hfield
    rw [Put.Holds, hfield, hagree w' hmem w hw hpath hkey]
  · intro h
    induction l with
    | nil => rfl
    | cons w l ih =>
        have hrest := ih
          (fun a ha b hb => hagree a (List.mem_cons_of_mem _ ha) b (List.mem_cons_of_mem _ hb))
          fun x hx => h x (List.mem_cons_of_mem _ hx)
        rw [putAll, List.map_cons, applyAll_cons, apply_of_holds (h w List.mem_cons_self)]
        exact hrest

end Store

end DocDb
