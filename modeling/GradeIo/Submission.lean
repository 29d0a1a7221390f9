import GradeIo.Gradebook
import GradeIo.Quiz

/-!
# What a submission does to the stored results

`insertResult` issues one of two lists of writes, by whether the local copy
shows a result of the current user. On the stored list these are the two
handlers of `Gradebook`: `Stores` reads the results field of a document as an
optional list, `Performs` reads a write as an operation on it.
-/

namespace GradeIo

open DocDb Keyed

/-! ## The stored list -/

def storedValue (rs : List Result) : Value := .array (rs.map Result.toValue)

theorem storedValue_injective : Function.Injective storedValue := by
  intro rs rs' h
  simpa [storedValue, List.map_inj_right fun _ _ => Result.toValue_injective.eq_iff.mp] using h

/-- The document exists and its results field holds the list, or is missing. -/
def Stores (p : DocPath) (s : Store) (o : Option (List Result)) : Prop :=
  ∃ doc, s.get? p = some doc ∧ doc[Strings.results]? = o.map storedValue

theorem Stores.unique {p : DocPath} {s : Store} {o o' : Option (List Result)}
    (h : Stores p s o) (h' : Stores p s o') : o = o' := by
  obtain ⟨doc, hdoc, hres⟩ := h
  obtain ⟨doc', hdoc', hres'⟩ := h'
  obtain rfl := Option.some.inj (hdoc.symm.trans hdoc')
  exact Option.map_injective storedValue_injective (hres.symm.trans hres')

/-- The writes on the document and what they do to the list. -/
inductive Performs (p : DocPath) : Write → Gradebook.Op Result → Prop where
  | clear : Performs p (.setMerge p Strings.results (.array [])) .clear
  | add (r : Result) : Performs p (.unionUpdate p Strings.results r.toValue) (.add r)
  | other {key : String} (v : Value) :
      key ≠ Strings.results → Performs p (.setMerge p key v) .other

theorem elements_map_storedValue (o : Option (List Result)) :
    elements (o.map storedValue) = (o.getD []).map Result.toValue := by
  cases o <;> rfl

theorem Stores.apply {p : DocPath} {s : Store} {o : Option (List Result)} {w : Write}
    {op : Gradebook.Op Result} (h : Stores p s o) (hw : Performs p w op) :
    Stores p (s.apply w) (Gradebook.apply o op) := by
  obtain ⟨doc, hdoc, hres⟩ := h
  cases hw with
  | clear =>
      refine ⟨doc.insert Strings.results (.array []), ?_, ?_⟩
      · exact (s.get?_apply_self _).trans (by simp [Write.path, Write.onDoc, hdoc])
      · simp [Gradebook.apply, storedValue]
  | add r =>
      refine ⟨doc.union Strings.results r.toValue, ?_, ?_⟩
      · exact (s.get?_apply_self _).trans (by simp [Write.path, Write.onDoc, hdoc])
      · rw [Doc.union_self, hres, elements_map_storedValue,
          ← map_addIfAbsent Result.toValue_injective]
        rfl
  | @other key v hkey =>
      refine ⟨doc.insert key v, ?_, ?_⟩
      · exact (s.get?_apply_self _).trans (by simp [Write.path, Write.onDoc, hdoc])
      · rw [Std.ExtTreeMap.getElem?_insert, if_neg (by simpa using hkey)]
        exact hres

theorem Stores.applyAll {p : DocPath} {s : Store} {o : Option (List Result)} {ws : List Write}
    {ops : List (Gradebook.Op Result)} (h : Stores p s o)
    (hws : List.Forall₂ (Performs p) ws ops) :
    Stores p (s.applyAll ws) (ops.foldl Gradebook.apply o) :=
  Replica.foldl_rel (f := Store.apply) (g := Gradebook.apply)
    (fun _ _ _ _ hs hw => Stores.apply hs hw) hws h

/-- An element added to another array field. -/
theorem Stores.unionMerge {p : DocPath} {s : Store} {o : Option (List Result)} {key : String}
    (h : Stores p s o) (hkey : key ≠ Strings.results) (v : Value) :
    Stores p (s.apply (.unionMerge p key v)) o := by
  obtain ⟨doc, hdoc, hres⟩ := h
  refine ⟨doc.union key v, ?_, (Doc.union_of_ne doc hkey.symm v).trans hres⟩
  exact (s.get?_apply_self _).trans (by simp [Write.path, Write.onDoc, hdoc])

/-- A document whose results field has just been set. -/
theorem stores_setMerge (s : Store) (p : DocPath) (rs : List Result) :
    Stores p (s.apply (.setMerge p Strings.results (storedValue rs))) (some rs) := by
  refine ⟨((s.get? p).getD ∅).insert Strings.results (storedValue rs), ?_, by simp⟩
  exact (s.get?_apply_self _).trans rfl

/-! ## The two branches of `insertResult` -/

/-- The local copy shows a result of the user. -/
abbrev Assignment.Shows (a : Assignment) (u : String) : Prop :=
  Gradebook.Shows Result.studentID "" a.results u

namespace Quiz

theorem existingResult_isEmpty {a : Assignment} {u : String} (now : Rat) :
    (existingResult a (some u) now).studentID.isEmpty = true ↔ ¬ a.Shows u := by
  unfold existingResult Assignment.Shows Gradebook.Shows
  cases hrs : a.results with
  | none => simp [Result.init]
  | some rs =>
      simp only [Option.bind_some, Option.some.injEq, Option.getD_some]
      cases hfind : rs.find? (fun r => r.studentID = u) with
      | none =>
          rw [List.find?_eq_none] at hfind
          have hnone : ¬ (u ≠ "" ∧ ∃ r ∈ rs, r.studentID = u) := by
            rintro ⟨-, r, hr, hk⟩
            exact hfind r hr (decide_eq_true hk)
          exact iff_of_true rfl hnone
      | some r =>
          have hk : r.studentID = u := by simpa using List.find?_some hfind
          have hmem : ∃ x ∈ rs, x.studentID = u := ⟨r, List.mem_of_find?_eq_some hfind, hk⟩
          simp [hk, hmem]

/-- The user's stored result is taken out of the local copy, the stored list is
cleared and the new result is added: no other result is written back. -/
theorem insertResult_of_shows {a : Assignment} {id u : String} {p : DocPath} {now : Rat}
    {r : Result} (hid : a.id = some id) (hp : documentPath Strings.assignment id = some p)
    (h : a.Shows u) :
    insertResult a (some u) now r =
      some ({ a with results := a.results.map fun rs => rs.eraseP fun x => x.studentID = u },
        [.setMerge p Strings.results (.array []), .unionUpdate p Strings.results r.toValue]) := by
  have hne : ¬ (existingResult a (some u) now).studentID.isEmpty := fun he =>
    (existingResult_isEmpty now).mp he h
  cases hrs : a.results with
  | none =>
      obtain ⟨-, r, hr, -⟩ := h
      rw [hrs] at hr
      cases hr
  | some rs =>
      obtain ⟨i, hi⟩ : ∃ i, rs.findIdx? (fun x => x.studentID = u) = some i := by
        obtain ⟨-, x, hx, hk⟩ := h
        rw [hrs] at hx
        rw [← Option.isSome_iff_exists, List.findIdx?_isSome, List.any_eq_true]
        exact ⟨x, hx, decide_eq_true hk⟩
      have hlt : i < rs.length := (List.findIdx?_eq_some_iff_getElem.mp hi).1
      have herase : removeAt rs (a.getResultIndexByID u) =
          some (rs.eraseP fun x => x.studentID = u) := by
        rw [Assignment.getResultIndexByID_eq hrs hi, removeAt, if_pos (by omega),
          List.eraseP_eq_eraseIdx, hi]
        rfl
      simp only [insertResult, hne, Option.bind_eq_bind, Option.bind_some, hrs, herase,
        Option.map_some]
      simp [Assignment.clearResults, Assignment.save, Assignment.addResult, hid, hp,
        DatabaseHelper.savePropertyToDatabase]

theorem insertResult_of_not_shows {a : Assignment} {id u : String} {p : DocPath} {now : Rat}
    {r : Result} (hid : a.id = some id) (hp : documentPath Strings.assignment id = some p)
    (h : ¬ a.Shows u) :
    insertResult a (some u) now r =
      some (a, [.unionUpdate p Strings.results r.toValue]) := by
  have he := (existingResult_isEmpty now).mpr h
  simp [insertResult, he, Assignment.addResult, hid, hp]

/-- Neither list of writes touches another field. -/
theorem field_applyAll_insertResult {a b : Assignment} {id u : String} {p : DocPath} {now : Rat}
    {r : Result} {ws : List Write} (hid : a.id = some id)
    (hp : documentPath Strings.assignment id = some p)
    (h : insertResult a (some u) now r = some (b, ws)) {key : String} (hkey : key ≠ Strings.results)
    (s : Store) (q : DocPath) : (s.applyAll ws).field q key = s.field q key := by
  by_cases hshows : a.Shows u
  · rw [insertResult_of_shows hid hp hshows] at h
    obtain ⟨-, rfl⟩ := Prod.mk.inj (Option.some.inj h)
    rw [Store.applyAll_cons, Store.applyAll_cons, Store.applyAll_nil,
      Store.field_apply_unionUpdate_of_ne _ _ _ hkey, Store.field_apply_setMerge,
      if_neg fun hq => hkey hq.2]
  · rw [insertResult_of_not_shows hid hp hshows] at h
    obtain ⟨-, rfl⟩ := Prod.mk.inj (Option.some.inj h)
    rw [Store.applyAll_cons, Store.applyAll_nil, Store.field_apply_unionUpdate_of_ne _ _ _ hkey]

/-- Either list of writes, as it acts on the stored list. -/
theorem stores_insertResult {s : Store} {a : Assignment} {id u : String} {p : DocPath}
    {o : Option (List Result)} (now : Rat) {r : Result} (hid : a.id = some id)
    (hp : documentPath Strings.assignment id = some p) (hs : Stores p s o) :
    ∃ a' ws, insertResult a (some u) now r = some (a', ws)
      ∧ Stores p (s.applyAll ws)
          (some (if a.Shows u then [r] else addIfAbsent (o.getD []) r)) := by
  by_cases h : a.Shows u
  · refine ⟨_, _, insertResult_of_shows hid hp h, ?_⟩
    rw [if_pos h]
    exact (hs.apply .clear).apply (.add r)
  · refine ⟨_, _, insertResult_of_not_shows hid hp h, ?_⟩
    rw [if_neg h]
    exact hs.apply (.add r)

/-! ## Resubmission -/

/-- `after` has one result of `r`'s student, `r` itself, and keeps every other
student's results. -/
def Replaced (before after : List Result) (r : Result) : Prop :=
  after.filter (fun x => x.studentID = r.studentID) = [r]
    ∧ ∀ x ∈ before, x.studentID ≠ r.studentID → x ∈ after

/-- After a clear the new result is alone. -/
theorem replaced_singleton_iff {before : List Result} {r : Result} :
    Replaced before [r] r ↔ ∀ x ∈ before, x.studentID = r.studentID := by
  constructor
  · intro h x hx
    by_contra hne
    obtain rfl := List.mem_singleton.mp (h.2 x hx hne)
    exact hne rfl
  · exact fun h => ⟨by simp, fun x hx hne => absurd (h x hx) hne⟩

/-- Without a clear the new result is the only one of its student if the
student had none, or just this one. -/
theorem replaced_addIfAbsent_iff {before : List Result} {r : Result}
    (hnodup : (before.map Result.studentID).Nodup) :
    Replaced before (addIfAbsent before r) r ↔
      (∀ x ∈ before, x.studentID ≠ r.studentID) ∨ r ∈ before := by
  constructor
  · intro h
    by_cases hr : r ∈ before
    · exact Or.inr hr
    · refine Or.inl fun x hx hk => hr ?_
      have hmem : x ∈ (addIfAbsent before r).filter fun y => y.studentID = r.studentID :=
        List.mem_filter.mpr ⟨mem_addIfAbsent.mpr (Or.inl hx), decide_eq_true hk⟩
      rw [h.1] at hmem
      exact List.mem_singleton.mp hmem ▸ hx
  · intro h
    have honly : ∀ y ∈ before, y.studentID = r.studentID → y = r := by
      intro y hy hk
      rcases h with h | h
      · exact absurd hk (h y hy)
      · exact eq_of_key_eq hnodup hy h hk
    refine ⟨?_, fun x hx _ => mem_addIfAbsent.mpr (Or.inl hx)⟩
    exact filter_key_eq_singleton (nodup_addIfAbsent hnodup honly)
      (mem_addIfAbsent.mpr (Or.inr rfl))

/-- `insertResult` replaces the student's result and keeps the others exactly
if it has none to replace, or none to keep, or nothing to do. -/
theorem insertResult_replaces_iff {s : Store} {a : Assignment} {p : DocPath} {id u : String}
    {stored : Option (List Result)} {r : Result} (now : Rat) (hid : a.id = some id)
    (hp : documentPath Strings.assignment id = some p) (hstored : Stores p s stored)
    (hlocal : a.results = stored) (hnodup : ((stored.getD []).map Result.studentID).Nodup)
    (hr : r.studentID = u) :
    (∃ a' ws after, insertResult a (some u) now r = some (a', ws)
        ∧ Stores p (s.applyAll ws) (some after) ∧ Replaced (stored.getD []) after r) ↔
      (∀ x ∈ stored.getD [], x.studentID ≠ u)
        ∨ (u ≠ "" ∧ ∀ x ∈ stored.getD [], x.studentID = u)
        ∨ (u = "" ∧ r ∈ stored.getD []) := by
  subst hr
  obtain ⟨a', ws, hins, hafter⟩ :=
    stores_insertResult now (u := r.studentID) (r := r) hid hp hstored
  have hreduce : (∃ a' ws after, insertResult a (some r.studentID) now r = some (a', ws)
        ∧ Stores p (s.applyAll ws) (some after) ∧ Replaced (stored.getD []) after r) ↔
      Replaced (stored.getD [])
        (if a.Shows r.studentID then [r] else addIfAbsent (stored.getD []) r) r := by
    constructor
    · rintro ⟨b, vs, after, hb, hst, hrep⟩
      obtain ⟨-, rfl⟩ := Prod.mk.inj (Option.some.inj (hins.symm.trans hb))
      exact Option.some.inj (hst.unique hafter) ▸ hrep
    · exact fun h => ⟨a', ws, _, hins, hafter, h⟩
  rw [hreduce]
  by_cases h : a.Shows r.studentID
  · rw [if_pos h, replaced_singleton_iff]
    obtain ⟨hne, x, hx, hk⟩ := h
    rw [hlocal] at hx
    constructor
    · exact fun hall => Or.inr (Or.inl ⟨hne, hall⟩)
    · rintro (hnone | ⟨-, hall⟩ | ⟨hu, -⟩)
      · exact absurd hk (hnone x hx)
      · exact hall
      · exact absurd hu hne
  · rw [if_neg h, replaced_addIfAbsent_iff hnodup]
    have hblank : ∀ x ∈ stored.getD [], x.studentID = r.studentID → r.studentID = "" := by
      intro x hx hk
      by_contra hne
      exact h ⟨hne, x, hlocal ▸ hx, hk⟩
    constructor
    · rintro (hnone | hmem)
      · exact Or.inl hnone
      · exact Or.inr (Or.inr ⟨hblank r hmem rfl, hmem⟩)
    · rintro (hnone | ⟨hne, hall⟩ | ⟨-, hmem⟩)
      · exact Or.inl hnone
      · exact Or.inl fun x hx hk => hne (hblank x hx hk)
      · exact Or.inr hmem

section Example

/-- A graded result of the student. -/
def gradedResult (studentID : String) (grade : Rat) : Result :=
  { Result.init 0 with studentID, assignmentID := "quiz", grade, isSubmitted := true }

def quizPath : DocPath := ⟨Strings.assignment, "quiz"⟩

/-- A database with the one assignment `quiz` and the given results. -/
def quizStore (rs : List Result) : Store :=
  Store.apply (fun _ => ∅) (.setMerge quizPath Strings.results (storedValue rs))

/-- The local copy of `quiz`, with one problem, that shows the given results. -/
def quizAssignment (rs : List Result) : Assignment :=
  { Assignment.new "quiz" 0 with results := some rs, problems := some [⟨"1 + 1", "2"⟩] }

theorem insertResult_replaces_first :
    ∃ a' ws after, insertResult (quizAssignment [gradedResult "s_bob" 1]) (some "s_ann") 0
        (gradedResult "s_ann" 1) = some (a', ws)
      ∧ Stores quizPath ((quizStore [gradedResult "s_bob" 1]).applyAll ws) (some after)
      ∧ Replaced [gradedResult "s_bob" 1] after (gradedResult "s_ann" 1) := by
  have hpath : documentPath Strings.assignment "quiz" = some quizPath := by decide
  have hstored : Stores quizPath (quizStore [gradedResult "s_bob" 1])
      (some [gradedResult "s_bob" 1]) := stores_setMerge _ _ _
  have hnodup : (((some [gradedResult "s_bob" 1]).getD []).map Result.studentID).Nodup := by
    decide
  have hr : (gradedResult "s_ann" 1).studentID = "s_ann" := rfl
  have hnone : ∀ x ∈ (some [gradedResult "s_bob" 1]).getD [], x.studentID ≠ "s_ann" := by
    decide
  exact (insertResult_replaces_iff 0 rfl hpath hstored rfl hnodup hr).mpr (Or.inl hnone)

/-- Ann submits once more in a class where Bob has a result: Bob's is gone. -/
theorem insertResult_drops_classmate :
    let stored := [gradedResult "s_ann" 0, gradedResult "s_bob" 1]
    let a := quizAssignment stored
    let s := quizStore stored
    let r := gradedResult "s_ann" 1
    Stores quizPath s (some stored) ∧ a.results = some stored
      ∧ (stored.map Result.studentID).Nodup
      ∧ ¬ ∃ a' ws after, insertResult a (some "s_ann") 0 r = some (a', ws)
          ∧ Stores quizPath (s.applyAll ws) (some after) ∧ Replaced stored after r := by
  intro stored a s r
  have hs : Stores quizPath s (some stored) := stores_setMerge _ _ _
  refine ⟨hs, rfl, by decide, ?_⟩
  rintro ⟨a', ws, after, hins, hafter, -, hkept⟩
  obtain ⟨b, vs, hb, hvs⟩ :=
    stores_insertResult 0 (a := a) (u := "s_ann") (r := r) rfl (by decide) hs
  obtain ⟨-, rfl⟩ := Prod.mk.inj (Option.some.inj (hins.symm.trans hb))
  have hafter : after = [r] := Option.some.inj (hafter.unique hvs)
  have hbob := hkept (gradedResult "s_bob" 1) (by decide) (by decide)
  rw [hafter] at hbob
  exact absurd hbob (by decide)

end Example

end Quiz

end GradeIo
