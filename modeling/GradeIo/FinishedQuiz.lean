import GradeIo.Lib.Search
import GradeIo.Populate

/-!
# From a finished quiz to its result

`QuizResults` looks its assignment up by name among those of the class and hands
the position to `StudentAssignmentOverview`, which takes what stands there. The
search goes on to the last assignment of that name, so it comes back to
`CurrentAssignment` exactly if none behind it is called the same
(`leadsBack_iff`).
-/

namespace GradeIo.QuizResults

open Screen

/-- The loop of `findAssignments`. -/
def findAssignments (listAssignments assignments : List Assignment) : List Assignment :=
  listAssignments ++ assignments

/-- The position on the submit button selects, on the same list, the assignment
that was the current one. -/
def LeadsBack (caseInsensitiveCompare : String → String → Bool) (currentAssignment : Assignment)
    (assignments : List Assignment) : Prop :=
  ∃ assignIndex assignment,
    giveSubmitGesture caseInsensitiveCompare currentAssignment (findAssignments [] assignments) =
      .ok assignIndex
    ∧ getAssignment assignments assignIndex = .ok assignment
    ∧ assignment.id = currentAssignment.id

section

variable {compare : String → String → Bool} {current a : Assignment} {name : String}
  {assignments : List Assignment}

/-- The assignment is called the same. -/
def SameName (compare : String → String → Bool) (name : String) (a : Assignment) : Bool :=
  a.name.any fun n => compare n name

/-- What the list has to be: everything has a name, and the last assignment of
the name of the current one, or the first one if there is none, has its id. -/
def Recovers (compare : String → String → Bool) (current : Assignment)
    (assignments : List Assignment) : Prop :=
  ∃ name, current.name = some name ∧ (∀ a ∈ assignments, a.name ≠ none)
    ∧ ∃ before a after, assignments = before ++ a :: after ∧ a.id = current.id
      ∧ (before = [] ∨ SameName compare name a = true)
      ∧ ∀ b ∈ after, SameName compare name b = false

/-- The loop over names that are all there. -/
theorem foldlM_eq_ok_iff (hname : current.name = some name) (l : List (Assignment × Nat))
    (found assignIndex : Nat) :
    l.foldlM (fun assignNum i => do
        let name ← Screen.unwrap i.1.name
        let current ← Screen.unwrap current.name
        pure (if compare name current then i.2 else assignNum) : Nat → _ → Screen Nat) found =
        .ok assignIndex ↔
      (∀ i ∈ l, i.1.name ≠ none)
        ∧ Search.lastFrom (SameName compare name) found l = assignIndex := by
  induction l generalizing found with
  | nil =>
      rw [List.foldlM_nil]
      simp [Search.lastFrom, pure, Except.pure]
  | cons i l ih =>
      rw [List.foldlM_cons, List.forall_mem_cons, and_assoc]
      cases hi : i.1.name with
      | none =>
          constructor
          · intro h
            cases h
          · rintro ⟨h, -⟩
            exact absurd rfl h
      | some n =>
          have hsame : SameName compare name i.1 = compare n name := by
            rw [SameName, hi]
            rfl
          rw [Search.lastFrom_cons, hsame, hname]
          show (List.foldlM _ (if compare n name then i.2 else found) l) = _ ↔ _
          rw [← hname, ih]
          simp

theorem giveSubmitGesture_eq_ok_iff (hne : assignments ≠ []) {assignIndex : Nat} :
    giveSubmitGesture compare current assignments = .ok assignIndex ↔
      ∃ name, current.name = some name ∧ (∀ a ∈ assignments, a.name ≠ none)
        ∧ Search.lastIndex (SameName compare name) assignments = assignIndex := by
  have hnames : (∀ i ∈ assignments.zipIdx, i.1.name ≠ none) ↔ ∀ a ∈ assignments, a.name ≠ none := by
    have hfst := List.zipIdx_map_fst 0 assignments
    constructor
    · intro h a ha
      rw [← hfst] at ha
      obtain ⟨i, hi, rfl⟩ := List.mem_map.mp ha
      exact h i hi
    · intro h i hi
      exact h i.1 (hfst ▸ List.mem_map_of_mem hi)
  cases hname : current.name with
  | none =>
      cases assignments with
      | nil => exact absurd rfl hne
      | cons a assignments =>
          constructor
          · intro h
            rw [giveSubmitGesture, List.zipIdx_cons, List.foldlM_cons, hname] at h
            cases ha : a.name with
            | none =>
                rw [ha] at h
                cases h
            | some n =>
                rw [ha] at h
                cases h
          · rintro ⟨name, h, -⟩
            cases h
  | some name =>
      rw [giveSubmitGesture, foldlM_eq_ok_iff hname, hnames]
      simp [Search.lastIndex]

theorem getAssignment_eq_ok_iff {assignIndex : Nat} :
    getAssignment assignments assignIndex = .ok a ↔
      assignments[assignIndex]? = some a ∧ a.name ≠ none := by
  have hget : getAssignment assignments assignIndex =
      (Screen.item assignments assignIndex >>= fun assignment =>
        Screen.unwrap assignment.name >>= fun _ => pure assignment) := rfl
  rw [hget, bind_eq_ok]
  constructor
  · rintro ⟨b, hb, h⟩
    obtain ⟨name, hname, h⟩ := bind_eq_ok.mp h
    obtain rfl := Except.ok.inj h
    exact ⟨item_eq_ok.mp hb, by rw [unwrap_eq_ok.mp hname]; exact Option.some_ne_none name⟩
  · rintro ⟨ha, hname⟩
    obtain ⟨name, hname⟩ := Option.ne_none_iff_exists'.mp hname
    exact ⟨a, item_eq_ok.mpr ha, by rw [unwrap_eq_ok.mpr hname]; rfl⟩

/-- For every list and every comparison of names. -/
theorem leadsBack_iff : LeadsBack compare current assignments ↔
    Recovers compare current assignments := by
  unfold LeadsBack Recovers findAssignments
  rw [List.nil_append]
  rcases eq_or_ne assignments [] with rfl | hne
  · constructor
    · rintro ⟨assignIndex, a, -, ha, -⟩
      rw [getAssignment_eq_ok_iff] at ha
      simp at ha
    · rintro ⟨name, -, -, before, a, after, hnil, -⟩
      simp at hnil
  · constructor
    · rintro ⟨assignIndex, a, hindex, ha, hid⟩
      obtain ⟨name, hname, hnames, rfl⟩ := (giveSubmitGesture_eq_ok_iff hne).mp hindex
      obtain ⟨before, after, heq, hbefore, hafter⟩ :=
        Search.getElem?_lastIndex_iff.mp (getAssignment_eq_ok_iff.mp ha).1
      exact ⟨name, hname, hnames, before, a, after, heq, hid, hbefore, hafter⟩
    · rintro ⟨name, hname, hnames, before, a, after, heq, hid, hbefore, hafter⟩
      have ha := Search.getElem?_lastIndex_iff.mpr ⟨before, after, heq, hbefore, hafter⟩
      exact ⟨_, a, (giveSubmitGesture_eq_ok_iff hne).mpr ⟨name, hname, hnames, rfl⟩,
        getAssignment_eq_ok_iff.mpr ⟨ha, hnames a (heq ▸ by simp)⟩, hid⟩

end

/-! ## Two quizzes of one name -/

section Twins

def twin (id : String) : Assignment := { Assignment.new id 0 with name := some "Quiz" }

/-- After the first of two quizzes of one name, the result of the second is shown. -/
theorem not_leadsBack : ¬ ∀ compare : String → String → Bool, (∀ name, compare name name = true) →
    ∀ current assignments, (assignments.map Assignment.id).Nodup → current ∈ assignments →
      LeadsBack compare current assignments := by
  intro h
  have hback := h (fun s t => s.toLower = t.toLower) (by simp) (twin "q1") [twin "q1", twin "q2"]
    (by decide) List.mem_cons_self
  obtain ⟨assignIndex, a, hindex, ha, hid⟩ := hback
  obtain ⟨name, hname, -, rfl⟩ := (giveSubmitGesture_eq_ok_iff (List.cons_ne_nil _ _)).mp hindex
  obtain rfl : "Quiz" = name := Option.some.inj hname
  have hlast : Search.lastIndex (SameName (fun s t => s.toLower = t.toLower) "Quiz")
      [twin "q1", twin "q2"] = 1 := by
    simp [Search.lastIndex, Search.lastFrom, SameName, twin]
  rw [hlast] at ha
  obtain rfl : twin "q2" = a := Option.some.inj (getAssignment_eq_ok_iff.mp ha).1
  exact absurd hid (by decide)

end Twins

end GradeIo.QuizResults
