import GradeIo.Lib.Average
import GradeIo.Populate

/-!
# The overall grade

Four screens show the average of a student's grades, each with a `findGrade` of
its own. They share the loop over the assignments (`percentGrade`), which is the
mean of the grades (`percentGrade_eq`), and differ in the last step: three
compare the percentage with zero, which sorts out the quotient of no grades, and
the teacher's does not.
-/

namespace GradeIo

open Average Screen

/-- What `findGrade` has computed before it sets the label. -/
def percentGrade (id : Option String) (listAssignments : List Assignment) : Screen Number := do
  let (totalGrade, numAssignsTaken) ← listAssignments.foldlM (addGrade id) (0, 0)
  let avgGrade := Number.div totalGrade numAssignsTaken
  pure (avgGrade.scale 100)

/-- The screens keep this number, where it is one. -/
theorem findGrade_eq_percentGrade (id : Option String) (assigns : List Assignment) :
    findGrade id assigns = (percentGrade id assigns).map Number.toOption := by
  unfold findGrade percentGrade
  cases hloop : assigns.foldlM (addGrade id) (0, 0) with
  | error stop => rfl
  | ok taken =>
      obtain ⟨totalGrade, numAssignsTaken⟩ := taken
      refine congrArg Except.ok ?_
      by_cases hzero : numAssignsTaken = 0
      · rw [if_pos hzero, hzero]
        rfl
      · have hne : (numAssignsTaken : Rat) ≠ 0 := Nat.cast_ne_zero.mpr hzero
        rw [if_neg hzero, Number.div, if_neg hne]
        rfl

/-- The text with the guard. -/
def guardedGrade (percentGrade : Number) : String :=
  if percentGrade.nonneg then percentGrade.format2f ++ "%" else "N/A"

namespace OverallGrade

def Homepage.findGrade (currentUserID : Option String) (assigns : List Assignment) :
    Screen String := do
  pure (guardedGrade (← percentGrade currentUserID assigns))

def StudentAssignmentsView.findGrade (currentUserID : Option String)
    (listAssignments : List Assignment) : Screen String := do
  pure (guardedGrade (← percentGrade currentUserID listAssignments))

def ParentStudentOverview.findGrade (studentID : String) (listAssignments : List Assignment) :
    Screen String := do
  pure (guardedGrade (← percentGrade (some studentID) listAssignments))

def TeacherOverviewStudentList.findGrade (studentID : Option String)
    (listAssignments : List Assignment) : Screen String := do
  let percentGrade ← percentGrade studentID listAssignments
  pure (percentGrade.format2f ++ "%")

/-! ## The specification -/

/-- The student's first grade in every assignment that has one. -/
def grades (id : String) (assigns : List Assignment) : List Rat :=
  assigns.filterMap fun a => a.gradeOf id

/-- The mean in percent, or `N/A`. -/
def shown (id : String) (assigns : List Assignment) : String :=
  if grades id assigns = [] then "N/A"
  else (Number.number ((grades id assigns).sum / (grades id assigns).length * 100)).format2f ++ "%"

/-- The student has a result in one of the assignments. -/
def HasResult (id : String) (assigns : List Assignment) : Prop :=
  ∃ a ∈ assigns, ∃ r ∈ a.results.getD [], r.studentID = id

section

variable {id : String} {assigns : List Assignment}

theorem grades_ne_nil_iff : grades id assigns ≠ [] ↔ HasResult id assigns := by
  rw [ne_eq, grades, List.filterMap_eq_nil_iff]
  simp only [Assignment.gradeOf, Option.map_eq_none_iff, List.find?_eq_none, decide_eq_true_eq,
    not_forall, not_not, exists_prop]
  rfl

theorem mem_grades {x : Rat} (hx : x ∈ grades id assigns) :
    ∃ a ∈ assigns, ∃ r ∈ a.results.getD [], r.grade = x := by
  obtain ⟨a, ha, hx⟩ := List.mem_filterMap.mp hx
  obtain ⟨r, hr, rfl⟩ := Option.map_eq_some_iff.mp hx
  exact ⟨a, ha, r, List.mem_of_find?_eq_some hr, rfl⟩

/-- One round of the loop. -/
theorem addGrade_eq (taken : Rat × Nat) (a : Assignment) :
    addGrade (some id) taken a = pure (tally taken (a.gradeOf id)) := by
  have hresult := a.resultOf_eq id
  rw [Assignment.gradeOf]
  cases hfind : (a.results.getD []).find? fun r => r.studentID = id with
  | none =>
      rw [hfind] at hresult
      rw [addGrade, hresult]
      rfl
  | some r =>
      rw [hfind] at hresult
      rw [addGrade, hresult]
      rfl

theorem percentGrade_eq (id : String) (assigns : List Assignment) :
    percentGrade (some id) assigns = .ok ((Number.mean (grades id assigns)).scale 100) := by
  rw [percentGrade, foldlM_tally fun acc a _ => addGrade_eq acc a, zero_add, zero_add]
  rfl

theorem mean_grades (h : HasResult id assigns) :
    (Number.mean (grades id assigns)).scale 100 =
      .number ((grades id assigns).sum / (grades id assigns).length * 100) := by
  rw [Number.mean_of_ne_nil (grades_ne_nil_iff.mpr h), Number.scale]

/-- With the guard the text is the one of the specification, whatever the list. -/
theorem guardedGrade_mean (hgrade : ∀ a ∈ assigns, ∀ r ∈ a.results.getD [], 0 ≤ r.grade) :
    guardedGrade ((Number.mean (grades id assigns)).scale 100) = shown id assigns := by
  have hnonneg : ∀ x ∈ grades id assigns, 0 ≤ x := by
    intro x hx
    obtain ⟨a, ha, r, hr, rfl⟩ := mem_grades hx
    exact hgrade a ha r hr
  rw [guardedGrade, shown]
  by_cases hnil : grades id assigns = []
  · rw [if_pos hnil, hnil]
    rfl
  · have hpos : ((Number.mean (grades id assigns)).scale 100).nonneg = true :=
      (Number.nonneg_mean_iff hnonneg (by norm_num)).mpr hnil
    rw [if_pos hpos, if_neg hnil, mean_grades (grades_ne_nil_iff.mp hnil)]

/-- Without it there is the text of a number that is none. -/
theorem findGrade_teacher_eq (id : String) (assigns : List Assignment) :
    TeacherOverviewStudentList.findGrade (some id) assigns =
      .ok (if grades id assigns = [] then "nan%" else shown id assigns) := by
  rw [TeacherOverviewStudentList.findGrade, percentGrade_eq]
  by_cases hnil : grades id assigns = []
  · rw [if_pos hnil, hnil]
    rfl
  · rw [if_neg hnil, mean_grades (grades_ne_nil_iff.mp hnil), shown, if_neg hnil]
    rfl

/-- The four texts agree exactly for a student with a result. -/
theorem texts_agree_iff (hgrade : ∀ a ∈ assigns, ∀ r ∈ a.results.getD [], 0 ≤ r.grade) :
    (Homepage.findGrade (some id) assigns = .ok (shown id assigns)
        ∧ StudentAssignmentsView.findGrade (some id) assigns = .ok (shown id assigns)
        ∧ ParentStudentOverview.findGrade id assigns = .ok (shown id assigns)
        ∧ TeacherOverviewStudentList.findGrade (some id) assigns = .ok (shown id assigns)) ↔
      ∃ a ∈ assigns, ∃ r ∈ a.results.getD [], r.studentID = id := by
  have hguarded : (percentGrade (some id) assigns).map guardedGrade = .ok (shown id assigns) := by
    rw [percentGrade_eq, Except.map, guardedGrade_mean hgrade]
  have hteacher : TeacherOverviewStudentList.findGrade (some id) assigns = .ok (shown id assigns) ↔
      HasResult id assigns := by
    rw [findGrade_teacher_eq, ← grades_ne_nil_iff]
    by_cases hnil : grades id assigns = []
    · rw [if_pos hnil, shown, if_pos hnil]
      exact iff_of_false (by decide) (absurd hnil)
    · rw [if_neg hnil]
      exact iff_of_true rfl hnil
  constructor
  · exact fun h => hteacher.mp h.2.2.2
  · exact fun h => ⟨hguarded, hguarded, hguarded, hteacher.mpr h⟩

end

/-- Ann's only result, of three that she might have. -/
def annsQuiz : Assignment where
  results := some [{ Result.init 0 with studentID := "s_ann", grade := 1 / 2 }]
  problems := some []
  dueDate := none
  id := some "quiz"
  classID := none
  filePath := none
  description := none
  name := none

theorem texts_agree_ann :
    StudentAssignmentsView.findGrade (some "s_ann") [annsQuiz] =
      TeacherOverviewStudentList.findGrade (some "s_ann") [annsQuiz] := by
  have hgrade : ∀ a ∈ [annsQuiz], ∀ r ∈ a.results.getD [], 0 ≤ r.grade := by decide +kernel
  have hann : ∃ a ∈ [annsQuiz], ∃ r ∈ a.results.getD [], r.studentID = "s_ann" := by decide +kernel
  obtain ⟨-, hstudent, -, hteacher⟩ := (texts_agree_iff hgrade).mpr hann
  exact hstudent.trans hteacher.symm

/-- Of a student without a result the teacher sees `nan%`. -/
theorem texts_differ_tom :
    Homepage.findGrade (some "s_tom") [annsQuiz] = .ok "N/A"
      ∧ TeacherOverviewStudentList.findGrade (some "s_tom") [annsQuiz] = .ok "nan%"
      ∧ Homepage.findGrade (some "s_tom") [annsQuiz] ≠
          TeacherOverviewStudentList.findGrade (some "s_tom") [annsQuiz] := by
  decide +kernel

end OverallGrade

end GradeIo
