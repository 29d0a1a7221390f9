import GradeIo.Assignment
import GradeIo.User
import Mathlib.Data.Rat.Cast.Order
import Mathlib.Tactic.Linarith
import Mathlib.Tactic.Ring

/-!
# List screens that scroll

The loop of `makeScrollView`, which eleven screens have a copy of: one
container view for each entry, under one another, and a content that is made
larger than the view when the last container starts below the view. A container
that starts above the lower edge and ends below it is cut off: everything can be
scrolled to exactly if the last one is not of these (`ScrollScreen.reachable_iff`).

Lengths are exact.
-/

namespace GradeIo

structure CGSize where
  width : Rat
  height : Rat
deriving DecidableEq, Repr

structure CGRect where
  x : Rat
  y : Rat
  width : Rat
  height : Rat
deriving DecidableEq, Repr

/-- The frames of the container views, and the size of what scrolls. -/
structure ScrollView where
  viewArray : List CGRect
  contentSize : CGSize
deriving DecidableEq, Repr

namespace ScrollView

def multiplier (i : Nat) : Rat :=
  if i = 1 then 150
  else if i > 1 then (i : Rat) * 100 + 50 * i
  else i

/-- A round of the loop, over the views and `newHeight`. -/
def addContainer (x width : Rat) (made : List CGRect × Rat) (i : Nat) : List CGRect × Rat :=
  (made.1 ++ [⟨x, multiplier i, width, 100⟩], multiplier i)

/-- `frame` is the size of the screen's view. -/
def make (x width : Rat) (frame : CGSize) (count : Nat) : ScrollView :=
  let made := (List.range count).foldl (addContainer x width) ([], 0)
  { viewArray := made.1
    contentSize :=
      if made.2 > frame.height then ⟨frame.width, made.2 + 350⟩ else ⟨frame.width, frame.height⟩ }

end ScrollView

/-! ## The screens -/

def StudentAssignmentsView.scrollView (frame : CGSize) (listAssignments : List Assignment) :
    ScrollView :=
  .make 0 frame.width frame listAssignments.length

/-- The questions of a submitted assignment. -/
def StudentAssignmentOverview.scrollView (frame : CGSize) (listQuestions : List Problem) :
    ScrollView :=
  .make 0 frame.width frame listQuestions.length

def TeacherStudentListPage.scrollView (frame : CGSize) (studentList : List Student) :
    ScrollView :=
  .make 0 frame.width frame studentList.length

def TeacherAssignmentPage.scrollView (frame : CGSize) (listAssignments : List Assignment) :
    ScrollView :=
  .make 0 frame.width frame listAssignments.length

def TeacherFiles.scrollView (frame : CGSize) (listAssignments : List Assignment) : ScrollView :=
  .make 0 frame.width frame listAssignments.length

def TeacherAssignmentOverview.scrollView (frame : CGSize) (studentList : List Student) :
    ScrollView :=
  .make 0 frame.width frame studentList.length

def TeacherOverviewStudentList.scrollView (frame : CGSize) (listAssignments : List Assignment) :
    ScrollView :=
  .make 0 frame.width frame listAssignments.length

def TeacherStudentAnswers.scrollView (frame : CGSize) (listQuestions : List Problem) :
    ScrollView :=
  .make 0 frame.width frame listQuestions.length

/-- In `getParentChildren`; the views are narrower and set in. -/
def ParentHomepage.scrollView (frame : CGSize) (listStudents : List Student) : ScrollView :=
  .make (frame.width / 2.7) (frame.width / 4) frame listStudents.length

def ParentStudentOverview.scrollView (frame : CGSize) (listAssignments : List Assignment) :
    ScrollView :=
  .make 0 frame.width frame listAssignments.length

def ParentStudentAssignmentOverview.scrollView (frame : CGSize) (listQuestions : List Problem) :
    ScrollView :=
  .make 0 frame.width frame listQuestions.length

/-- A screen with what it lists. -/
inductive ScrollScreen where
  | studentAssignmentsView (listAssignments : List Assignment)
  | studentAssignmentOverview (listQuestions : List Problem)
  | teacherStudentListPage (studentList : List Student)
  | teacherAssignmentPage (listAssignments : List Assignment)
  | teacherFiles (listAssignments : List Assignment)
  | teacherAssignmentOverview (studentList : List Student)
  | teacherOverviewStudentList (listAssignments : List Assignment)
  | teacherStudentAnswers (listQuestions : List Problem)
  | parentHomepage (listStudents : List Student)
  | parentStudentOverview (listAssignments : List Assignment)
  | parentStudentAssignmentOverview (listQuestions : List Problem)

namespace ScrollScreen

def scrollView (frame : CGSize) : ScrollScreen → ScrollView
  | studentAssignmentsView l => StudentAssignmentsView.scrollView frame l
  | studentAssignmentOverview l => StudentAssignmentOverview.scrollView frame l
  | teacherStudentListPage l => TeacherStudentListPage.scrollView frame l
  | teacherAssignmentPage l => TeacherAssignmentPage.scrollView frame l
  | teacherFiles l => TeacherFiles.scrollView frame l
  | teacherAssignmentOverview l => TeacherAssignmentOverview.scrollView frame l
  | teacherOverviewStudentList l => TeacherOverviewStudentList.scrollView frame l
  | teacherStudentAnswers l => TeacherStudentAnswers.scrollView frame l
  | parentHomepage l => ParentHomepage.scrollView frame l
  | parentStudentOverview l => ParentStudentOverview.scrollView frame l
  | parentStudentAssignmentOverview l => ParentStudentAssignmentOverview.scrollView frame l

/-- The number of entries. -/
def count : ScrollScreen → Nat
  | studentAssignmentsView l => l.length
  | studentAssignmentOverview l => l.length
  | teacherStudentListPage l => l.length
  | teacherAssignmentPage l => l.length
  | teacherFiles l => l.length
  | teacherAssignmentOverview l => l.length
  | teacherOverviewStudentList l => l.length
  | teacherStudentAnswers l => l.length
  | parentHomepage l => l.length
  | parentStudentOverview l => l.length
  | parentStudentAssignmentOverview l => l.length

end ScrollScreen

/-! ## The loop -/

namespace ScrollView

variable {x width : Rat} {frame : CGSize} {count : Nat}

/-- The three cases are one. -/
theorem multiplier_eq (i : Nat) : multiplier i = 150 * i := by
  unfold multiplier
  split
  · rename_i h
    rw [h, Nat.cast_one, mul_one]
  · split
    · ring
    · rename_i h₁ h₂
      obtain rfl : i = 0 := by omega
      simp

theorem foldl_addContainer (x width : Rat) (count : Nat) :
    (List.range (count + 1)).foldl (addContainer x width) ([], 0) =
      ((List.range (count + 1)).map fun i : Nat => ⟨x, 150 * i, width, 100⟩,
        150 * (count : Rat)) := by
  induction count with
  | zero => simp [addContainer, multiplier]
  | succ count ih =>
      rw [List.range_succ, List.foldl_append, ih, List.map_append]
      simp [addContainer, multiplier_eq]

theorem viewArray_make (count : Nat) : (make x width frame count).viewArray =
    (List.range count).map fun i : Nat => ⟨x, 150 * i, width, 100⟩ := by
  cases count with
  | zero => rfl
  | succ count => exact congrArg Prod.fst (foldl_addContainer x width count)

theorem contentSize_make (count : Nat) : (make x width frame (count + 1)).contentSize =
    if 150 * (count : Rat) > frame.height then ⟨frame.width, 150 * count + 350⟩ else frame := by
  unfold make
  rw [foldl_addContainer]

/-! ## What can be scrolled to -/

/-- One view for each entry, each below the one before, all inside the content. -/
structure Reachable (v : ScrollView) (count : Nat) : Prop where
  length : v.viewArray.length = count
  ordered : v.viewArray.Pairwise fun a b => a.y + a.height ≤ b.y
  inside : ∀ a ∈ v.viewArray, 0 ≤ a.y ∧ a.y + a.height ≤ v.contentSize.height

theorem ordered_make (count : Nat) :
    (make x width frame count).viewArray.Pairwise fun a b => a.y + a.height ≤ b.y := by
  rw [viewArray_make, List.pairwise_map]
  refine List.pairwise_lt_range.imp fun {i j} hij => ?_
  have hle : (i : Rat) + 1 ≤ j := by exact_mod_cast hij
  show 150 * (i : Rat) + 100 ≤ 150 * j
  linarith

/-- The last view decides. -/
theorem inside_make_iff (count : Nat) :
    (∀ a ∈ (make x width frame (count + 1)).viewArray,
      0 ≤ a.y ∧ a.y + a.height ≤ (make x width frame (count + 1)).contentSize.height) ↔
      150 * (count : Rat) + 100 ≤ (make x width frame (count + 1)).contentSize.height := by
  rw [viewArray_make]
  constructor
  · intro h
    exact (h _ (List.mem_map.mpr ⟨count, by simp, rfl⟩)).2
  · intro h a ha
    obtain ⟨i, hi, rfl⟩ := List.mem_map.mp ha
    have hle : (i : Rat) ≤ count := by
      exact_mod_cast Nat.lt_succ_iff.mp (List.mem_range.mp hi)
    have hnonneg : (0 : Rat) ≤ i := by exact_mod_cast Nat.zero_le i
    refine ⟨?_, ?_⟩
    · show 0 ≤ 150 * (i : Rat)
      linarith
    · show 150 * (i : Rat) + 100 ≤ _
      linarith

theorem reachable_make_iff (count : Nat) :
    (make x width frame (count + 1)).Reachable (count + 1) ↔
      frame.height < 150 * count ∨ 150 * count + 100 ≤ frame.height := by
  have hinside : (make x width frame (count + 1)).Reachable (count + 1) ↔
      150 * (count : Rat) + 100 ≤ (make x width frame (count + 1)).contentSize.height := by
    rw [← inside_make_iff]
    constructor
    · exact Reachable.inside
    · intro h
      exact ⟨by simp [viewArray_make], ordered_make _, h⟩
  rw [hinside, contentSize_make]
  by_cases h : 150 * (count : Rat) > frame.height
  · rw [if_pos h]
    constructor
    · exact fun _ => Or.inl h
    · intro _
      show 150 * (count : Rat) + 100 ≤ 150 * count + 350
      linarith
  · rw [if_neg h]
    constructor
    · exact Or.inr
    · intro hor
      exact hor.resolve_left h

end ScrollView

namespace ScrollScreen

theorem scrollView_eq_make (screen : ScrollScreen) (frame : CGSize) :
    ∃ x width, screen.scrollView frame = .make x width frame screen.count := by
  cases screen <;> exact ⟨_, _, rfl⟩

/-- Of `n + 1` entries everything can be scrolled to unless the view ends
within the last of them. -/
theorem reachable_iff (screen : ScrollScreen) (frame : CGSize) {n : Nat}
    (hcount : screen.count = n + 1) :
    (screen.scrollView frame).Reachable screen.count ↔
      frame.height < 150 * n ∨ 150 * n + 100 ≤ frame.height := by
  obtain ⟨x, width, heq⟩ := scrollView_eq_make screen frame
  rw [heq, hcount]
  exact ScrollView.reachable_make_iff n

/-- The second of two questions starts at 150 and ends at 250. -/
theorem reachable_questions :
    ((studentAssignmentOverview [⟨"1 + 1", "2"⟩, ⟨"2 + 2", "4"⟩]).scrollView
      ⟨375, 812⟩).Reachable 2 :=
  (reachable_iff (studentAssignmentOverview [⟨"1 + 1", "2"⟩, ⟨"2 + 2", "4"⟩]) ⟨375, 812⟩
    (n := 1) rfl).mpr (Or.inr (by norm_num))

/-- The last of six students starts at 750 and ends at 850, below a content of
the height of the view. -/
theorem not_reachable : ∃ screen : ScrollScreen, ∃ frame : CGSize,
    0 < screen.count ∧ 0 < frame.height ∧
      ¬ (screen.scrollView frame).Reachable screen.count := by
  refine ⟨teacherStudentListPage (List.replicate 6 (.new "s_ann")), ⟨375, 812⟩,
    by decide, by norm_num, ?_⟩
  intro h
  rcases (ScrollView.reachable_make_iff 5).mp h with hlt | hle
  · norm_num at hlt
  · norm_num at hle

end ScrollScreen

end GradeIo
