import GradeIo.AverageTimes

/-!
# The teacher's overview of an assignment

`populateAssignPageLabels` with the loops it comes to, over the array of the
views. All of its accesses but one are safe for every roster and every list of
results (`makeScrollView_eq`); the first student's result is taken without
looking whether there is one.
-/

namespace GradeIo

open Screen

namespace TeacherAssignmentOverview

def getTotalTime (assignment : Assignment) (student : String) : Screen Rat := do
  let result ← assignment.resultAt (assignment.getResultIndexByID student)
  let questMetrics ← Screen.unwrap result.timeTakenPerQuestion
  pure questMetrics.sum

/-- One round over the times, which are read by an index. -/
def addTimeAt (timeInt : List Rat) (acc : Rat × Nat) (_i : Rat) : Screen (Rat × Nat) := do
  let (totTime, tIndex) := acc
  let time ← Screen.item timeInt tIndex
  pure (totTime + time, tIndex + 1)

/-- What is put into the view at an index. -/
def viewAt (assignment : Assignment) (studentList : List Student) (curIndex : Nat) :
    Screen StudentRow := do
  let student ← Screen.item studentList curIndex
  let studentID ← Screen.unwrap student.id
  let resultIndex := assignment.getResultIndexByID studentID
  let firstName ← Screen.unwrap student.firstName
  let lastName ← Screen.unwrap student.lastName
  if resultIndex ≠ -1 then
    let studentResult ← assignment.resultAt resultIndex
    if studentResult.isSubmitted then
      let timeInt ← Screen.unwrap studentResult.timeTakenPerQuestion
      -- the sum is not shown, but its loop is run
      let _ ← timeInt.foldlM (addTimeAt timeInt) (0, 0)
      let sOverallTime ← getTotalTime assignment studentID
      pure { studentID, firstName, lastName,
             submission := some (studentResult.grade * 100, sOverallTime) }
    else pure { studentID, firstName, lastName, submission := none }
  else pure { studentID, firstName, lastName, submission := none }

/-- There is a view for every student. -/
def makeScrollView (assignment : Assignment) (studentList : List Student) :
    Screen (List StudentRow) :=
  (List.range studentList.length).mapM (viewAt assignment studentList)

def populateAssignPageLabels (assignment : Assignment) (studentList : List Student) :
    Screen Shown := do
  let _ ← ranResult assignment studentList
  let avgTime ← getAvgTime assignment studentList
  let rows ← makeScrollView assignment studentList
  pure { assignment, avgTime, rows }

/-! ## The loops -/

section

variable {a : Assignment} {students : List Student}

/-- Reading by the index stays within the times. -/
theorem foldlM_addTimeAt (times l : List Rat) (i : Nat) (hi : i + l.length ≤ times.length)
    (sum : Rat) :
    ∃ acc, l.foldlM (addTimeAt times) (sum, i) = .ok acc := by
  induction l generalizing i sum with
  | nil => exact ⟨_, rfl⟩
  | cons x l ih =>
      rw [List.length_cons] at hi
      have htime : Screen.item times i = .ok times[i] :=
        item_eq_ok.mpr (List.getElem?_eq_getElem (by omega))
      have hround : addTimeAt times (sum, i) x = .ok (sum + times[i], i + 1) := by
        simp only [addTimeAt, htime]
        rfl
      rw [List.foldlM_cons, hround]
      exact ih (i + 1) (by omega) (sum + times[i])

theorem resultAt_getResultIndexByID {id : String} {r : Result}
    (hr : a.resultOf (some id) = .ok (some r)) :
    a.getResultIndexByID id ≠ -1 ∧ a.resultAt (a.getResultIndexByID id) = .ok r := by
  rw [Assignment.resultOf_some] at hr
  by_cases hindex : a.getResultIndexByID id = -1
  · rw [if_pos hindex] at hr
    cases hr
  · rw [if_neg hindex] at hr
    obtain ⟨r', hr', heq⟩ := bind_eq_ok.mp hr
    obtain rfl := Option.some.inj (Except.ok.inj heq)
    exact ⟨hindex, hr'⟩

theorem getResultIndexByID_of_resultOf {id : String} (hnone : a.resultOf (some id) = .ok none) :
    a.getResultIndexByID id = -1 := by
  rw [Assignment.resultOf_some] at hnone
  by_contra hindex
  rw [if_neg hindex] at hnone
  obtain ⟨r, -, heq⟩ := bind_eq_ok.mp hnone
  cases Except.ok.inj heq

/-- The view at the student's index is the student's row. -/
theorem viewAt_eq {i : Nat} {student : Student} (hstudent : students[i]? = some student) :
    viewAt a students i = studentRow a student := by
  have hitem : Screen.item students i = .ok student := item_eq_ok.mpr hstudent
  unfold viewAt studentRow
  rw [hitem]
  show (Screen.unwrap student.id >>= _) = _
  refine congrArg (Screen.unwrap student.id >>= ·) (funext fun id => ?_)
  refine congrArg (Screen.unwrap student.firstName >>= ·) (funext fun firstName => ?_)
  refine congrArg (Screen.unwrap student.lastName >>= ·) (funext fun lastName => ?_)
  cases hfind : (a.results.getD []).find? fun r => r.studentID = id with
  | none =>
      have hnone := (a.resultOf_eq id).trans (congrArg Except.ok hfind)
      rw [if_neg (not_not.mpr (getResultIndexByID_of_resultOf hnone)), hnone]
      rfl
  | some r =>
      have hsome := (a.resultOf_eq id).trans (congrArg Except.ok hfind)
      obtain ⟨hindex, hat⟩ := resultAt_getResultIndexByID hsome
      have htotal : getTotalTime a id =
          Screen.unwrap r.timeTakenPerQuestion >>= fun times => pure times.sum := by
        rw [getTotalTime, hat]
        rfl
      rw [if_pos hindex, hat, hsome, htotal]
      show ite (r.isSubmitted = true) _ _ = ite (r.isSubmitted = true) _ _
      refine if_congr Iff.rfl ?_ rfl
      cases r.timeTakenPerQuestion with
      | none => rfl
      | some times =>
          obtain ⟨acc, hacc⟩ := foldlM_addTimeAt times times 0 (Nat.zero_add _).le 0
          show (times.foldlM (addTimeAt times) (0, 0) >>= _) = _
          rw [hacc]
          rfl

theorem makeScrollView_eq (a : Assignment) (students : List Student) :
    makeScrollView a students = students.mapM (studentRow a) := by
  have hviews : ∀ l : List Student, ∀ i, (∀ j < l.length, students[i + j]? = l[j]?) →
      (List.range' i l.length).mapM (viewAt a students) = l.mapM (studentRow a) := by
    intro l
    induction l with
    | nil => exact fun i _ => rfl
    | cons student l ih =>
        intro i h
        have hfirst : students[i]? = some student := h 0 (Nat.succ_pos _)
        have hrest : ∀ j < l.length, students[i + 1 + j]? = l[j]? := by
          intro j hj
          rw [Nat.add_right_comm]
          exact h (j + 1) (Nat.succ_lt_succ hj)
        rw [List.length_cons, List.range'_succ, List.mapM_cons, List.mapM_cons, viewAt_eq hfirst,
          ih (i + 1) hrest]
  rw [makeScrollView, List.range_eq_range']
  exact hviews students 0 fun j _ => by rw [Nat.zero_add]

/-- The screen of `populate`, once it has its assignment. -/
theorem populate_eq (assignIndex : Nat) (students : List Student) (res : List Assignment) :
    populate assignIndex students res =
      getAssignment res assignIndex >>= fun assignment =>
        populateAssignPageLabels assignment students := by
  simp only [populate, populateAssignPageLabels, makeScrollView_eq, getAvgTime]

/-! ## When it is populated -/

/-- The roster, as far as it is unwrapped. -/
def Named (students : List Student) : Prop :=
  ∀ s ∈ students, s.id ≠ none ∧ s.firstName ≠ none ∧ s.lastName ≠ none

theorem exists_studentRow {student : Student} (hid : student.id ≠ none)
    (hfirst : student.firstName ≠ none) (hlast : student.lastName ≠ none)
    (htimes : ∀ r ∈ a.results.getD [], r.timeTakenPerQuestion ≠ none) :
    ∃ row, studentRow a student = .ok row := by
  obtain ⟨id, hid⟩ := Option.ne_none_iff_exists'.mp hid
  obtain ⟨first, hfirst⟩ := Option.ne_none_iff_exists'.mp hfirst
  obtain ⟨last, hlast⟩ := Option.ne_none_iff_exists'.mp hlast
  unfold studentRow
  rw [unwrap_eq_ok.mpr hid, unwrap_eq_ok.mpr hfirst, unwrap_eq_ok.mpr hlast]
  show ∃ row, (a.resultOf (some id) >>= _) = .ok row
  rw [a.resultOf_eq id]
  cases hfind : (a.results.getD []).find? fun r => r.studentID = id with
  | none => exact ⟨_, rfl⟩
  | some r =>
      obtain ⟨times, hsome⟩ :=
        Option.ne_none_iff_exists'.mp (htimes r (List.mem_of_find?_eq_some hfind))
      by_cases hsubmitted : r.isSubmitted = true
      · refine ⟨{ studentID := id, firstName := first, lastName := last,
                  submission := some (r.grade * 100, times.sum) }, ?_⟩
        show ite (r.isSubmitted = true) _ _ = Except.ok _
        rw [if_pos hsubmitted, unwrap_eq_ok.mpr hsome]
        rfl
      · exact ⟨{ studentID := id, firstName := first, lastName := last, submission := none },
          if_neg hsubmitted⟩

/-- The first student has a result. -/
theorem exists_ranResult_iff (hnamed : Named students) :
    (∃ ran, ranResult a students = .ok ran) ↔
      ∃ first, students[0]? = some first
        ∧ ∃ r ∈ a.results.getD [], first.id = some r.studentID := by
  constructor
  · rintro ⟨ran, hran⟩
    obtain ⟨⟨first, hfirst, hid⟩, hresults⟩ := of_ranResult_eq_ok hran
    obtain ⟨results, hresults⟩ := Option.ne_none_iff_exists'.mp hresults
    obtain ⟨id, hsome⟩ :=
      Option.ne_none_iff_exists'.mp (hnamed first (List.mem_of_getElem? hfirst)).1
    obtain ⟨r, hr, hstudent⟩ := hid id hsome results hresults
    refine ⟨first, hfirst, r, ?_, hsome.trans (congrArg some hstudent.symm)⟩
    rwa [hresults]
  · rintro ⟨first, hfirst, r, hr, hid⟩
    cases hresults : a.results with
    | none => simp [hresults] at hr
    | some results =>
        rw [hresults, Option.getD_some] at hr
        have hitem : Screen.item students 0 = .ok first := item_eq_ok.mpr hfirst
        have hsearch : ∀ s ∈ students, ∃ o, a.resultOf s.id = .ok o := by
          intro s hs
          obtain ⟨id, hsome⟩ := Option.ne_none_iff_exists'.mp (hnamed s hs).1
          exact ⟨_, by rw [hsome, a.resultOf_eq id]⟩
        obtain ⟨o, ho⟩ := exists_findSomeM?_eq_ok hsearch
        have hran : ∃ ran, Screen.item results (a.getResultIndexByID r.studentID) = .ok ran := by
          rw [item_getResultIndexByID hresults]
          cases hfind : results.find? fun r' => r'.studentID = r.studentID with
          | none => simpa using List.find?_eq_none.mp hfind r hr
          | some ran => exact ⟨ran, rfl⟩
        obtain ⟨ran, hran⟩ := hran
        refine ⟨o.getD ran, ?_⟩
        have hresult : a.resultAt (a.getResultIndexByID r.studentID) = .ok ran := by
          rw [Assignment.resultAt, unwrap_eq_ok.mpr hresults]
          exact hran
        unfold ranResult
        rw [hitem]
        show (Screen.unwrap first.id >>= _) = _
        rw [unwrap_eq_ok.mpr hid]
        show (a.resultAt _ >>= _) = _
        rw [hresult]
        show (students.findSomeM? (fun j => a.resultOf j.id) >>= fun found =>
          (pure (found.getD ran) : Screen Result)) = _
        rw [ho]
        rfl

/-- The overview is populated, with a row for every student, exactly if the
first student has a result. -/
theorem populateAssignPageLabels_iff (hnamed : Named students)
    (htimes : ∀ r ∈ a.results.getD [], r.timeTakenPerQuestion ≠ none) :
    (∃ shown, populateAssignPageLabels a students = .ok shown
        ∧ shown.rows.length = students.length) ↔
      ∃ first, students[0]? = some first
        ∧ ∃ r ∈ a.results.getD [], first.id = some r.studentID := by
  rw [← exists_ranResult_iff hnamed]
  constructor
  · rintro ⟨shown, hshown, -⟩
    obtain ⟨ran, hran, -⟩ := bind_eq_ok.mp hshown
    exact ⟨ran, hran⟩
  · rintro ⟨ran, hran⟩
    obtain ⟨avg, havg⟩ := exists_getAvgTime (fun s hs => (hnamed s hs).1) htimes
    have hrow : ∀ s ∈ students, ∃ row, studentRow a s = .ok row := fun s hs =>
      exists_studentRow (hnamed s hs).1 (hnamed s hs).2.1 (hnamed s hs).2.2 htimes
    obtain ⟨rows, hrows, hlength⟩ := exists_mapM_eq_ok hrow
    refine ⟨{ assignment := a, avgTime := avg, rows }, ?_, hlength⟩
    unfold populateAssignPageLabels getAvgTime
    rw [hran, havg, makeScrollView_eq, hrows]
    rfl

end

/-- A class of two. -/
def annAndTom : List Student := [Student.new "s_ann", Student.new "s_tom"]

/-- The quiz that only Ann took. -/
def quizOfAnn : Assignment where
  results := some [{ Result.init 0 with studentID := "s_ann", isSubmitted := true }]
  problems := some []
  dueDate := none
  id := some "quiz"
  classID := none
  filePath := none
  description := none
  name := none

theorem populateAssignPageLabels_annFirst :
    ∃ shown, populateAssignPageLabels quizOfAnn annAndTom = .ok shown ∧ shown.rows.length = 2 := by
  have hnamed : Named annAndTom := by
    unfold Named
    decide
  refine (populateAssignPageLabels_iff hnamed (by decide +kernel)).mpr ?_
  exact ⟨Student.new "s_ann", rfl, _, List.mem_singleton.mpr rfl, rfl⟩

/-- With Tom first, the index is -1; without students, the first one is out of
range. -/
theorem populateAssignPageLabels_tomFirst :
    populateAssignPageLabels quizOfAnn annAndTom.reverse = .error .index
      ∧ populateAssignPageLabels quizOfAnn [] = .error .index :=
  ⟨rfl, rfl⟩

end TeacherAssignmentOverview

end GradeIo
