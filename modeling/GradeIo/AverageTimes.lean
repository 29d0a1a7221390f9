import GradeIo.Lib.Keyed
import GradeIo.OverallGrade

/-!
# Average times

The average time of an assignment is computed over its results by
`getAverageTime`, and over the roster by the teacher's and the parent's screen;
looking up every rostered student's result gives the results in the order of the
roster, so that all three agree. `getAveragePerQuestionTime` divides the first
total once for every question, and the other ones never
(`getAveragePerQuestionTime_eq`).
-/

namespace GradeIo

open Average Screen

/-! ## Over the results and over the roster -/

/-- Average time over all results of the assignment. -/
def Assignment.getAverageTime (a : Assignment) : Rat :=
  let results := a.results.getD []
  if 0 < results.length then
    let sum := results.foldl (fun sum result => sum + result.timeTaken) 0
    sum / results.length
  else 0

def TeacherAssignmentOverview.getAvgTime (assignment : Assignment) (studentList : List Student) :
    Screen (Option Rat) :=
  GradeIo.getAvgTime assignment studentList

def ParentStudentAssignmentOverview.getAvgTime (assignment : Assignment)
    (studentList : List Student) : Screen (Option Rat) :=
  GradeIo.getAvgTime assignment studentList

section

variable {a : Assignment} {results : List Result} {students : List Student}

theorem Assignment.getAverageTime_eq (hresults : a.results = some results) (hne : results ≠ []) :
    a.getAverageTime = (results.map Result.timeTaken).sum / results.length := by
  rw [getAverageTime, hresults, Option.getD_some, if_pos (List.length_pos_iff.mpr hne),
    List.sum_eq_foldl, List.foldl_map]

/-- Over a roster with ids there is an average if all results have times. -/
theorem exists_getAvgTime (hids : ∀ s ∈ students, s.id ≠ none)
    (htimes : ∀ r ∈ a.results.getD [], r.timeTakenPerQuestion ≠ none) :
    ∃ avg, getAvgTime a students = .ok avg := by
  have hround : ∀ timed, ∀ i ∈ students, ∃ timed', addTime a timed i = .ok timed' := by
    intro timed i hi
    obtain ⟨id, hid⟩ := Option.ne_none_iff_exists'.mp (hids i hi)
    unfold addTime
    rw [hid, a.resultOf_eq id]
    cases hfind : (a.results.getD []).find? fun r => r.studentID = id with
    | none => exact ⟨timed, rfl⟩
    | some r =>
        obtain ⟨times, hsome⟩ :=
          Option.ne_none_iff_exists'.mp (htimes r (List.mem_of_find?_eq_some hfind))
        refine ⟨(timed.1 + times.sum, timed.2 + 1), ?_⟩
        show (Screen.unwrap r.timeTakenPerQuestion >>= _) = _
        rw [unwrap_eq_ok.mpr hsome]
        rfl
  obtain ⟨timed, htimed⟩ := exists_foldlM_eq_ok hround (0, 0)
  unfold getAvgTime
  rw [htimed]
  exact ⟨_, rfl⟩

/-- The time of the student's first result. -/
def Assignment.timeOf (results : List Result) (id : Option String) : Option Rat :=
  (results.find? fun r => some r.studentID = id).map Result.timeTaken

/-- One round of the loop over the roster. -/
theorem addTime_eq (hresults : a.results = some results)
    (htimes : ∀ r ∈ results, ∃ times, r.timeTakenPerQuestion = some times ∧ r.timeTaken = times.sum)
    (timed : Rat × Nat) {i : Student} (hid : i.id ≠ none) :
    addTime a timed i = pure (tally timed (Assignment.timeOf results i.id)) := by
  obtain ⟨id, hid⟩ := Option.ne_none_iff_exists'.mp hid
  have hresult : a.resultOf i.id = .ok (results.find? fun r => some r.studentID = i.id) := by
    simp only [hid, a.resultOf_eq id, hresults, Option.getD_some, Option.some.injEq]
  unfold addTime Assignment.timeOf
  rw [hresult]
  cases hfind : results.find? fun r => some r.studentID = i.id with
  | none => rfl
  | some r =>
      obtain ⟨times, hsome, hsum⟩ := htimes r (List.mem_of_find?_eq_some hfind)
      rw [Option.map_some, tally, hsum]
      show (Screen.unwrap r.timeTakenPerQuestion >>= fun questMetrics => _) = _
      rw [unwrap_eq_ok.mpr hsome]
      rfl

/-- The times that the roster leads to are those of the results, in some order. -/
theorem timeOf_perm (hunique : (results.map Result.studentID).Nodup)
    (hdistinct : (students.map fun s => s.id).Nodup)
    (hroster : ∀ r ∈ results, some r.studentID ∈ students.map fun s => s.id) :
    (students.filterMap fun s => Assignment.timeOf results s.id).Perm
      (results.map Result.timeTaken) := by
  have hkeys : (results.map fun r => some r.studentID).Nodup := by
    simpa [Function.comp_def] using hunique.map (Option.some_injective String)
  have hperm := (Keyed.filterMap_find?_perm hkeys hdistinct hroster).map Result.timeTaken
  rwa [List.map_filterMap, List.filterMap_map] at hperm

theorem getAvgTime_eq (hresults : a.results = some results) (hne : results ≠ [])
    (hunique : (results.map Result.studentID).Nodup)
    (htimes : ∀ r ∈ results, ∃ times, r.timeTakenPerQuestion = some times ∧ r.timeTaken = times.sum)
    (hids : ∀ s ∈ students, s.id ≠ none) (hdistinct : (students.map fun s => s.id).Nodup)
    (hroster : ∀ r ∈ results, some r.studentID ∈ students.map fun s => s.id) :
    getAvgTime a students = .ok (some a.getAverageTime) := by
  have hperm := timeOf_perm hunique hdistinct hroster
  have hcount : (students.filterMap fun s => Assignment.timeOf results s.id).length =
      results.length := by
    rw [hperm.length_eq, List.length_map]
  have hzero : ¬ results.length = 0 := by simpa using hne
  have hround : ∀ timed, ∀ s ∈ students,
      addTime a timed s = pure (tally timed (Assignment.timeOf results s.id)) :=
    fun timed s hs => addTime_eq hresults htimes timed (hids s hs)
  unfold getAvgTime
  rw [foldlM_tally hround, zero_add, zero_add, hperm.sum_eq, hcount,
    Assignment.getAverageTime_eq hresults hne]
  exact congrArg Except.ok (if_neg hzero)

/-- The three averages are one number. -/
theorem averages_agree (hresults : a.results = some results) (hne : results ≠ [])
    (hunique : (results.map Result.studentID).Nodup)
    (htimes : ∀ r ∈ results, ∃ times, r.timeTakenPerQuestion = some times ∧ r.timeTaken = times.sum)
    (hids : ∀ s ∈ students, s.id ≠ none) (hdistinct : (students.map fun s => s.id).Nodup)
    (hroster : ∀ r ∈ results, some r.studentID ∈ students.map fun s => s.id) :
    TeacherAssignmentOverview.getAvgTime a students = .ok (some a.getAverageTime)
      ∧ ParentStudentAssignmentOverview.getAvgTime a students = .ok (some a.getAverageTime) := by
  have hround := getAvgTime_eq hresults hne hunique htimes hids hdistinct hroster
  exact ⟨hround, hround⟩

end

/-- Ann took three seconds for two questions, Tom five for the first. -/
def annsAndTomsQuiz : Assignment where
  results := some
    [{ Result.init 0 with
        studentID := "s_ann", timeTakenPerQuestion := some [1, 2], timeTaken := 3 },
     { Result.init 0 with
        studentID := "s_tom", timeTakenPerQuestion := some [5, 0], timeTaken := 5 }]
  problems := some []
  dueDate := none
  id := some "quiz"
  classID := none
  filePath := none
  description := none
  name := none

/-- In a class with a third student, in another order. -/
theorem averages_agree_ann :
    ParentStudentAssignmentOverview.getAvgTime annsAndTomsQuiz
      [Student.new "s_tom", Student.new "s_eve", Student.new "s_ann"] = .ok (some 4) := by
  refine (averages_agree rfl (List.cons_ne_nil _ _) ?_ ?_ ?_ ?_ ?_).2.trans ?_
  · decide
  · simp only [List.forall_mem_cons]
    exact ⟨⟨_, rfl, by decide +kernel⟩, ⟨_, rfl, by decide +kernel⟩, fun r hr => nomatch hr⟩
  · decide
  · decide
  · decide
  · decide +kernel

/-! ## Per question -/

/-- One round over the times of a result, which are counted up to by an index. -/
def Assignment.addQuestionTime (questionTimes : List Rat) (acc : List Rat × Nat) (_q : Rat) :
    Screen (List Rat × Nat) := do
  let (sum, qIndex) := acc
  let total ← Screen.item sum qIndex
  let time ← Screen.item questionTimes qIndex
  pure (sum.set qIndex (total + time), qIndex + 1)

def Assignment.addQuestionTimes (sum : List Rat) (result : Result) : Screen (List Rat) :=
  match result.timeTakenPerQuestion with
  | some questionTimes => do
      let (sum, _) ← questionTimes.foldlM (addQuestionTime questionTimes) (sum, 0)
      pure sum
  | none => pure sum

/-- One round of the last loop, which leaves its index where it is. -/
def Assignment.divideEntry (qIndex count : Nat) (sum : List Rat) (_i : Rat) :
    Screen (List Rat) := do
  let total ← Screen.item sum qIndex
  pure (sum.set qIndex (total / count))

def Assignment.getAveragePerQuestionTime (a : Assignment) : Screen (List Rat) :=
  if 0 < (a.results.getD []).length then do
    let problems ← Screen.unwrap a.problems
    let results ← Screen.unwrap a.results
    let sum ← results.foldlM addQuestionTimes (List.replicate problems.length 0)
    let qIndex := 0
    sum.foldlM (divideEntry qIndex results.length) sum
  else pure []

/-- A result's time of a question; zero where there is none. -/
def Result.timeAt (r : Result) (i : Nat) : Rat := (r.timeTakenPerQuestion.getD [])[i]?.getD 0

namespace Assignment

section

variable {n : Nat}

/-- The loop from question `k` on, in a row that has an entry for every time. -/
theorem addQuestionTime_loop {times : List Rat} (hn : times.length ≤ n) (qs : List Rat) (k : Nat)
    (hk : k + qs.length ≤ times.length) (f : Nat → Rat) :
    qs.foldlM (addQuestionTime times) (row n f, k) =
      .ok (row n fun i => f i + if k ≤ i ∧ i < k + qs.length then times[i]?.getD 0 else 0,
        k + qs.length) := by
  induction qs generalizing k f with
  | nil =>
      refine congrArg (fun sum => Except.ok (sum, k)) (row_congr fun i _ => ?_)
      have hnone : ¬ (k ≤ i ∧ i < k + ([] : List Rat).length) := by
        rw [List.length_nil]
        omega
      rw [if_neg hnone, add_zero]
  | cons q qs ih =>
      rw [List.length_cons] at hk
      have htotal : Screen.item (row n f) k = .ok (f k) :=
        item_eq_ok.mpr (getElem?_row (by omega))
      have htime : Screen.item times k = .ok times[k] :=
        item_eq_ok.mpr (List.getElem?_eq_getElem (by omega))
      have hround : addQuestionTime times (row n f, k) q =
          .ok (row n (Function.update f k (f k + times[k])), k + 1) := by
        simp only [addQuestionTime, htotal, htime, ← set_row]
        rfl
      have hlength : k + 1 + qs.length = k + (q :: qs).length := by
        rw [List.length_cons]
        omega
      rw [List.foldlM_cons, hround]
      refine (ih (k + 1) (by omega) _).trans ?_
      rw [hlength]
      refine congrArg (fun sum => Except.ok (sum, k + (q :: qs).length)) (row_congr fun i _ => ?_)
      -- the entry at `k` has its time now, the later ones have theirs to come
      by_cases hik : i = k
      · subst hik
        have hlater : ¬ (i + 1 ≤ i ∧ i < i + (q :: qs).length) := by omega
        have hnow : i ≤ i ∧ i < i + (q :: qs).length := by simp
        rw [Function.update_self, if_neg hlater, if_pos hnow, add_zero,
          List.getElem?_eq_getElem (by omega), Option.getD_some]
      · have hiff :
            (k + 1 ≤ i ∧ i < k + (q :: qs).length) ↔ (k ≤ i ∧ i < k + (q :: qs).length) := by
          omega
        rw [Function.update_of_ne hik, if_congr hiff rfl rfl]

theorem addQuestionTimes_row {r : Result} (hn : (r.timeTakenPerQuestion.getD []).length ≤ n)
    (f : Nat → Rat) : addQuestionTimes (row n f) r = .ok (row n fun i => f i + r.timeAt i) := by
  unfold addQuestionTimes Result.timeAt
  cases htimes : r.timeTakenPerQuestion with
  | none => simp [pure, Except.pure]
  | some times =>
      rw [htimes, Option.getD_some] at hn
      simp only [addQuestionTime_loop hn times 0 (by omega), Option.getD_some]
      refine congrArg Except.ok (row_congr fun i _ => ?_)
      by_cases hi : i < times.length
      · rw [if_pos ⟨Nat.zero_le i, by omega⟩]
      · rw [if_neg fun h => hi (by omega), List.getElem?_eq_none (by omega), Option.getD_none]

/-- The totals of all results. -/
theorem foldlM_addQuestionTimes {results : List Result}
    (hn : ∀ r ∈ results, (r.timeTakenPerQuestion.getD []).length ≤ n) (f : Nat → Rat) :
    results.foldlM addQuestionTimes (row n f) =
      .ok (row n fun i => f i + (results.map fun r => r.timeAt i).sum) := by
  induction results generalizing f with
  | nil => simp [pure, Except.pure]
  | cons r rs ih =>
      obtain ⟨hr, hrs⟩ := List.forall_mem_cons.mp hn
      rw [List.foldlM_cons, addQuestionTimes_row hr]
      refine (ih hrs _).trans (congrArg Except.ok (row_congr fun i _ => ?_))
      rw [List.map_cons, List.sum_cons, add_assoc]

/-- The last loop comes to the first entry every time. -/
theorem foldlM_divideEntry (count : Nat) (l : List Rat) (f : Nat → Rat) :
    l.foldlM (divideEntry 0 count) (row (n + 1) f) =
      .ok (row (n + 1) (Function.update f 0 (f 0 / count ^ l.length))) := by
  induction l generalizing f with
  | nil => simp [pure, Except.pure]
  | cons x l ih =>
      have htotal : Screen.item (row (n + 1) f) (0 : Nat) = .ok (f 0) :=
        item_eq_ok.mpr (getElem?_row (by omega))
      have hround : divideEntry 0 count (row (n + 1) f) x =
          .ok (row (n + 1) (Function.update f 0 (f 0 / count))) := by
        simp only [divideEntry, htotal, ← set_row]
        rfl
      rw [List.foldlM_cons, hround]
      refine (ih _).trans ?_
      rw [Function.update_self, Function.update_idem, div_div, ← pow_succ', List.length_cons]

/-- What the loops come to: the totals of the questions, of which the first is
divided by the number of results once for every question. -/
theorem getAveragePerQuestionTime_eq {a : Assignment} {results : List Result}
    {problems : List Problem} (hresults : a.results = some results) (hne : results ≠ [])
    (hproblems : a.problems = some problems)
    (hn : ∀ r ∈ results, (r.timeTakenPerQuestion.getD []).length ≤ problems.length) :
    a.getAveragePerQuestionTime =
      let total := fun i => (results.map fun r => r.timeAt i).sum
      .ok (row problems.length
        (Function.update total 0 (total 0 / results.length ^ problems.length))) := by
  have hsum : results.foldlM addQuestionTimes (List.replicate problems.length 0) =
      .ok (row problems.length fun i => (results.map fun r => r.timeAt i).sum) := by
    rw [replicate_eq_row, foldlM_addQuestionTimes hn]
    simp only [zero_add]
  have hpos : 0 < (a.results.getD []).length := by
    rw [hresults]
    exact List.length_pos_iff.mpr hne
  unfold getAveragePerQuestionTime
  simp only [if_pos hpos, unwrap_eq_ok.mpr hproblems, unwrap_eq_ok.mpr hresults]
  show (results.foldlM addQuestionTimes _ >>= fun sum => _) = _
  rw [hsum]
  show (row problems.length _).foldlM (divideEntry 0 results.length) _ = _
  cases problems with
  | nil => rfl
  | cons p ps =>
      rw [List.length_cons, foldlM_divideEntry, length_row]

end

/-! ### When it is the average -/

section

variable {a : Assignment} {results : List Result} {problems : List Problem}

/-- A row with the first entry divided `n` times is the row divided once. -/
theorem divided_iff {n m : Nat} (hm : 0 < m) (total : Nat → Rat) :
    (∀ i < n, Function.update total 0 (total 0 / m ^ n) i = total i / m) ↔
      m = 1 ∨ n ≤ 1 ∨ ∀ i < n, total i = 0 := by
  have hm0 : (m : Rat) ≠ 0 := by exact_mod_cast hm.ne'
  constructor
  · intro h
    by_cases hm1 : m = 1
    · exact Or.inl hm1
    by_cases hn : n ≤ 1
    · exact Or.inr (Or.inl hn)
    refine Or.inr (Or.inr fun i hi => ?_)
    have hm1' : (m : Rat) - 1 ≠ 0 := sub_ne_zero.mpr (by exact_mod_cast hm1)
    have hi' := h i hi
    by_cases hzero : i = 0
    · subst hzero
      have hpow : (m : Rat) ^ n ≠ m := by
        intro hpow
        have hn1 : m ^ n = m ^ 1 := by exact_mod_cast hpow.trans (pow_one _).symm
        exact hn (Nat.pow_right_injective (by omega) hn1).le
      rw [Function.update_self, div_eq_div_iff (pow_ne_zero n hm0) hm0, mul_eq_mul_left_iff] at hi'
      exact hi'.resolve_left (Ne.symm hpow)
    · rw [Function.update_of_ne hzero, eq_div_iff hm0] at hi'
      have hprod : total i * (m - 1) = 0 := by linarith
      exact (mul_eq_zero.mp hprod).resolve_right hm1'
  · rintro (rfl | hn | hzero) i hi
    · by_cases hi0 : i = 0
      · simp [hi0]
      · simp [hi0]
    · obtain rfl : n = 1 := by omega
      obtain rfl : i = 0 := by omega
      rw [Function.update_self, pow_one]
    · by_cases hi0 : i = 0
      · subst hi0
        rw [Function.update_self, hzero 0 hi, zero_div, zero_div]
      · rw [Function.update_of_ne hi0, hzero i hi, zero_div]

/-- The averages add up to the average of the sums. -/
theorem sum_averages
    (htimes : ∀ r ∈ results, ∃ times, r.timeTakenPerQuestion = some times
      ∧ times.length = problems.length) :
    (row problems.length fun i => (results.map fun r => r.timeAt i).sum / results.length).sum =
      (results.map fun r => (r.timeTakenPerQuestion.getD []).sum).sum / results.length := by
  rw [sum_row, ← Finset.sum_div, sum_sum_comm]
  refine congrArg (fun l => List.sum l / (results.length : Rat))
    (List.map_congr_left fun r hr => ?_)
  obtain ⟨times, hsome, hlength⟩ := htimes r hr
  have hrow : (row times.length fun i => r.timeAt i) = times := by
    simp only [Result.timeAt, hsome, Option.getD_some, row_getElem?]
  rw [← sum_row, hsome, Option.getD_some, ← hlength]
  exact congrArg List.sum hrow

/-- It is the average for one result or one question, and otherwise only if
there is nothing to divide. -/
theorem getAveragePerQuestionTime_iff (hresults : a.results = some results) (hne : results ≠ [])
    (hproblems : a.problems = some problems)
    (htimes : ∀ r ∈ results, ∃ times, r.timeTakenPerQuestion = some times
      ∧ times.length = problems.length) :
    (∃ avg, a.getAveragePerQuestionTime = .ok avg ∧ avg.length = problems.length
        ∧ (∀ i < problems.length,
          avg[i]? = some ((results.map fun r => r.timeAt i).sum / results.length))
        ∧ avg.sum =
          (results.map fun r => (r.timeTakenPerQuestion.getD []).sum).sum / results.length) ↔
      results.length = 1 ∨ problems.length ≤ 1
        ∨ ∀ i < problems.length, (results.map fun r => r.timeAt i).sum = 0 := by
  have hn : ∀ r ∈ results, (r.timeTakenPerQuestion.getD []).length ≤ problems.length := by
    intro r hr
    obtain ⟨times, hsome, hlength⟩ := htimes r hr
    rw [hsome, Option.getD_some, hlength]
  have hcode := getAveragePerQuestionTime_eq hresults hne hproblems hn
  rw [← divided_iff (List.length_pos_iff.mpr hne)]
  constructor
  · rintro ⟨avg, havg, -, hentry, -⟩ i hi
    obtain rfl := Except.ok.inj (hcode.symm.trans havg)
    exact Option.some.inj ((getElem?_row hi).symm.trans (hentry i hi))
  · intro h
    refine ⟨_, hcode, length_row _ _, fun i hi => ?_, ?_⟩
    · rw [getElem?_row hi, h i hi]
    · rw [row_congr h, sum_averages htimes]

end

/-- A quiz of `n` questions, with results of the given times. -/
def timed (n : Nat) (times : List (List Rat)) : Assignment where
  results := some (times.map fun t => { Result.init 0 with timeTakenPerQuestion := some t })
  problems := some (List.replicate n { question := "Q", answer := "A" })
  dueDate := none
  id := some "quiz"
  classID := none
  filePath := none
  description := none
  name := none

/-- One student who took one second, and two. -/
theorem getAveragePerQuestionTime_one :
    ∃ avg, (timed 2 [[1, 2]]).getAveragePerQuestionTime = .ok avg ∧ avg.sum = 3 := by
  have hiff := getAveragePerQuestionTime_iff (a := timed 2 [[1, 2]]) rfl (List.cons_ne_nil _ _) rfl
    (by simp)
  obtain ⟨avg, havg, -, -, hsum⟩ := hiff.mpr (Or.inl rfl)
  refine ⟨avg, havg, hsum.trans ?_⟩
  decide +kernel

/-- With a second one, who took three and four, the averages are two and three;
the code has the average of neither question. -/
theorem getAveragePerQuestionTime_two :
    let averages := row 2 fun i =>
      (((timed 2 [[1, 2], [3, 4]]).results.getD []).map fun r => r.timeAt i).sum / 2
    averages = [2, 3]
      ∧ (timed 2 [[1, 2], [3, 4]]).getAveragePerQuestionTime = .ok [1, 6]
      ∧ (timed 2 [[1, 2], [3, 4]]).getAveragePerQuestionTime ≠ .ok averages := by
  decide +kernel

end Assignment

end GradeIo
