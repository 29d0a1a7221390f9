import GradeIo.Screens

/-!
# Populating a screen

When an index is out of range while a detail screen is populated, and which
item is shown when none is. The searches for a result never lead to one
(`resultOf_eq`); what may is the position of the item itself, the rows of a
submitted result and, for a teacher, the first student's result.
-/

namespace GradeIo

namespace Screen

/-- No index is out of range. -/
def InRange {α : Type} (x : Screen α) : Prop := x ≠ .error .index

section

variable {α β : Type} {x : Screen α}

theorem bind_eq_ok {f : α → Screen β} {b : β} :
    (x >>= f) = .ok b ↔ ∃ a, x = .ok a ∧ f a = .ok b := by
  cases x with
  | error e => simp [bind, Except.bind]
  | ok a => simp [bind, Except.bind]

theorem InRange.pure (a : α) : InRange (Pure.pure a) := by
  intro h
  cases h

theorem InRange.unwrap (o : Option α) : InRange (Screen.unwrap o) := by
  cases o <;> (intro h; cases h)

theorem InRange.bind {f : α → Screen β} (hx : InRange x) (hf : ∀ a, x = .ok a → InRange (f a)) :
    InRange (x >>= f) := by
  cases x with
  | error e => exact fun h => hx (by simpa [Bind.bind, Except.bind] using h)
  | ok a => exact hf a rfl

theorem InRange.mapM {f : α → Screen β} {l : List α} (hf : ∀ a ∈ l, InRange (f a)) :
    InRange (l.mapM f) := by
  induction l with
  | nil => exact .pure []
  | cons a l ih =>
      rw [List.mapM_cons]
      have hrest := ih fun b hb => hf b (List.mem_cons_of_mem _ hb)
      exact .bind (hf a List.mem_cons_self) fun b _ => .bind hrest fun bs _ => .pure (b :: bs)

theorem InRange.foldlM {f : β → α → Screen β} (hf : ∀ b a, InRange (f b a)) (l : List α) (b : β) :
    InRange (l.foldlM f b) := by
  induction l generalizing b with
  | nil => exact .pure b
  | cons a l ih =>
      rw [List.foldlM_cons]
      exact .bind (hf b a) fun b' _ => ih b'

theorem InRange.findSomeM? {f : α → Screen (Option β)} (hf : ∀ a, InRange (f a)) (l : List α) :
    InRange (l.findSomeM? f) := by
  induction l with
  | nil => exact .pure none
  | cons a l ih =>
      rw [List.findSomeM?]
      refine .bind (hf a) fun o _ => ?_
      cases o with
      | none => exact ih
      | some b => exact .pure (some b)

theorem item_natCast (l : List α) (i : Nat) :
    item l i = match l[i]? with
      | some a => .ok a
      | none => .error .index := by
  have hnat : ¬ (i : Int) < 0 := by omega
  cases h : l[i]? with
  | none => simp [item, hnat, h]
  | some a => simp [item, hnat, h]

theorem InRange.item {l : List α} {i : Nat} (h : i < l.length) : InRange (item l i) := by
  rw [item_natCast, List.getElem?_eq_getElem h]
  exact .pure _

theorem unwrap_eq_ok {o : Option α} {a : α} : Screen.unwrap o = .ok a ↔ o = some a := by
  cases o <;> simp [Screen.unwrap]

/-- Every round of a loop that ends has ended. -/
theorem exists_of_mapM_eq_ok {f : α → Screen β} {l : List α} {bs : List β}
    (h : l.mapM f = .ok bs) : ∀ a ∈ l, ∃ b, f a = .ok b := by
  induction l generalizing bs with
  | nil => exact fun a ha => nomatch ha
  | cons a l ih =>
      rw [List.mapM_cons] at h
      obtain ⟨b, hb, hrest⟩ := bind_eq_ok.mp h
      obtain ⟨bs', hbs, -⟩ := bind_eq_ok.mp hrest
      exact List.forall_mem_cons.mpr ⟨⟨b, hb⟩, ih hbs⟩

/-- A loop of which every round ends, ends with as many values. -/
theorem exists_mapM_eq_ok {f : α → Screen β} {l : List α} (h : ∀ a ∈ l, ∃ b, f a = .ok b) :
    ∃ bs, l.mapM f = .ok bs ∧ bs.length = l.length := by
  induction l with
  | nil => exact ⟨[], rfl, rfl⟩
  | cons a l ih =>
      obtain ⟨⟨b, hb⟩, hl⟩ := List.forall_mem_cons.mp h
      obtain ⟨bs, hbs, hlength⟩ := ih hl
      refine ⟨b :: bs, ?_, congrArg Nat.succ hlength⟩
      rw [List.mapM_cons, hb]
      show (l.mapM f >>= fun bs => pure (b :: bs)) = _
      rw [hbs]
      rfl

theorem exists_foldlM_eq_ok {f : β → α → Screen β} {l : List α}
    (h : ∀ b, ∀ a ∈ l, ∃ b', f b a = .ok b') (b : β) : ∃ b', l.foldlM f b = .ok b' := by
  induction l generalizing b with
  | nil => exact ⟨b, rfl⟩
  | cons a l ih =>
      obtain ⟨b', hb'⟩ := h b a List.mem_cons_self
      rw [List.foldlM_cons, hb']
      exact ih (fun b c hc => h b c (List.mem_cons_of_mem a hc)) b'

theorem exists_findSomeM?_eq_ok {f : α → Screen (Option β)} {l : List α}
    (h : ∀ a ∈ l, ∃ o, f a = .ok o) : ∃ o, l.findSomeM? f = .ok o := by
  induction l with
  | nil => exact ⟨none, rfl⟩
  | cons a l ih =>
      obtain ⟨⟨o, ho⟩, hl⟩ := List.forall_mem_cons.mp h
      rw [List.findSomeM?, ho]
      cases o with
      | none => exact ih hl
      | some b => exact ⟨some b, rfl⟩

theorem item_eq_ok {l : List α} {i : Nat} {a : α} : item l i = .ok a ↔ l[i]? = some a := by
  rw [item_natCast]
  cases l[i]? <;> simp

end

end Screen

open Screen

namespace Assignment

theorem resultOf_some (a : Assignment) (id : String) :
    a.resultOf (some id) =
      if a.getResultIndexByID id = -1 then .ok none
      else a.resultAt (a.getResultIndexByID id) >>= fun r => pure (some r) := rfl

/-- The search ends at the first result of the student. -/
theorem resultOf_eq (a : Assignment) (id : String) :
    a.resultOf (some id) = .ok ((a.results.getD []).find? fun r => r.studentID = id) := by
  rw [resultOf_some]
  rcases a.getResultIndexByID_cases id with ⟨hindex, hnone⟩ | ⟨rs, i, r, hrs, hindex, hr, hfind⟩
  · rw [if_pos hindex, hnone]
  · have hne : ¬ (i : Int) = -1 := by omega
    rw [hindex, if_neg hne, resultAt, hrs, Option.getD_some, hfind]
    show (Screen.item rs i >>= fun r => pure (some r)) = _
    rw [item_eq_ok.mpr hr]
    rfl

theorem resultOf_inRange (a : Assignment) (id : Option String) : InRange (a.resultOf id) := by
  cases id with
  | none =>
      intro h
      cases h
  | some id =>
      rw [resultOf_eq]
      intro h
      cases h

end Assignment

/-! ## One student's assignment -/

/-- The student's result, if it is submitted, has an answer and a time for each
problem. -/
def Assignment.RowsFit (a : Assignment) (id : Option String) : Prop :=
  ∀ u ∈ id, ∀ r, (a.results.getD []).find? (fun r => r.studentID = u) = some r →
    r.isSubmitted = true → ∀ problems ∈ a.problems, ∀ answers ∈ r.studentAnswers,
      ∀ times ∈ r.timeTakenPerQuestion,
        problems.length ≤ answers.length ∧ problems.length ≤ times.length

section

variable {a : Assignment} {id : Option String}

theorem questionRows_inRange {problems : List Problem} {answers : List String} {times : List Rat}
    (hanswers : problems.length ≤ answers.length) (htimes : problems.length ≤ times.length) :
    InRange (questionRows problems answers times) := by
  refine .mapM fun p hp => ?_
  have hlt : p.2 < problems.length :=
    (List.getElem?_eq_some_iff.mp (List.mem_zipIdx_iff_getElem?.mp hp)).1
  exact .bind (.item (by omega)) fun _ _ => .bind (.item (by omega)) fun _ _ => .pure _

theorem length_le_of_questionRows {problems : List Problem} {answers : List String}
    {times : List Rat} {rows : List QuestionRow}
    (h : questionRows problems answers times = .ok rows) :
    problems.length ≤ answers.length ∧ problems.length ≤ times.length := by
  have hrow : ∀ j < problems.length, j < answers.length ∧ j < times.length := by
    intro j hj
    have hmem : (problems[j], j) ∈ problems.zipIdx := by
      simp [List.mem_zipIdx_iff_getElem?, hj]
    obtain ⟨row, hrow⟩ := exists_of_mapM_eq_ok h _ hmem
    obtain ⟨answer, hanswer, hrest⟩ := bind_eq_ok.mp hrow
    obtain ⟨time, htime, -⟩ := bind_eq_ok.mp hrest
    exact ⟨(List.getElem?_eq_some_iff.mp (item_eq_ok.mp hanswer)).1,
      (List.getElem?_eq_some_iff.mp (item_eq_ok.mp htime)).1⟩
  constructor
  · by_contra hlt
    have := (hrow answers.length (by omega)).1
    omega
  · by_contra hlt
    have := (hrow times.length (by omega)).2
    omega

theorem find?_of_resultOf {u : String} {o : Option Result} (hu : u ∈ id)
    (h : a.resultOf id = .ok o) : (a.results.getD []).find? (fun r => r.studentID = u) = o := by
  rw [Option.mem_def.mp hu, Assignment.resultOf_eq] at h
  exact Except.ok.inj h

theorem populate_inRange {getAvgTime : Screen (Option Rat)} (havg : InRange getAvgTime)
    (h : a.RowsFit id) : InRange (populateAssignPageLabels id getAvgTime a) := by
  refine .bind (a.resultOf_inRange id) fun o ho => ?_
  cases o with
  | none => exact .pure _
  | some r => ?_
  by_cases hsubmitted : r.isSubmitted = true
  · simp only [hsubmitted, if_true]
    refine .bind havg fun _ _ => .bind (.unwrap _) fun problems hproblems =>
      .bind (.unwrap _) fun answers hanswers => .bind (.unwrap _) fun times htimes => ?_
    obtain ⟨u, rfl⟩ : ∃ u, id = some u := by
      cases id with
      | none => cases ho
      | some u => exact ⟨u, rfl⟩
    obtain ⟨hle, hle'⟩ := h u rfl r (find?_of_resultOf rfl ho) hsubmitted problems
      (unwrap_eq_ok.mp hproblems) answers (unwrap_eq_ok.mp hanswers) times (unwrap_eq_ok.mp htimes)
    exact .bind (questionRows_inRange hle hle') fun _ _ => .pure _
  · simp only [hsubmitted]
    exact .pure _

theorem of_populate_eq_ok {getAvgTime : Screen (Option Rat)} {shown : AssignmentShown}
    (h : populateAssignPageLabels id getAvgTime a = .ok shown) :
    shown.assignment = a ∧ a.RowsFit id := by
  obtain ⟨o, ho, hrest⟩ := bind_eq_ok.mp h
  cases o with
  | none =>
      obtain rfl := Except.ok.inj hrest
      refine ⟨rfl, fun u hu r hr => ?_⟩
      rw [find?_of_resultOf hu ho] at hr
      cases hr
  | some r =>
      by_cases hsubmitted : r.isSubmitted = true
      · simp only [hsubmitted, if_true] at hrest
        obtain ⟨avg, -, hrest⟩ := bind_eq_ok.mp hrest
        obtain ⟨problems, hproblems, hrest⟩ := bind_eq_ok.mp hrest
        obtain ⟨answers, hanswers, hrest⟩ := bind_eq_ok.mp hrest
        obtain ⟨times, htimes, hrest⟩ := bind_eq_ok.mp hrest
        obtain ⟨rows, hrows, hrest⟩ := bind_eq_ok.mp hrest
        obtain rfl := Except.ok.inj hrest
        refine ⟨rfl, fun u hu r' hr' _ ps hps as has ts hts => ?_⟩
        rw [find?_of_resultOf hu ho] at hr'
        obtain rfl := Option.some.inj hr'
        obtain rfl := Option.some.inj (hps.symm.trans (unwrap_eq_ok.mp hproblems))
        obtain rfl := Option.some.inj (has.symm.trans (unwrap_eq_ok.mp hanswers))
        obtain rfl := Option.some.inj (hts.symm.trans (unwrap_eq_ok.mp htimes))
        exact length_le_of_questionRows hrows
      · simp only [hsubmitted] at hrest
        obtain rfl := Except.ok.inj hrest
        refine ⟨rfl, fun u hu r' hr' hsub => ?_⟩
        rw [find?_of_resultOf hu ho] at hr'
        obtain rfl := Option.some.inj hr'
        exact absurd hsub hsubmitted

end

/-! ## The item that is shown -/

theorem getAssignment_eq_ok {res : List Assignment} {i : Nat} {a : Assignment}
    (h : getAssignment res i = .ok a) : res[i]? = some a := by
  obtain ⟨a', ha', hrest⟩ := bind_eq_ok.mp h
  obtain ⟨name, -, hrest⟩ := bind_eq_ok.mp hrest
  obtain rfl := Except.ok.inj hrest
  exact item_eq_ok.mp ha'

theorem getAssignment_inRange {res : List Assignment} {i : Nat} (h : i < res.length) :
    InRange (getAssignment res i) :=
  .bind (.item h) fun _ _ => .bind (.unwrap _) fun _ _ => .pure _

theorem getAvgTime_inRange (a : Assignment) (students : List Student) :
    InRange (getAvgTime a students) := by
  refine .bind (.foldlM (fun timed i => ?_) _ _) fun _ _ => .pure _
  refine .bind (a.resultOf_inRange _) fun o _ => ?_
  cases o with
  | none => exact .pure _
  | some r => exact .bind (.unwrap _) fun _ _ => .pure _

theorem findGrade_inRange (id : Option String) (assigns : List Assignment) :
    InRange (findGrade id assigns) := by
  refine .bind (.foldlM (fun taken i => ?_) _ _) fun _ _ => .pure _
  refine .bind (i.resultOf_inRange _) fun o _ => ?_
  cases o with
  | none => exact .pure _
  | some r => exact .pure _

section

variable {res : List Assignment} {i : Nat} {a : Assignment}

namespace StudentAssignmentOverview

variable {id : Option String}

theorem populate_inRange (ha : res[i]? = some a) (h : a.RowsFit id) :
    InRange (populate id i res) := by
  refine .bind (getAssignment_inRange (List.getElem?_eq_some_iff.mp ha).1) fun a' ha' => ?_
  obtain rfl := Option.some.inj (ha.symm.trans (getAssignment_eq_ok ha'))
  exact GradeIo.populate_inRange (.pure _) h

theorem of_populate_eq_ok {shown : AssignmentShown} (h : populate id i res = .ok shown) :
    res[i]? = some shown.assignment ∧ shown.assignment.RowsFit id := by
  obtain ⟨a, ha, hrest⟩ := bind_eq_ok.mp h
  obtain ⟨rfl, hfit⟩ := GradeIo.of_populate_eq_ok hrest
  exact ⟨getAssignment_eq_ok ha, hfit⟩

end StudentAssignmentOverview

namespace ParentStudentAssignmentOverview

variable {studentID : String} {students : List Student}

theorem populate_inRange (ha : res[i]? = some a) (h : a.RowsFit (some studentID)) :
    InRange (populate studentID i students res) := by
  refine .bind (getAssignment_inRange (List.getElem?_eq_some_iff.mp ha).1) fun a' ha' => ?_
  obtain rfl := Option.some.inj (ha.symm.trans (getAssignment_eq_ok ha'))
  refine .bind (.mapM fun s _ => .bind (.unwrap _) fun _ _ => .pure _) fun studentList _ => ?_
  exact GradeIo.populate_inRange (getAvgTime_inRange _ _) h

theorem of_populate_eq_ok {shown : AssignmentShown}
    (h : populate studentID i students res = .ok shown) :
    res[i]? = some shown.assignment ∧ shown.assignment.RowsFit (some studentID) := by
  obtain ⟨a, ha, hrest⟩ := bind_eq_ok.mp h
  obtain ⟨studentList, -, hrest⟩ := bind_eq_ok.mp hrest
  obtain ⟨rfl, hfit⟩ := GradeIo.of_populate_eq_ok hrest
  exact ⟨getAssignment_eq_ok ha, hfit⟩

end ParentStudentAssignmentOverview

namespace TeacherAssignmentOverview

/-- There is a first student, who has a result where there are results. -/
def FirstHasResult (students : List Student) (a : Assignment) : Prop :=
  ∃ first, students[0]? = some first ∧
    ∀ id ∈ first.id, ∀ results ∈ a.results, ∃ r ∈ results, r.studentID = id

variable {students : List Student}

/-- The index of a result is one of the list exactly if there is a result. -/
theorem item_getResultIndexByID {results : List Result} (hresults : a.results = some results)
    (id : String) :
    Screen.item results (a.getResultIndexByID id) =
      match results.find? fun r => r.studentID = id with
      | some r => .ok r
      | none => .error .index := by
  rcases a.getResultIndexByID_cases id with ⟨hindex, hnone⟩ | ⟨rs, i, r, hrs, hindex, hr, hfind⟩
  · rw [hresults, Option.getD_some] at hnone
    rw [hindex, hnone]
    rfl
  · obtain rfl := Option.some.inj (hresults.symm.trans hrs)
    rw [hindex, hfind]
    exact item_eq_ok.mpr hr

theorem ranResult_inRange (h : FirstHasResult students a) : InRange (ranResult a students) := by
  obtain ⟨first, hfirst, hid⟩ := h
  have hitem : Screen.item students 0 = .ok first := item_eq_ok.mpr hfirst
  unfold ranResult
  rw [hitem]
  refine .bind (.pure first) fun first' heq => ?_
  obtain rfl := Except.ok.inj heq
  refine .bind (.unwrap _) fun id hsome => .bind (.bind (.unwrap _) fun results hresults => ?_)
    fun r _ => ?_
  · rw [unwrap_eq_ok] at hsome hresults
    obtain ⟨r, hr, hstudent⟩ := hid id hsome results hresults
    rw [item_getResultIndexByID hresults]
    cases hfind : results.find? fun r => r.studentID = id with
    | none => simpa [hstudent] using List.find?_eq_none.mp hfind r hr
    | some r => exact .pure r
  · exact .bind (.findSomeM? (fun j => a.resultOf_inRange _) _) fun _ _ => .pure _

theorem of_ranResult_eq_ok {r : Result} (h : ranResult a students = .ok r) :
    FirstHasResult students a ∧ a.results ≠ none := by
  obtain ⟨first, hfirst, hrest⟩ := bind_eq_ok.mp h
  obtain ⟨id, hid, hrest⟩ := bind_eq_ok.mp hrest
  obtain ⟨ran, hresult, -⟩ := bind_eq_ok.mp hrest
  obtain ⟨results, hresults, hran⟩ := bind_eq_ok.mp hresult
  rw [unwrap_eq_ok] at hresults hid
  rw [item_getResultIndexByID hresults] at hran
  refine ⟨⟨first, item_eq_ok.mp hfirst, fun u hu rs hrs => ?_⟩, hresults ▸ Option.some_ne_none _⟩
  obtain rfl := Option.some.inj (hid.symm.trans hu)
  obtain rfl := Option.some.inj (hresults.symm.trans hrs)
  cases hfind : results.find? fun r => r.studentID = id with
  | none => simp [hfind] at hran
  | some r => exact ⟨r, List.mem_of_find?_eq_some hfind, by simpa using List.find?_some hfind⟩

theorem studentRow_inRange (a : Assignment) (student : Student) :
    InRange (studentRow a student) := by
  refine .bind (.unwrap _) fun _ _ => .bind (.unwrap _) fun _ _ => .bind (.unwrap _) fun _ _ =>
    .bind (a.resultOf_inRange _) fun o _ => ?_
  cases o with
  | none => exact .pure _
  | some r => ?_
  by_cases hsubmitted : r.isSubmitted = true
  · simp only [hsubmitted, if_true]
    exact .bind (.unwrap _) fun _ _ => .pure _
  · simp only [hsubmitted]
    exact .pure _

theorem populate_inRange (ha : res[i]? = some a) (h : FirstHasResult students a) :
    InRange (populate i students res) := by
  refine .bind (getAssignment_inRange (List.getElem?_eq_some_iff.mp ha).1) fun a' ha' => ?_
  obtain rfl := Option.some.inj (ha.symm.trans (getAssignment_eq_ok ha'))
  exact .bind (ranResult_inRange h) fun _ _ => .bind (getAvgTime_inRange _ _) fun _ _ =>
    .bind (.mapM fun s _ => studentRow_inRange _ s) fun _ _ => .pure _

theorem of_populate_eq_ok {shown : Shown} (h : populate i students res = .ok shown) :
    res[i]? = some shown.assignment ∧ FirstHasResult students shown.assignment := by
  obtain ⟨a, ha, hrest⟩ := bind_eq_ok.mp h
  obtain ⟨ran, hran, hrest⟩ := bind_eq_ok.mp hrest
  obtain ⟨avg, -, hrest⟩ := bind_eq_ok.mp hrest
  obtain ⟨rows, -, hrest⟩ := bind_eq_ok.mp hrest
  obtain rfl := Except.ok.inj hrest
  exact ⟨getAssignment_eq_ok ha, (of_ranResult_eq_ok hran).1⟩

end TeacherAssignmentOverview

end

namespace TeacherOverviewStudentList

variable {i : Nat} {assigns : List Assignment} {res : List Student}

theorem populate_inRange (h : i < res.length) : InRange (populate i assigns res) := by
  refine .bind (.item h) fun student _ => .bind (findGrade_inRange _ _) fun _ _ =>
    .bind (.mapM fun a _ => ?_) fun _ _ => .bind (.mapM fun a _ => ?_) fun _ _ => .pure _
  · exact .bind (a.resultOf_inRange _) fun _ _ => .pure _
  · exact .bind (a.resultOf_inRange _) fun _ _ => .pure _

theorem of_populate_eq_ok {shown : Shown} (h : populate i assigns res = .ok shown) :
    res[i]? = some shown.student := by
  obtain ⟨student, hstudent, hrest⟩ := bind_eq_ok.mp h
  obtain ⟨grade, -, hrest⟩ := bind_eq_ok.mp hrest
  obtain ⟨green, -, hrest⟩ := bind_eq_ok.mp hrest
  obtain ⟨grades, -, hrest⟩ := bind_eq_ok.mp hrest
  obtain rfl := Except.ok.inj hrest
  exact item_eq_ok.mp hstudent

end TeacherOverviewStudentList

end GradeIo
