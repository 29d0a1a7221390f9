import GradeIo.AverageTimes
import GradeIo.Devices
import GradeIo.LiveUpdates
import GradeIo.Snapshots
import GradeIo.Tapped

/-!
# Reviewing submitted results

Three screens show a submitted result question by question, a student's, a
teacher's and a parent's; they read the stored answers and times by the position
of the problems that the assignment has now. Every session submits as many as
there are problems at the time (`Sized`), and so the screens are safe until a
problem is added (`reviewable_of_run`). They read an object that has what the
document has (`Current`), and such is the one that their `viewDidLoad` fetches
(`hasRows_opened`).
-/

namespace GradeIo

open Screen

def StudentAssignmentOverview.populateAssignPageLabels (id : Option String)
    (assignment : Assignment) : Screen AssignmentShown :=
  GradeIo.populateAssignPageLabels id (pure none) assignment

def TeacherStudentAnswers.populateAssignPageLabels (studentID : String) (assignment : Assignment) :
    Screen AssignmentShown :=
  GradeIo.populateAssignPageLabels (some studentID) (pure none) assignment

def ParentStudentAssignmentOverview.populateAssignPageLabels (studentID : String)
    (studentList : List Student) (assignment : Assignment) : Screen AssignmentShown :=
  GradeIo.populateAssignPageLabels (some studentID) (getAvgTime assignment studentList) assignment

namespace Review

open DocDb Transition Quiz App

/-! ## Rows -/

/-- The screen shows a submission with a row for each of `n` questions. -/
def HasRows (n : Nat) (x : Screen AssignmentShown) : Prop :=
  ∃ shown submission, x = .ok shown ∧ shown.submission = some submission
    ∧ submission.questions.length = n

/-- A submitted result with an answer and a time for each problem. -/
def Sized (problems : List Problem) (r : Result) : Prop :=
  r.isSubmitted = true ∧ ∃ answers times, r.studentAnswers = some answers
    ∧ r.timeTakenPerQuestion = some times
    ∧ answers.length = problems.length ∧ times.length = problems.length

section

variable {a : Assignment} {problems : List Problem} {r : Result} {id : String}
  {avgTime : Screen (Option Rat)}

theorem exists_questionRows {answers : List String} {times : List Rat}
    (hanswers : problems.length ≤ answers.length) (htimes : problems.length ≤ times.length) :
    ∃ rows, questionRows problems answers times = .ok rows ∧ rows.length = problems.length := by
  have hrow : ∀ p ∈ problems.zipIdx, ∃ row, (do
      let studentAnswer ← Screen.item answers p.2
      let time ← Screen.item times p.2
      pure { question := p.1.question, studentAnswer, answer := p.1.answer, time } :
        Screen QuestionRow) = .ok row := by
    intro p hp
    have hlt : p.2 < problems.length :=
      (List.getElem?_eq_some_iff.mp (List.mem_zipIdx_iff_getElem?.mp hp)).1
    have hanswer : Screen.item answers p.2 = .ok answers[p.2] :=
      item_eq_ok.mpr (List.getElem?_eq_getElem (by omega))
    have htime : Screen.item times p.2 = .ok times[p.2] :=
      item_eq_ok.mpr (List.getElem?_eq_getElem (by omega))
    rw [hanswer, htime]
    exact ⟨_, rfl⟩
  obtain ⟨rows, hrows, hlength⟩ := exists_mapM_eq_ok hrow
  exact ⟨rows, hrows, hlength.trans List.length_zipIdx⟩

/-- A first result of the right sizes is shown in full. -/
theorem hasRows_populate (hproblems : a.problems = some problems)
    (hfind : (a.results.getD []).find? (fun x => x.studentID = id) = some r)
    (hsized : Sized problems r) (havg : ∃ avg, avgTime = .ok avg) :
    HasRows problems.length (populateAssignPageLabels (some id) avgTime a) := by
  obtain ⟨hsubmitted, answers, times, hanswers, htimes, hlanswers, hltimes⟩ := hsized
  obtain ⟨avg, rfl⟩ := havg
  obtain ⟨rows, hrows, hlength⟩ := exists_questionRows hlanswers.ge hltimes.ge
  refine ⟨⟨a, some ⟨r.grade * 100, times.sum, avg, rows⟩⟩, _, ?_, rfl, hlength⟩
  unfold populateAssignPageLabels
  rw [a.resultOf_eq id, hfind]
  show ite (r.isSubmitted = true) _ _ = Except.ok _
  rw [if_pos hsubmitted, unwrap_eq_ok.mpr hproblems, unwrap_eq_ok.mpr hanswers,
    unwrap_eq_ok.mpr htimes]
  show (questionRows problems answers times >>= _) = _
  rw [hrows]
  rfl

/-- With a problem more there is a row too many. -/
theorem length_le_of_hasRows {n : Nat} (hproblems : a.problems = some problems)
    (hfind : (a.results.getD []).find? (fun x => x.studentID = id) = some r)
    (hsubmitted : r.isSubmitted = true) {answers : List String} {times : List Rat}
    (hanswers : r.studentAnswers = some answers) (htimes : r.timeTakenPerQuestion = some times)
    (h : HasRows n (populateAssignPageLabels (some id) avgTime a)) :
    problems.length ≤ answers.length := by
  obtain ⟨shown, -, hshown, -, -⟩ := h
  exact ((of_populate_eq_ok hshown).2 id rfl r hfind hsubmitted problems hproblems answers hanswers
    times htimes).1

end

/-! ## Complete sessions -/

/-- A session from opening the quiz to submitting it. -/
structure Session where
  userID : Option String
  /-- `CurrentAssignment` when the quiz is opened. -/
  assignment : Assignment
  opened : Rat
  presses : List Press
  /-- The results of `CurrentAssignment` when it is submitted. -/
  results : Option (List Result)
  closed : Rat

/-- `CurrentAssignment` when the quiz is submitted. -/
def Session.last (x : Session) : Assignment := { x.assignment with results := x.results }

def Session.submission (x : Session) : Option Submission := do
  let q ← viewDidLoad x.assignment x.userID x.opened
  let q ← x.presses.foldlM (press x.assignment) q
  q.submitButtonPressed x.last x.userID x.closed

section

variable {x : Session} {a : Assignment} {problems : List Problem} {q q' : Quiz}

theorem ready_presses (hps : a.problems = some problems) {l : List Press} (h : q.Ready problems)
    (hq : l.foldlM (press a) q = some q') : q'.Ready problems := by
  induction l generalizing q with
  | nil =>
      obtain rfl := Option.some.inj hq
      exact h
  | cons e l ih =>
      rw [List.foldlM_cons] at hq
      obtain ⟨q₁, hq₁, hrest⟩ := Option.bind_eq_some_iff.mp hq
      exact ih (h.press hps hq₁) hrest

/-- A quiz without problems cannot be opened. -/
theorem problems_ne_nil_of_viewDidLoad {userID : Option String} {now : Rat}
    (h : viewDidLoad a userID now = some q) :
    ∃ problems, a.problems = some problems ∧ problems ≠ [] := by
  obtain ⟨problems, hps, h⟩ := Option.bind_eq_some_iff.mp h
  refine ⟨problems, hps, ?_⟩
  rintro rfl
  obtain ⟨q₁, hq₁, -⟩ := Option.bind_eq_some_iff.mp h
  rw [setCurrentQuestion_eq _ hps] at hq₁
  cases hq₁

/-- What a complete session hands to `insertResult`. -/
theorem Session.submission_eq_some {sub : Submission} (h : x.submission = some sub) :
    ∃ problems u, x.assignment.problems = some problems ∧ problems ≠ []
      ∧ Sized problems sub.result
      ∧ insertResult x.last (some u) x.closed sub.result = some (sub.assignment, sub.writes) := by
  obtain ⟨q, hopen, h⟩ := Option.bind_eq_some_iff.mp h
  obtain ⟨q', hpress, hsubmit⟩ := Option.bind_eq_some_iff.mp h
  obtain ⟨problems, hps, hne⟩ := problems_ne_nil_of_viewDidLoad hopen
  obtain ⟨q₀, hq₀, hready⟩ := viewDidLoad_ready x.userID x.opened hps hne
  obtain rfl := Option.some.inj (hq₀.symm.trans hopen)
  have hready' := ready_presses hps hready hpress
  have hlast : x.last.problems = some problems := hps
  rw [submitButtonPressed_eq, handIn_eq hready' hlast, if_pos le_rfl] at hsubmit
  simp only [Option.bind_eq_some_iff, Option.map_eq_some_iff] at hsubmit
  obtain ⟨⟨quiz, r⟩, ⟨id, -, u, hu, hhanded⟩, ⟨b, ws⟩, hins, rfl⟩ := hsubmit
  obtain ⟨-, rfl⟩ := Prod.mk.inj hhanded
  obtain ⟨times, htimes, hltimes⟩ := (hready'.handed problems x.closed id u).times
  refine ⟨problems, u, hps, hne, ⟨rfl, q'.recorded, times, rfl, htimes, ?_, hltimes⟩, hu ▸ hins⟩
  rw [length_recorded, hready'.answers]

end

/-! ## The document -/

/-- The list in a field, as a snapshot of the document brings it. -/
def listAt {α : Type} (ofDictionary : Dict → Option α) (key : String) (s : Store) (p : DocPath) :
    List α :=
  (((s.field p key).bind (asArray asDict)).bind fun ds => ds.mapM ofDictionary).getD []

def problemsAt : Store → DocPath → List Problem := listAt Problem.ofDictionary Strings.problems

def resultsAt : Store → DocPath → List Result := listAt Result.ofDictionary Strings.results

/-- The object has the problems and the results of the document. -/
structure Current (s : Store) (p : DocPath) (a : Assignment) : Prop where
  problems : a.problems.getD [] = problemsAt s p
  results : a.results.getD [] = resultsAt s p

section

variable {s s' : Store} {p : DocPath}

/-- A list decoded in one go is decoded dictionary by dictionary. -/
theorem asArray_bind_eq_some {α : Type} {decode : Dict → Option α} {v : Value} {xs : List α}
    (hv : v.isJSON = true) (h : asArray (fun v => (asDict v).bind decode) v = some xs) :
    (asArray asDict v).bind (fun ds => ds.mapM (initDictionary decode)) = some xs := by
  cases v with
  | array vs =>
      change vs.mapM (fun v => (asDict v).bind decode) = some xs at h
      show (vs.mapM asDict).bind (fun ds => ds.mapM (initDictionary decode)) = some xs
      induction vs generalizing xs with
      | nil => exact h
      | cons v vs ih =>
          simp only [Value.isJSON, Value.isJSONList, Bool.and_eq_true] at hv
          simp only [List.mapM_cons, Option.bind_eq_bind, Option.bind_eq_some_iff] at h
          obtain ⟨x, ⟨d, hd, hx⟩, xs', hxs', hxs⟩ := h
          obtain ⟨ds, hds, hrest⟩ := Option.bind_eq_some_iff.mp (ih hv.2 hxs')
          have hvalid : isValidJSONObject d = true := by
            cases v with
            | map fs =>
                obtain rfl := Option.some.inj hd
                exact hv.1
            | _ => cases hd
          have hinit : initDictionary decode d = some x := by
            rw [initDictionary, if_pos hvalid, hx]
          simp [hd, hds, hinit, hrest, ← hxs]
  | _ => cases h

theorem getD_of_decodeIfPresent {α : Type} {decode : Dict → Option α} {key : String} {doc : Doc}
    {new : Option (List α)} (hdoc : s.get? p = some doc)
    (hvalid : isValidJSONObject (Doc.data doc) = true)
    (h : decodeIfPresent (asArray fun v => (asDict v).bind decode) (Doc.data doc) key = some new) :
    new.getD [] = listAt (initDictionary decode) key s p := by
  unfold decodeIfPresent at h
  rw [Doc.lookup_data] at h
  unfold listAt Store.field
  rw [hdoc, Option.bind_some]
  cases hv : doc[key]? with
  | none =>
      rw [hv] at h
      obtain rfl := Option.some.inj h
      rfl
  | some v =>
      rw [hv] at h
      have hjson : v.isJSON = true := isValidJSONObject_iff.mp hvalid (key, v) (Doc.mem_data.mpr hv)
      cases v with
      | null =>
          obtain rfl := Option.some.inj h
          rfl
      | _ =>
          obtain ⟨xs, hxs, rfl⟩ := Option.map_eq_some_iff.mp h
          rw [Option.bind_some, asArray_bind_eq_some hjson hxs]

/-- The decoder leaves such an object. -/
theorem current_of_ofDictionary {doc : Doc} {a : Assignment} (hdoc : s.get? p = some doc)
    (h : Assignment.ofDictionary (Doc.data doc) = some a) : Current s p a := by
  unfold Assignment.ofDictionary initDictionary at h
  split at h
  · rename_i hvalid
    simp only [Assignment.decode, Option.bind_eq_bind, Option.bind_eq_some_iff] at h
    obtain ⟨results, hresults, problems, hproblems, _, -, _, -, _, -, _, -, _, -, _, -, h⟩ := h
    obtain rfl := Option.some.inj h
    exact ⟨getD_of_decodeIfPresent hdoc hvalid hproblems,
      getD_of_decodeIfPresent hdoc hvalid hresults⟩
  · cases h

theorem getD_of_castList {α : Type} {ofDictionary : Dict → Option α} {key : String} {doc : Doc}
    {old new : Option (List α)} (hdoc : s.get? p = some doc)
    (hold : old.getD [] = listAt ofDictionary key s p)
    (h : Assignment.castList ofDictionary doc key old = some new) :
    new.getD [] = listAt ofDictionary key s p := by
  unfold Assignment.castList at h
  cases hds : doc[key]?.bind (asArray asDict) with
  | none =>
      rw [hds] at h
      obtain rfl := Option.some.inj h
      exact hold
  | some ds =>
      rw [hds] at h
      obtain ⟨xs, hxs, rfl⟩ := Option.map_eq_some_iff.mp h
      unfold listAt Store.field
      rw [hdoc, Option.bind_some, hds, Option.bind_some, hxs]

/-- The first call of the listener, with the same document, leaves it so. -/
theorem Current.setPropertiesFromDoc {doc : Doc} {a a' : Assignment} (h : Current s p a)
    (hdoc : s.get? p = some doc) (hread : a.setPropertiesFromDoc doc = some a') :
    Current s p a' := by
  obtain ⟨hproblems, hresults, -⟩ := Assignment.setPropertiesFromDoc_eq_some.mp hread
  exact ⟨getD_of_castList hdoc h.problems hproblems, getD_of_castList hdoc h.results hresults⟩

theorem resultsAt_of_stores {o : Option (List Result)} (h : Stores p s o) :
    resultsAt s p = o.getD [] := by
  obtain ⟨doc, hdoc, hres⟩ := h
  have hfield : s.field p Strings.results = o.map storedValue := by
    rw [Store.field, hdoc]
    exact hres
  unfold resultsAt listAt
  rw [hfield]
  cases o with
  | none => rfl
  | some rs =>
      rw [Option.map_some, Option.bind_some, Devices.asArray_storedValue, Option.bind_some,
        Devices.mapM_ofDictionary]

theorem problemsAt_congr (h : s'.field p Strings.problems = s.field p Strings.problems) :
    problemsAt s' p = problemsAt s p := by
  rw [problemsAt, listAt, listAt, h]

end

/-! ## Runs -/

inductive Event where
  | session (x : Session)
  | addProblem (a : Assignment) (question answer : String)

/-- A session is opened on the problems of the document. -/
def step (docID : String) (p : DocPath) (s : Store) : Event → Option Store
  | .session x =>
      if x.assignment.id = some docID ∧ x.assignment.problems.getD [] = problemsAt s p then
        x.submission.map fun sub => s.applyAll sub.writes
      else none
  | .addProblem a question answer =>
      if a.id = some docID then (a.addProblem question answer).map s.apply else none

/-- An assignment without results. -/
def system (docID : String) (p : DocPath) : System Store Event where
  Init s := ∃ o, Stores p s o ∧ o.getD [] = []
  step := step docID p

/-- Whoever looks at a submitted result sees a row for each problem. -/
def Reviewable (p : DocPath) (s : Store) : Prop :=
  ∀ a, Current s p a → ∀ r ∈ resultsAt s p, r.isSubmitted = true →
    HasRows (problemsAt s p).length
        (StudentAssignmentOverview.populateAssignPageLabels (some r.studentID) a)
      ∧ HasRows (problemsAt s p).length
        (TeacherStudentAnswers.populateAssignPageLabels r.studentID a)
      ∧ ∀ students : List Student, (∀ student ∈ students, student.id ≠ none) →
        HasRows (problemsAt s p).length
          (ParentStudentAssignmentOverview.populateAssignPageLabels r.studentID students a)

/-- A problem is added before there is a result, or is there already. -/
def SafeStep (p : DocPath) (s : Store) : Event → Prop
  | .session _ => True
  | .addProblem _ question answer => resultsAt s p = []
      ∨ Problem.toValue ⟨question, answer⟩ ∈ elements (s.field p Strings.problems)

/-- The stored results have the sizes of the problem list. -/
structure Inv (p : DocPath) (s : Store) : Prop where
  stored : ∃ o, Stores p s o
  sized : ∀ r ∈ resultsAt s p, Sized (problemsAt s p) r
  problems : resultsAt s p ≠ [] → problemsAt s p ≠ []

section

variable {docID : String} {p : DocPath} {s s' : Store}

theorem Inv.init (h : (system docID p).Init s) : Inv p s := by
  obtain ⟨o, ho, hnil⟩ := h
  have hresults : resultsAt s p = [] := (resultsAt_of_stores ho).trans hnil
  exact ⟨⟨o, ho⟩, by simp [hresults], fun hne => absurd hresults hne⟩

theorem Inv.reviewable (h : Inv p s) : Reviewable p s := by
  intro a hcurrent r hr _
  have hne := h.problems (List.ne_nil_of_mem hr)
  obtain ⟨problems, hproblems⟩ : ∃ problems, a.problems = some problems := by
    cases hps : a.problems with
    | none => exact absurd (hcurrent.problems.symm.trans (by rw [hps, Option.getD_none])) hne
    | some problems => exact ⟨problems, rfl⟩
  have hstored : problemsAt s p = problems := by
    rw [← hcurrent.problems, hproblems, Option.getD_some]
  obtain ⟨first, hfirst⟩ : ∃ first,
      (a.results.getD []).find? (fun x => x.studentID = r.studentID) = some first := by
    rw [hcurrent.results, ← Option.isSome_iff_exists, List.find?_isSome]
    exact ⟨r, hr, decide_eq_true rfl⟩
  have hmem : first ∈ resultsAt s p := hcurrent.results ▸ List.mem_of_find?_eq_some hfirst
  have hsized : Sized problems first := hstored ▸ h.sized first hmem
  have htimes : ∀ x ∈ a.results.getD [], x.timeTakenPerQuestion ≠ none := by
    intro x hx
    rw [hcurrent.results] at hx
    obtain ⟨-, answers, times, -, htimes, -⟩ := h.sized x hx
    rw [htimes]
    exact Option.some_ne_none times
  rw [hstored]
  exact ⟨hasRows_populate hproblems hfirst hsized ⟨none, rfl⟩,
    hasRows_populate hproblems hfirst hsized ⟨none, rfl⟩,
    fun students hids => hasRows_populate hproblems hfirst hsized (exists_getAvgTime hids htimes)⟩

/-- A session leaves the problems alone, and stores a result of their number. -/
theorem Inv.session (h : Inv p s) (hp : documentPath Strings.assignment docID = some p)
    {x : Session} (hs : (system docID p).step s (.session x) = some s') : Inv p s' := by
  change (if _ then _ else none) = some s' at hs
  split at hs
  · rename_i hopen
    obtain ⟨sub, hsub, rfl⟩ := Option.map_eq_some_iff.mp hs
    obtain ⟨problems, u, hps, hne, hsized, hins⟩ := Session.submission_eq_some hsub
    have hcurrent : problemsAt s p = problems := by
      rw [← hopen.2, hps, Option.getD_some]
    obtain ⟨o, ho⟩ := h.stored
    have hid : x.last.id = some docID := hopen.1
    obtain ⟨b, ws, hins', hstored⟩ :=
      stores_insertResult (u := u) (r := sub.result) x.closed hid hp ho
    obtain ⟨-, rfl⟩ := Prod.mk.inj (Option.some.inj (hins'.symm.trans hins))
    have hfield : (s.applyAll sub.writes).field p Strings.problems = s.field p Strings.problems :=
      field_applyAll_insertResult hid hp hins (by decide) s p
    have hresults := resultsAt_of_stores hstored
    have hproblems : problemsAt (s.applyAll sub.writes) p = problems :=
      (problemsAt_congr hfield).trans hcurrent
    refine ⟨⟨_, hstored⟩, fun r hr => ?_, fun _ => hproblems ▸ hne⟩
    rw [hproblems]
    rw [hresults, Option.getD_some] at hr
    split at hr
    · exact List.mem_singleton.mp hr ▸ hsized
    · rcases Keyed.mem_addIfAbsent.mp hr with hr | rfl
      · rw [← hcurrent]
        exact h.sized r (resultsAt_of_stores ho ▸ hr)
      · exact hsized
  · cases hs

theorem step_addProblem (hp : documentPath Strings.assignment docID = some p) {a : Assignment}
    (hid : a.id = some docID) (question answer : String) :
    (system docID p).step s (.addProblem a question answer) =
      some (s.apply (.unionMerge p Strings.problems (Problem.toValue ⟨question, answer⟩))) := by
  show (if a.id = some docID then (a.addProblem question answer).map s.apply else none) = _
  rw [if_pos hid, Assignment.addProblem, hid, Option.bind_some, hp]
  rfl

theorem step_addProblem_eq_some (hp : documentPath Strings.assignment docID = some p)
    {a : Assignment} {question answer : String}
    (hs : (system docID p).step s (.addProblem a question answer) = some s') :
    s' = s.apply (.unionMerge p Strings.problems (Problem.toValue ⟨question, answer⟩)) := by
  by_cases hid : a.id = some docID
  · rw [step_addProblem hp hid] at hs
    exact (Option.some.inj hs).symm
  · change (if a.id = some docID then (a.addProblem question answer).map s.apply else none) =
      some s' at hs
    rw [if_neg hid] at hs
    cases hs

theorem resultsAt_addProblem (h : ∃ o, Stores p s o) (v : Value) :
    resultsAt (s.apply (.unionMerge p Strings.problems v)) p = resultsAt s p := by
  obtain ⟨o, ho⟩ := h
  exact (resultsAt_of_stores (ho.unionMerge (by decide) v)).trans (resultsAt_of_stores ho).symm

theorem Inv.addProblem (h : Inv p s) (hp : documentPath Strings.assignment docID = some p)
    {a : Assignment} {question answer : String}
    (hok : SafeStep p s (.addProblem a question answer))
    (hs : (system docID p).step s (.addProblem a question answer) = some s') : Inv p s' := by
  obtain rfl := step_addProblem_eq_some hp hs
  have hstored : ∃ o, Stores p (s.apply (.unionMerge p Strings.problems
      (Problem.toValue ⟨question, answer⟩))) o := by
    obtain ⟨o, ho⟩ := h.stored
    exact ⟨o, ho.unionMerge (by decide) _⟩
  have hresults := resultsAt_addProblem h.stored (Problem.toValue ⟨question, answer⟩)
  rcases hok with hnil | hmem
  · have hnil' := hresults.trans hnil
    exact ⟨hstored, by simp [hnil'], fun hne => absurd hnil' hne⟩
  · have hproblems : problemsAt (s.apply (.unionMerge p Strings.problems
        (Problem.toValue ⟨question, answer⟩))) p = problemsAt s p := by
      refine problemsAt_congr ?_
      rw [Store.field_apply_unionMerge, if_pos ⟨rfl, rfl⟩, Keyed.addIfAbsent_of_mem hmem,
        array_elements_of_mem hmem]
    refine ⟨hstored, ?_, ?_⟩
    · rw [hresults, hproblems]
      exact h.sized
    · rw [hresults, hproblems]
      exact h.problems

theorem Inv.step (h : Inv p s) (hp : documentPath Strings.assignment docID = some p) {e : Event}
    (hok : SafeStep p s e) (hs : (system docID p).step s e = some s') : Inv p s' := by
  cases e with
  | session x => exact h.session hp hs
  | addProblem a question answer => exact h.addProblem hp hok hs

theorem Inv.run (hp : documentPath Strings.assignment docID = some p)
    (h : (system docID p).Run (SafeStep p) s) : Inv p s :=
  h.invariant (fun _ => Inv.init) fun _ _ _ hinv hok hs => hinv.step hp hok hs

/-- In every run that adds no problem to an assignment with results. -/
theorem reviewable_of_run (hp : documentPath Strings.assignment docID = some p)
    (h : (system docID p).Run (SafeStep p) s) : Reviewable p s :=
  (Inv.run hp h).reviewable

/-! ## What the screens load -/

section Opened

variable [TextOps] {σ σ' : World} {c : Classroom} {a : Assignment} {i : Nat} {now : Rat}
  {studentID : String} {x : Screen AssignmentShown}

/-- The fetched document at this position is the one of the assignment, and it
decodes with a name. -/
structure Opens (c : Classroom) (s : Store) (p : DocPath) (i : Nat) (a : Assignment) : Prop where
  listed : ∃ name doc, (c.assignmentDocuments s)[i]? = some (name, doc)
    ∧ p = ⟨Strings.assignment, name⟩ ∧ Assignment.ofDictionary (Doc.data doc) = some a
  named : a.name ≠ none

theorem Opens.current (h : Opens c s p i a) : Current s p a := by
  obtain ⟨name, doc, hat, rfl, hdecode⟩ := h.listed
  exact current_of_ofDictionary
    (DatabaseHelper.mem_getDocumentsFromIDs.mp (List.mem_of_getElem? hat)).1 hdecode

theorem Opens.getAssignment (h : Opens c s p i a) :
    GradeIo.getAssignment ((c.assignmentDocuments s).map fun d => Assignment.loaded now d.2) i =
      .ok a := by
  obtain ⟨name, doc, hat, -, hdecode⟩ := h.listed
  obtain ⟨title, htitle⟩ := Option.ne_none_iff_exists'.mp h.named
  have hitem : ((c.assignmentDocuments s).map fun d => Assignment.loaded now d.2)[i]? = some a := by
    rw [List.getElem?_map, hat, Option.map_some, Assignment.loaded, hdecode, Option.getD_some]
  unfold GradeIo.getAssignment
  rw [item_eq_ok.mpr hitem]
  show (Screen.unwrap a.name >>= _) = _
  rw [htitle]
  rfl

theorem studentAssignmentOverview_eq (h : Opens σ.currentClassroom σ.store p i a)
    (hload : (StudentAssignmentOverview.viewDidLoad now i).run σ = .ok x σ') :
    x = StudentAssignmentOverview.populateAssignPageLabels σ.currentUser.id a := by
  rw [StudentAssignmentOverview.viewDidLoad, run_get_bind] at hload
  obtain ⟨res, σ₁, hfetch, hrest⟩ := run_bind_eq_ok.mp hload
  obtain ⟨rfl, huser, -⟩ := Tapped.run_getAssignmentObjects_eq_ok hfetch
  rw [run_get_bind, huser] at hrest
  obtain ⟨rfl, -⟩ := run_pure_eq_ok.mp hrest
  rw [StudentAssignmentOverview.populate, h.getAssignment]
  rfl

theorem teacherStudentAnswers_eq (hclass : classOfStudent σ.store studentID = some c)
    (h : Opens c σ.store p i a)
    (hload : (TeacherStudentAnswers.viewDidLoad now studentID i).run σ = .ok x σ') :
    x = TeacherStudentAnswers.populateAssignPageLabels studentID a := by
  obtain ⟨c', hclass', hrest⟩ := Tapped.run_classOfStudent_eq_ok hload
  obtain rfl := Option.some.inj (hclass'.symm.trans hclass)
  obtain ⟨res, σ₁, hfetch, hpopulate⟩ := run_bind_eq_ok.mp hrest
  obtain ⟨rfl, -⟩ := Tapped.run_getAssignmentObjects_eq_ok hfetch
  obtain ⟨rfl, -⟩ := run_pure_eq_ok.mp hpopulate
  rw [TeacherStudentAnswers.populate, h.getAssignment]
  rfl

omit [TextOps] in
theorem getStudentList_eq {students : List Student} (h : ∀ student ∈ students, student.id ≠ none) :
    ParentStudentAssignmentOverview.getStudentList students = .ok students := by
  unfold ParentStudentAssignmentOverview.getStudentList
  induction students with
  | nil => rfl
  | cons student students ih =>
      obtain ⟨id, hid⟩ := Option.ne_none_iff_exists'.mp (h student List.mem_cons_self)
      rw [List.mapM_cons, ih fun s hs => h s (List.mem_cons_of_mem _ hs), hid]
      rfl

theorem parentStudentAssignmentOverview_eq (hclass : classOfStudent σ.store studentID = some c)
    {students : List Student} (hstudents : studentsOf σ.store c.studentIDs = some students)
    (hids : ∀ student ∈ students, student.id ≠ none) (h : Opens c σ.store p i a)
    (hload : (ParentStudentAssignmentOverview.viewDidLoad now studentID i).run σ = .ok x σ') :
    x = ParentStudentAssignmentOverview.populateAssignPageLabels studentID students a := by
  obtain ⟨c', hclass', hrest⟩ := Tapped.run_classOfStudent_eq_ok hload
  obtain rfl := Option.some.inj (hclass'.symm.trans hclass)
  obtain ⟨students', σ₁, hlist, hrest₁⟩ := run_bind_eq_ok.mp hrest
  obtain ⟨hstudents', rfl⟩ := Tapped.run_getStudentObjects_eq_ok hlist
  obtain rfl := Option.some.inj (hstudents'.symm.trans hstudents)
  obtain ⟨res, σ₂, hfetch, hpopulate⟩ := run_bind_eq_ok.mp hrest₁
  obtain ⟨rfl, -⟩ := Tapped.run_getAssignmentObjects_eq_ok hfetch
  obtain ⟨rfl, -⟩ := run_pure_eq_ok.mp hpopulate
  rw [ParentStudentAssignmentOverview.populate, h.getAssignment]
  show (ParentStudentAssignmentOverview.getStudentList students' >>= _) = _
  rw [getStudentList_eq hids]
  rfl

/-- So in these runs the screens that are opened on the assignment show a
submitted result in full. -/
theorem hasRows_opened (hp : documentPath Strings.assignment docID = some p)
    (hrun : (system docID p).Run (SafeStep p) σ.store) (h : Opens c σ.store p i a) {r : Result}
    (hr : r ∈ resultsAt σ.store p) (hsubmitted : r.isSubmitted = true) :
    (σ.currentClassroom = c → σ.currentUser.id = some r.studentID →
        (StudentAssignmentOverview.viewDidLoad now i).run σ = .ok x σ' →
        HasRows (problemsAt σ.store p).length x)
      ∧ (classOfStudent σ.store r.studentID = some c →
        (TeacherStudentAnswers.viewDidLoad now r.studentID i).run σ = .ok x σ' →
        HasRows (problemsAt σ.store p).length x)
      ∧ ∀ students, classOfStudent σ.store r.studentID = some c →
        studentsOf σ.store c.studentIDs = some students →
        (∀ student ∈ students, student.id ≠ none) →
        (ParentStudentAssignmentOverview.viewDidLoad now r.studentID i).run σ = .ok x σ' →
        HasRows (problemsAt σ.store p).length x := by
  obtain ⟨hstudent, hteacher, hparent⟩ :=
    (Inv.run hp hrun).reviewable a h.current r hr hsubmitted
  refine ⟨?_, ?_, ?_⟩
  · rintro rfl huser hload
    rw [studentAssignmentOverview_eq h hload, huser]
    exact hstudent
  · intro hclass hload
    rw [teacherStudentAnswers_eq hclass h hload]
    exact hteacher
  · intro students hclass hstudents hids hload
    rw [parentStudentAssignmentOverview_eq hclass hstudents hids h hload]
    exact hparent students hids

end Opened

/-! ## The condition is exact -/

theorem problemsAt_addProblem {problem : Problem} (hne : problemsAt s p ≠ [])
    (hnew : problem.toValue ∉ elements (s.field p Strings.problems)) :
    problemsAt (s.apply (.unionMerge p Strings.problems problem.toValue)) p =
      problemsAt s p ++ [problem] := by
  unfold problemsAt listAt at hne ⊢
  rw [Store.field_apply_unionMerge, if_pos ⟨rfl, rfl⟩, Keyed.addIfAbsent_of_not_mem hnew]
  cases hds : (s.field p Strings.problems).bind (asArray asDict) with
  | none => simp [hds] at hne
  | some ds =>
      cases hps : ds.mapM Problem.ofDictionary with
      | none => simp [hds, hps] at hne
      | some ps =>
          obtain ⟨v, hfield, hv⟩ := Option.bind_eq_some_iff.mp hds
          cases v with
          | array vs =>
              change vs.mapM asDict = some ds at hv
              have hdict : asDict problem.toValue = some problem.getDictionary := rfl
              simp [hfield, elements, asArray, List.mapM_append, hv, hdict, hps,
                Problem.ofDictionary_getDictionary]
          | _ => cases hv

/-- With a problem that is new, the screens have no answer for it. -/
theorem not_reviewable_of_not_safe (h : Inv p s)
    (hp : documentPath Strings.assignment docID = some p) {e : Event} (hnot : ¬ SafeStep p s e)
    (hs : (system docID p).step s e = some s') : ¬ Reviewable p s' := by
  cases e with
  | session x => exact absurd trivial hnot
  | addProblem a question answer =>
      obtain ⟨hresults, hnew⟩ := not_or.mp hnot
      obtain rfl := step_addProblem_eq_some hp hs
      have hresults' := resultsAt_addProblem h.stored (Problem.toValue ⟨question, answer⟩)
      have hproblems := problemsAt_addProblem (h.problems hresults) hnew
      obtain ⟨r, hr⟩ := List.exists_mem_of_ne_nil _ hresults
      -- the object that a listener leaves
      let a' : Assignment := { Assignment.new docID 0 with
        problems := some (problemsAt s p ++ [⟨question, answer⟩])
        results := some (resultsAt s p) }
      have hcurrent : Current (s.apply (.unionMerge p Strings.problems
          (Problem.toValue ⟨question, answer⟩))) p a' :=
        ⟨hproblems.symm, hresults'.symm⟩
      obtain ⟨first, hfirst⟩ : ∃ first,
          (resultsAt s p).find? (fun x => x.studentID = r.studentID) = some first := by
        rw [← Option.isSome_iff_exists, List.find?_isSome]
        exact ⟨r, hr, decide_eq_true rfl⟩
      obtain ⟨hsubmitted, answers, times, hanswers, htimes, hlength, -⟩ :=
        h.sized first (List.mem_of_find?_eq_some hfirst)
      intro hreview
      obtain ⟨hrows, -⟩ := hreview a' hcurrent r (hresults' ▸ hr) (h.sized r hr).1
      have hle := length_le_of_hasRows rfl hfirst hsubmitted hanswers htimes hrows
      rw [List.length_append, hlength, List.length_singleton] at hle
      omega

end

/-! ## A problem added too late -/

section Late

def oneProblem : Event := .addProblem (Assignment.new "quiz" 0) "1 + 1" "2"

/-- Ann submits at once. -/
def annsSession : Event := .session
  { userID := some "s_ann"
    assignment := quizAssignment []
    opened := 0
    presses := []
    results := some []
    closed := 1 }

def prepared : Store :=
  (quizStore []).apply (.unionMerge quizPath Strings.problems (Problem.toValue ⟨"1 + 1", "2"⟩))

theorem path_quiz : documentPath Strings.assignment "quiz" = some quizPath := by decide

theorem run_prepared : (system "quiz" quizPath).Run (SafeStep quizPath) prepared := by
  have hinit : (system "quiz" quizPath).Init (quizStore []) := ⟨some [], stores_setMerge _ _ _, rfl⟩
  have hsafe : SafeStep quizPath (quizStore []) oneProblem :=
    Or.inl (resultsAt_of_stores (stores_setMerge _ _ []))
  have hstep : (system "quiz" quizPath).step (quizStore []) oneProblem = some prepared :=
    step_addProblem path_quiz rfl _ _
  exact .step (.init hinit) hsafe hstep

theorem step_annsSession : ∃ s, (system "quiz" quizPath).step prepared annsSession = some s
    ∧ resultsAt s quizPath ≠ []
    ∧ Problem.toValue ⟨"2 + 2", "4"⟩ ∉ elements (s.field quizPath Strings.problems) := by
  have hstep : ((system "quiz" quizPath).step prepared annsSession).map (fun s =>
      ((resultsAt s quizPath).length, decide (Problem.toValue ⟨"2 + 2", "4"⟩ ∈
        elements (s.field quizPath Strings.problems)))) = some (1, false) := by
    decide +kernel
  obtain ⟨s, hs, heq⟩ := Option.map_eq_some_iff.mp hstep
  obtain ⟨hlength, hnew⟩ := Prod.mk.inj heq
  exact ⟨s, hs, List.ne_nil_of_length_pos (by omega), of_decide_eq_false hnew⟩

/-- Her submission can be reviewed. -/
theorem reviewable_anns :
    ∃ s, (system "quiz" quizPath).step prepared annsSession = some s
      ∧ resultsAt s quizPath ≠ [] ∧ Reviewable quizPath s := by
  obtain ⟨s, hs, hne, -⟩ := step_annsSession
  exact ⟨s, hs, hne, reviewable_of_run path_quiz (.step (a := annsSession) run_prepared trivial hs)⟩

/-- After a second problem it cannot. -/
theorem not_reviewable_late :
    ∃ s, (system "quiz" quizPath).Reachable s ∧ ¬ Reviewable quizPath s := by
  obtain ⟨s, hs, hne, hnew⟩ := step_annsSession
  have hrun : (system "quiz" quizPath).Run (SafeStep quizPath) s :=
    .step (a := annsSession) run_prepared trivial hs
  have hreach : (system "quiz" quizPath).Reachable s := hrun.weaken fun _ _ _ => trivial
  let second : Event := .addProblem (Assignment.new "quiz" 0) "2 + 2" "4"
  have hnot : ¬ SafeStep quizPath s second := not_or.mpr ⟨hne, hnew⟩
  have hstep := step_addProblem (s := s) (a := Assignment.new "quiz" 0) path_quiz rfl "2 + 2" "4"
  exact ⟨_, .step (a := second) hreach trivial hstep,
    not_reviewable_of_not_safe (Inv.run path_quiz hrun) path_quiz hnot hstep⟩

end Late

end Review

end GradeIo
