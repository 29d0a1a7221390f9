import GradeIo.Assignment

/-!
# The quiz controller

`Quiz.swift`: opening a session and submitting it. The controller reads two
globals, `CurrentAssignment` (an `Assignment`) and `CurrentUser` (of which it
uses the id), and the clock once per handler. Handlers give `none` where they
trap. What a submission does to the database is `insertResult`, as a list of
writes in program order.

The controller's property `existingResult` is assigned before every use, so
it is a local here; labels and the printed copy of the times are left out.
-/

namespace GradeIo

open DocDb

structure Quiz where
  studentsAnswers : List String
  qIndex : Nat
  currentProblem : Problem
  result : Result
  totalPossibleGrade : Option Nat
  /-- The text of the input field. -/
  studentInput : Option String
deriving DecidableEq, Repr

/-- `Array.remove(at:)`; traps on an index out of range. -/
def removeAt {α : Type} (l : List α) (i : Int) : Option (List α) :=
  if 0 ≤ i ∧ i < l.length then some (l.eraseIdx i.toNat) else none

namespace Quiz

/-- The stored result of the current user, as `CurrentAssignment` shows it, or
an empty one. -/
def existingResult (a : Assignment) (userID : Option String) (now : Rat) : Result :=
  (a.results.bind fun rs => rs.find? fun r => some r.studentID = userID).getD (Result.init now)

def setCurrentQuestion (q : Quiz) (a : Assignment) (index : Nat) : Option Quiz := do
  let currentProblem ← match a.problems with
    | some ps => ps[index]?
    | none => some ⟨"", ""⟩
  let answer ← q.studentsAnswers[q.qIndex]?
  let _ ← a.problems
  some { q with currentProblem, studentInput := some answer }

/-- The property initialisers followed by `viewDidLoad`. -/
def viewDidLoad (a : Assignment) (userID : Option String) (now : Rat) : Option Quiz := do
  let problems ← a.problems
  let existing := existingResult a userID now
  let result := if existing.grade ≠ 0 then existing else Result.init now
  let result := (result.startTimer now).startIndividualQuestionTimer now
  let q ← setCurrentQuestion
    { studentsAnswers := List.replicate problems.length ""
      qIndex := 0
      currentProblem := ⟨"", ""⟩
      result
      totalPossibleGrade := some problems.length
      studentInput := some "" } a 0
  some { q with result := { q.result with
    timeTakenPerQuestion := some (List.replicate problems.length 0) } }

/-! ## Paging -/

def backButtonPressed (q : Quiz) (a : Assignment) (now : Rat) : Option Quiz :=
  if 0 < q.qIndex then do
    let old ← q.studentsAnswers[q.qIndex]?
    let studentsAnswers := q.studentsAnswers.set q.qIndex (q.studentInput.getD old)
    let result ← q.result.stopIndividualTime now q.qIndex
    let q ← setCurrentQuestion { q with studentsAnswers, result, qIndex := q.qIndex - 1 } a
      (q.qIndex - 1)
    some { q with result := q.result.startIndividualQuestionTimer now }
  else some q

def nextButtonPressed (q : Quiz) (a : Assignment) (now : Rat) : Option Quiz := do
  let problems ← a.problems
  if q.qIndex + 1 < problems.length then
    let old ← q.studentsAnswers[q.qIndex]?
    let studentsAnswers := q.studentsAnswers.set q.qIndex (q.studentInput.getD old)
    let result ← q.result.stopIndividualTime now q.qIndex
    let result := result.startIndividualQuestionTimer now
    setCurrentQuestion { q with studentsAnswers, result, qIndex := q.qIndex + 1 } a (q.qIndex + 1)
  else some q

/-- The student types. -/
def edit (q : Quiz) (text : String) : Quiz := { q with studentInput := some text }

/-! ## Submitting -/

/-- The loop of `doGrading` over the remaining answers. -/
def gradeFrom (problems : List Problem) : List String → Nat → Nat → Option Nat
  | [], _, tempGrade => some tempGrade
  | answer :: answers, count, tempGrade => do
      let p ← problems[count]?
      gradeFrom problems answers (count + 1) (if answer = p.answer then tempGrade + 1 else tempGrade)

/-- With no problem in the assignment this would divide zero by zero, but then
there is no answer at `qIndex` either and `submitButtonPressed` has trapped. -/
def doGrading (q : Quiz) (a : Assignment) : Option Rat := do
  let tempGrade ← match q.studentsAnswers with
    | [] => some 0
    | answers => a.problems.bind fun ps => gradeFrom ps answers 0 0
  let total ← q.totalPossibleGrade
  some (tempGrade / total)

def createResult (q : Quiz) (a : Assignment) (userID : Option String) (grade now : Rat) :
    Option Result := do
  let assignmentID ← a.id
  let result := { q.result with grade, assignmentID, isSubmitted := true }
  let result ← (result.stopTime now).stopIndividualTime now q.qIndex
  let studentID ← userID
  some { result with studentID, studentAnswers := some q.studentsAnswers }

/-- Replace the current user's stored result, or add a first one. The test on
`temp` lets the new result through and would write the others back only if
there were none to write. -/
def insertResult (a : Assignment) (userID : Option String) (now : Rat) (result : Result) :
    Option (Assignment × List Write) := do
  if ¬ (existingResult a userID now).studentID.isEmpty then
    let id ← userID
    let index := a.getResultIndexByID id
    let temp ← match a.results with
      | some rs => (removeAt rs index).map some
      | none => some none
    let a := { a with results := temp }
    let clear ← a.clearResults
    match temp with
    | some _ =>
        let add ← a.addResult result
        some (a, [clear, add])
    | none => none
  else
    let add ← a.addResult result
    some (a, [add])

/-- What a submission leaves: the session, the local assignment, the result
handed to `insertResult` and the writes issued. -/
structure Submission where
  quiz : Quiz
  assignment : Assignment
  result : Result
  writes : List Write

/-- The part of `SubmitButtonPressed` before `insertResult`: the session and the
result handed over. -/
def handIn (q : Quiz) (a : Assignment) (userID : Option String) (now : Rat) :
    Option (Quiz × Result) := do
  let old ← q.studentsAnswers[q.qIndex]?
  let q := { q with studentsAnswers := q.studentsAnswers.set q.qIndex (q.studentInput.getD old) }
  let grade ← q.doGrading a
  let result ← q.createResult a userID grade now
  some ({ q with result }, result)

def submitButtonPressed (q : Quiz) (a : Assignment) (userID : Option String) (now : Rat) :
    Option Submission := do
  let old ← q.studentsAnswers[q.qIndex]?
  let q := { q with studentsAnswers := q.studentsAnswers.set q.qIndex (q.studentInput.getD old) }
  let grade ← q.doGrading a
  let result ← q.createResult a userID grade now
  let (assignment, writes) ← insertResult a userID now result
  some { quiz := { q with result }, assignment, result, writes }

/-! ## What a submission is made of -/

/-- A result is the current user's and carries the session's answers. -/
theorem createResult_eq_some {q : Quiz} {a : Assignment} {userID : Option String}
    {grade now : Rat} {r : Result} (h : q.createResult a userID grade now = some r) :
    userID = some r.studentID ∧ r.studentAnswers = some q.studentsAnswers := by
  simp only [createResult, Option.bind_eq_bind, Option.bind_eq_some_iff] at h
  obtain ⟨_, -, _, -, sid, hsid, hr⟩ := h
  obtain rfl := Option.some.inj hr
  exact ⟨hsid, rfl⟩

theorem submitButtonPressed_eq_some {q : Quiz} {a : Assignment} {userID : Option String}
    {now : Rat} {s : Submission} (h : q.submitButtonPressed a userID now = some s) :
    userID = some s.result.studentID
      ∧ insertResult a userID now s.result = some (s.assignment, s.writes)
      ∧ ∃ old, s.result.studentAnswers =
          some (q.studentsAnswers.set q.qIndex (q.studentInput.getD old)) := by
  simp only [submitButtonPressed, Option.bind_eq_bind, Option.bind_eq_some_iff] at h
  obtain ⟨old, -, _, -, r, hr, ⟨a', ws⟩, hins, hs⟩ := h
  obtain rfl := Option.some.inj hs
  obtain ⟨hid, hanswers⟩ := createResult_eq_some hr
  exact ⟨hid, hins, old, hanswers⟩

theorem submitButtonPressed_eq (q : Quiz) (a : Assignment) (userID : Option String) (now : Rat) :
    q.submitButtonPressed a userID now = (q.handIn a userID now).bind fun (quiz, result) =>
      (insertResult a userID now result).map fun (assignment, writes) =>
        { quiz, assignment, result, writes } := by
  unfold submitButtonPressed handIn
  cases q.studentsAnswers[q.qIndex]? with
  | none => rfl
  | some old =>
      simp only [Option.bind_eq_bind, Option.bind_some, Option.bind_assoc]
      congr 1
      funext grade
      congr 1
      funext result
      cases insertResult a userID now result <;> rfl

/-! ## Sessions that can be submitted -/

/-- The session was opened on this many problems: there is an answer and a
time for each, and the current question is one of them. -/
structure Ready (q : Quiz) (problems : List Problem) : Prop where
  answers : q.studentsAnswers.length = problems.length
  index : q.qIndex < problems.length
  total : q.totalPossibleGrade = some problems.length
  times : ∃ ts, q.result.timeTakenPerQuestion = some ts ∧ ts.length = problems.length

/-- Opening an assignment with a problem gives such a session. -/
theorem viewDidLoad_ready {a : Assignment} {problems : List Problem}
    (userID : Option String) (now : Rat) (hps : a.problems = some problems) (hne : problems ≠ []) :
    ∃ q, viewDidLoad a userID now = some q ∧ q.Ready problems := by
  obtain ⟨p, ps, rfl⟩ := List.exists_cons_of_ne_nil hne
  refine ⟨_, by simp [viewDidLoad, setCurrentQuestion, hps]; rfl, ?_⟩
  constructor
  · simp
  · simp
  · rfl
  · exact ⟨_, rfl, by simp⟩

end Quiz

end GradeIo
