import GradeIo.Lib.Transition
import GradeIo.Submission

/-!
# Quiz sessions

What the handlers of the quiz controller do to a session that was opened on a
list of problems, whatever list the assignment has by now: `turned` is a
session after one of the two paging buttons, `handed` the result that a
submission hands over. The handlers are these two functions where they do not
trap (`nextButtonPressed_eq`, `backButtonPressed_eq`, `handIn_eq`).

Then the sessions on an assignment that does not change: `Shown` ties the input
field, the index and the array of answers to what has been on the screen, and
the submission is the one of the obvious specification (`refines_of_presses`).
-/

namespace GradeIo.Quiz

open DocDb

/-- The answers with the text of the field at the current question. -/
def recorded (q : Quiz) : List String :=
  q.studentsAnswers.set q.qIndex (q.studentInput.getD (q.studentsAnswers[q.qIndex]?.getD ""))

/-- The times with the one since the question was displayed. -/
def timed (q : Quiz) (now : Rat) : Result :=
  { q.result with
    timeTakenPerQuestion := q.result.timeTakenPerQuestion.map fun ts =>
      ts.set q.qIndex (ts[q.qIndex]?.getD 0 + (now - q.result.individualStartTime))
    individualStartTime := now }

/-- The session after a paging button, at another question. -/
def turned (q : Quiz) (now : Rat) (index : Nat) (p : Problem) : Quiz :=
  { q with
    studentsAnswers := q.recorded
    qIndex := index
    currentProblem := p
    result := q.timed now
    studentInput := some (q.recorded[index]?.getD "") }

/-- How many answers are the right ones. -/
def correct (problems : List Problem) (answers : List String) : Nat :=
  (answers.zip problems).countP fun p => p.1 = p.2.answer

/-- The result that a submission hands over. -/
def handed (q : Quiz) (problems : List Problem) (assignmentID studentID : String) (now : Rat) :
    Result :=
  { (Quiz.timed { q with result := q.result.stopTime now } now) with
    grade := correct problems q.recorded / q.studentsAnswers.length
    assignmentID
    isSubmitted := true
    studentID
    studentAnswers := some q.recorded }

section

variable {q : Quiz} {a : Assignment} {opened problems : List Problem} {now : Rat}

@[simp] theorem length_recorded (q : Quiz) : q.recorded.length = q.studentsAnswers.length := by
  simp [recorded]

/-- Where there is an answer, the field is what is recorded. -/
theorem getElem?_recorded_self {text : String} (hlt : q.qIndex < q.studentsAnswers.length)
    (h : q.studentInput = some text) : q.recorded[q.qIndex]? = some text := by
  simp [recorded, h, hlt]

theorem getElem?_recorded_of_ne {i : Nat} (h : i ≠ q.qIndex) :
    q.recorded[i]? = q.studentsAnswers[i]? := by
  simp [recorded, List.getElem?_set_ne (Ne.symm h)]

theorem Ready.stopIndividualTime (h : q.Ready opened) :
    q.result.stopIndividualTime now q.qIndex = some (q.timed now) := by
  obtain ⟨ts, hts, hlen⟩ := h.times
  have hlt : q.qIndex < ts.length := hlen ▸ h.index
  simp [Result.stopIndividualTime, timed, hts, hlt]

theorem Ready.answer (h : q.Ready opened) :
    q.studentsAnswers[q.qIndex]? = some (q.studentsAnswers[q.qIndex]?.getD "") := by
  have hlt : q.qIndex < q.studentsAnswers.length := h.answers ▸ h.index
  simp [hlt]

theorem Ready.turned (h : q.Ready opened) {index : Nat} (hindex : index < opened.length)
    (p : Problem) : (q.turned now index p).Ready opened := by
  obtain ⟨ts, hts, hlen⟩ := h.times
  refine ⟨by simp [Quiz.turned, h.answers], hindex, h.total, ?_⟩
  have htimes : (q.timed now).timeTakenPerQuestion = some (ts.set q.qIndex
      (ts[q.qIndex]?.getD 0 + (now - q.result.individualStartTime))) := by
    rw [timed, hts]
    rfl
  exact ⟨_, htimes, by rw [List.length_set, hlen]⟩

/-- Displaying a question looks up the problem and the recorded answer. -/
theorem setCurrentQuestion_eq (q : Quiz) (hps : a.problems = some problems) (index : Nat) :
    setCurrentQuestion q a index = (problems[index]?).bind fun currentProblem =>
      (q.studentsAnswers[q.qIndex]?).map fun answer =>
        { q with currentProblem, studentInput := some answer } := by
  simp only [setCurrentQuestion, hps, Option.bind_eq_bind]
  cases problems[index]? with
  | none => rfl
  | some p => cases q.studentsAnswers[q.qIndex]? <;> rfl

/-- The session that a paging button leaves, if the question and its answer exist. -/
theorem Ready.setCurrentQuestion_turned (h : q.Ready opened) (now : Rat) (hps : a.problems = some problems)
    (index : Nat) :
    setCurrentQuestion
        { q with studentsAnswers := q.recorded, result := q.timed now, qIndex := index } a index =
      if index < opened.length then (problems[index]?).map (q.turned now index) else none := by
  rw [setCurrentQuestion_eq _ hps]
  have hlen : q.recorded.length = opened.length := by rw [length_recorded, h.answers]
  by_cases hindex : index < opened.length
  · obtain ⟨answer, hanswer⟩ : ∃ answer, q.recorded[index]? = some answer :=
      ⟨_, List.getElem?_eq_getElem (hlen ▸ hindex)⟩
    rw [if_pos hindex]
    unfold Quiz.turned
    simp only [hanswer, Option.map_some, Option.getD_some]
    cases problems[index]? <;> rfl
  · have hnone : q.recorded[index]? = none := by
      rw [List.getElem?_eq_none_iff, hlen]
      omega
    rw [if_neg hindex]
    simp only [hnone, Option.map_none]
    cases problems[index]? <;> rfl

/-- Next traps if the list has grown beyond the session. -/
theorem nextButtonPressed_eq (now : Rat) (h : q.Ready opened) (hps : a.problems = some problems) :
    q.nextButtonPressed a now =
      if q.qIndex + 1 < problems.length then
        if q.qIndex + 1 < opened.length then
          (problems[q.qIndex + 1]?).map (q.turned now (q.qIndex + 1))
        else none
      else some q := by
  unfold nextButtonPressed
  simp only [hps, Option.bind_eq_bind, Option.bind_some]
  congr 1
  rw [h.answer, h.stopIndividualTime]
  exact h.setCurrentQuestion_turned now hps (q.qIndex + 1)

/-- Back traps if the list has shrunk below the question before. -/
theorem backButtonPressed_eq (now : Rat) (h : q.Ready opened) (hps : a.problems = some problems) :
    q.backButtonPressed a now =
      if 0 < q.qIndex then (problems[q.qIndex - 1]?).map (q.turned now (q.qIndex - 1))
      else some q := by
  have hlt : q.qIndex - 1 < opened.length := by
    have := h.index
    omega
  unfold backButtonPressed
  congr 1
  rw [h.answer, h.stopIndividualTime]
  have hturned := h.setCurrentQuestion_turned now hps (q.qIndex - 1)
  rw [if_pos hlt] at hturned
  refine (congrArg (Option.bind · _) hturned).trans ?_
  cases problems[q.qIndex - 1]? <;> rfl

/-! ## Grading -/

/-- The loop counts the right answers, with a problem for each. -/
theorem gradeFrom_eq :
    ∀ (answers : List String) (count temp : Nat), count + answers.length ≤ problems.length →
      gradeFrom problems answers count temp = some (temp + correct (problems.drop count) answers)
  | [], _, _, _ => by simp [gradeFrom, correct]
  | answer :: answers, count, temp, h => by
      rw [List.length_cons] at h
      have hlt : count < problems.length := by omega
      have hrest := gradeFrom_eq answers (count + 1)
        (if answer = problems[count].answer then temp + 1 else temp) (by omega)
      rw [gradeFrom, List.getElem?_eq_getElem hlt, Option.bind_eq_bind, Option.bind_some, hrest,
        List.drop_eq_getElem_cons hlt, correct, correct, List.zip_cons_cons, List.countP_cons]
      by_cases hright : answer = problems[count].answer
      · simp only [hright, if_true, decide_true]
        congr 1
        omega
      · simp only [hright, if_false, decide_false, Bool.false_eq_true]
        congr 1

/-- With fewer problems than answers the loop runs out of them. -/
theorem gradeFrom_eq_none :
    ∀ (answers : List String) (count temp : Nat), count ≤ problems.length →
      problems.length < count + answers.length → gradeFrom problems answers count temp = none
  | [], _, _, hle, hlt => by
      rw [List.length_nil] at hlt
      omega
  | answer :: answers, count, temp, hle, hlt => by
      rw [List.length_cons] at hlt
      rw [gradeFrom]
      cases hp : problems[count]? with
      | none => rfl
      | some p =>
          have hcount : count < problems.length := (List.getElem?_eq_some_iff.mp hp).1
          exact gradeFrom_eq_none answers (count + 1) _ hcount (by omega)

theorem correct_le (problems : List Problem) (answers : List String) :
    correct problems answers ≤ answers.length := by
  refine List.countP_le_length.trans ?_
  rw [List.length_zip]
  exact Nat.min_le_left _ _

theorem doGrading_eq (h : q.Ready opened) (hps : a.problems = some problems) :
    doGrading { q with studentsAnswers := q.recorded } a =
      if opened.length ≤ problems.length then
        some ((correct problems q.recorded : Rat) / q.studentsAnswers.length)
      else none := by
  have hlen : q.recorded.length = opened.length := by rw [length_recorded, h.answers]
  have hindex := h.index
  obtain ⟨x, xs, hx⟩ : ∃ x xs, q.recorded = x :: xs := by
    refine List.exists_cons_of_ne_nil fun hnil => ?_
    rw [hnil, List.length_nil] at hlen
    omega
  unfold doGrading
  simp only [hx, hps, Option.bind_some, h.total, Option.bind_eq_bind, h.answers]
  rw [← hx]
  split
  · rename_i hle
    rw [gradeFrom_eq q.recorded 0 0 (by omega), Nat.zero_add, List.drop_zero]
    rfl
  · rename_i hgt
    rw [gradeFrom_eq_none q.recorded 0 0 (Nat.zero_le _) (by omega)]
    rfl

theorem createResult_eq (h : q.Ready opened) (userID : Option String) :
    createResult { q with studentsAnswers := q.recorded } a userID
        ((correct problems q.recorded : Rat) / q.studentsAnswers.length) now =
      a.id.bind fun id => userID.map fun u => q.handed problems id u now := by
  obtain ⟨ts, hts, hlen⟩ := h.times
  have hlt : q.qIndex < ts.length := hlen ▸ h.index
  unfold createResult handed timed
  cases a.id with
  | none => rfl
  | some id =>
      cases userID <;>
        simp [Result.stopIndividualTime, Result.stopTime, hts, List.getElem?_eq_getElem hlt]

/-- What a submission hands over; it traps if the list has shrunk. -/
theorem handIn_eq (h : q.Ready opened) (hps : a.problems = some problems)
    (userID : Option String) :
    q.handIn a userID now =
      if opened.length ≤ problems.length then
        a.id.bind fun id => userID.map fun u =>
          ({ q with studentsAnswers := q.recorded, result := q.handed problems id u now },
            q.handed problems id u now)
      else none := by
  unfold handIn
  rw [h.answer]
  show ((doGrading { q with studentsAnswers := q.recorded } a).bind fun grade =>
    (createResult { q with studentsAnswers := q.recorded } a userID grade now).bind fun result =>
      some ({ q with studentsAnswers := q.recorded, result }, result)) = _
  rw [doGrading_eq h hps]
  split
  · rw [Option.bind_some, createResult_eq h userID]
    cases a.id with
    | none => rfl
    | some id => cases userID <;> rfl
  · rfl

/-- The session that a submission leaves can go on. -/
theorem Ready.handed (h : q.Ready opened) (problems : List Problem) (now : Rat)
    (assignmentID studentID : String) :
    Quiz.Ready { q with
      studentsAnswers := q.recorded
      result := q.handed problems assignmentID studentID now } opened := by
  obtain ⟨ts, hts, hlen⟩ := h.times
  refine ⟨by simp [h.answers], h.index, h.total, ?_⟩
  simp [Quiz.handed, timed, Result.stopTime, hts, hlen]

/-- A submission goes through if there is still a problem for each answer. -/
theorem submitButtonPressed_of_le {id u : String} {p : DocPath} (now : Rat) (h : q.Ready opened)
    (hps : a.problems = some problems) (hid : a.id = some id)
    (hp : documentPath Strings.assignment id = some p) (hle : opened.length ≤ problems.length) :
    ∃ sub, q.submitButtonPressed a (some u) now = some sub
      ∧ sub.quiz.Ready opened ∧ sub.assignment.problems = some problems
      ∧ sub.result = q.handed problems id u now := by
  obtain ⟨b, ws, hins, hb⟩ : ∃ b ws,
      insertResult a (some u) now (q.handed problems id u now) = some (b, ws)
        ∧ b.problems = some problems := by
    by_cases hshows : a.Shows u
    · exact ⟨_, _, insertResult_of_shows hid hp hshows, hps⟩
    · exact ⟨_, _, insertResult_of_not_shows hid hp hshows, hps⟩
  refine ⟨⟨{ q with studentsAnswers := q.recorded, result := q.handed problems id u now }, b,
    q.handed problems id u now, ws⟩, ?_, h.handed problems now id u, hb, rfl⟩
  rw [submitButtonPressed_eq, handIn_eq h hps, if_pos hle, hid]
  simp only [Option.bind_some, Option.map_some, hins]

/-- A session just opened. -/
theorem viewDidLoad_eq {p : Problem} {ps : List Problem} (userID : Option String)
    (hps : a.problems = some (p :: ps)) :
    viewDidLoad a userID now = some
      { studentsAnswers := List.replicate (p :: ps).length ""
        qIndex := 0
        currentProblem := p
        result :=
          { (if (existingResult a userID now).grade ≠ 0 then existingResult a userID now
              else Result.init now) with
            startTime := now
            individualStartTime := now
            timeTakenPerQuestion := some (List.replicate (p :: ps).length 0) }
        totalPossibleGrade := some (p :: ps).length
        studentInput := some "" } := by
  simp only [viewDidLoad, hps, Option.bind_eq_bind, Option.bind_some, setCurrentQuestion_eq _ hps]
  rfl

end

/-- An assignment of two questions. -/
def twoQuestions : Assignment where
  results := some []
  problems := some [⟨"1 + 1", "2"⟩, ⟨"2 + 2", "4"⟩]
  dueDate := none
  id := some "quiz"
  classID := none
  filePath := none
  description := none
  name := none

/-! ## Sessions on an assignment that does not change -/

inductive Press where
  | edit (text : String)
  | next (now : Rat)
  | back (now : Rat)

def press (a : Assignment) (q : Quiz) : Press → Option Quiz
  | .edit text => some (q.edit text)
  | .next now => q.nextButtonPressed a now
  | .back now => q.backButtonPressed a now

/-- The question on the screen and the text of the field. -/
def display (q : Quiz) : Nat × String := (q.qIndex, q.studentInput.getD "")

/-- A session and what has been on the screen, the latest first. -/
structure Session where
  quiz : Quiz
  shown : List (Nat × String)

/-- The last text of the field while the question was displayed. -/
def lastHeld (shown : List (Nat × String)) (i : Nat) : String := (shown.lookup i).getD ""

def Session.open (q : Quiz) : Session := ⟨q, [q.display]⟩

def system (a : Assignment) (userID : Option String) (now : Rat) :
    Transition.System Session Press where
  Init s := ∃ q, viewDidLoad a userID now = some q ∧ s = .open q
  step s e := (press a s.quiz e).map fun q => ⟨q, q.display :: s.shown⟩

/-- The field holds the last text of the displayed question, the array that of
every other one. -/
structure Shown (problems : List Problem) (s : Session) : Prop where
  ready : s.quiz.Ready problems
  field : s.quiz.studentInput = some (lastHeld s.shown s.quiz.qIndex)
  others : ∀ i < problems.length, i ≠ s.quiz.qIndex →
    s.quiz.studentsAnswers[i]? = some (lastHeld s.shown i)

section

variable {a : Assignment} {problems : List Problem} {s : Session} {userID : Option String}
  {opened : Rat}

theorem lastHeld_cons_self (shown : List (Nat × String)) (i : Nat) (text : String) :
    lastHeld ((i, text) :: shown) i = text := by
  simp [lastHeld]

theorem lastHeld_cons_of_ne {i j : Nat} (h : i ≠ j) (shown : List (Nat × String)) (text : String) :
    lastHeld ((j, text) :: shown) i = lastHeld shown i := by
  have hij : (i == j) = false := by simpa using h
  simp [lastHeld, List.lookup_cons, hij]

theorem Shown.recorded (h : Shown problems s) {i : Nat} (hi : i < problems.length) :
    s.quiz.recorded[i]? = some (lastHeld s.shown i) := by
  by_cases heq : i = s.quiz.qIndex
  · subst heq
    exact getElem?_recorded_self (h.ready.answers ▸ hi) h.field
  · rw [getElem?_recorded_of_ne heq]
    exact h.others i hi heq

/-- The array that a submission takes over. -/
theorem Shown.recorded_eq (h : Shown problems s) :
    s.quiz.recorded = (List.range problems.length).map (lastHeld s.shown) := by
  refine List.ext_getElem? fun i => ?_
  by_cases hi : i < problems.length
  · rw [h.recorded hi]
    simp [hi]
  · rw [List.getElem?_eq_none (by rw [length_recorded, h.ready.answers]; omega)]
    simp [hi]

theorem Shown.open {q : Quiz} (hps : a.problems = some problems) (hne : problems ≠ [])
    (hq : viewDidLoad a userID opened = some q) : Shown problems (.open q) := by
  obtain ⟨p, ps, rfl⟩ := List.exists_cons_of_ne_nil hne
  obtain ⟨q', hq', hready⟩ := viewDidLoad_ready userID opened hps hne
  obtain rfl : q' = q := Option.some.inj (hq'.symm.trans hq)
  rw [viewDidLoad_eq userID hps] at hq
  obtain rfl := Option.some.inj hq
  refine ⟨hready, rfl, fun i hi hi' => ?_⟩
  have hi : i < (p :: ps).length := hi
  have hne : i ≠ 0 := hi'
  show (List.replicate (p :: ps).length "")[i]? = some (lastHeld [(0, "")] i)
  rw [lastHeld_cons_of_ne hne, List.getElem?_replicate, if_pos hi]
  rfl

theorem Shown.edit (h : Shown problems s) (text : String) :
    Shown problems ⟨s.quiz.edit text, (s.quiz.edit text).display :: s.shown⟩ := by
  refine ⟨⟨h.ready.answers, h.ready.index, h.ready.total, h.ready.times⟩, ?_, fun i hi hne => ?_⟩
  · exact congrArg some (lastHeld_cons_self s.shown s.quiz.qIndex text).symm
  · have hne : i ≠ s.quiz.qIndex := hne
    show s.quiz.studentsAnswers[i]? = some (lastHeld ((s.quiz.qIndex, text) :: s.shown) i)
    rw [lastHeld_cons_of_ne hne]
    exact h.others i hi hne

/-- A button that does nothing leaves the display as it is. -/
theorem Shown.same (h : Shown problems s) :
    Shown problems ⟨s.quiz, s.quiz.display :: s.shown⟩ := by
  have hdisplay : s.quiz.display = (s.quiz.qIndex, lastHeld s.shown s.quiz.qIndex) := by
    rw [display, h.field]
    rfl
  refine ⟨h.ready, ?_, fun i hi hne => ?_⟩
  · rw [hdisplay, lastHeld_cons_self]
    exact h.field
  · have hne : i ≠ s.quiz.qIndex := hne
    rw [hdisplay, lastHeld_cons_of_ne hne]
    exact h.others i hi hne

/-- The recorded answer of the other question is shown, and the text of this
one is recorded. -/
theorem Shown.turned (h : Shown problems s) {index : Nat} (hindex : index < problems.length)
    (now : Rat) (p : Problem) :
    ((s.quiz.turned now index p).studentInput = some (lastHeld s.shown index)
        ∧ (s.quiz.turned now index p).studentInput =
          (s.quiz.turned now index p).studentsAnswers[index]?)
      ∧ Shown problems ⟨s.quiz.turned now index p,
          (s.quiz.turned now index p).display :: s.shown⟩ := by
  have hfield : (s.quiz.turned now index p).studentInput = some (lastHeld s.shown index) := by
    show some (s.quiz.recorded[index]?.getD "") = _
    rw [h.recorded hindex]
    rfl
  have hdisplay : (s.quiz.turned now index p).display = (index, lastHeld s.shown index) := by
    rw [display, hfield]
    rfl
  refine ⟨⟨hfield, hfield.trans (h.recorded hindex).symm⟩, h.ready.turned hindex p, ?_,
    fun i hi hi' => ?_⟩
  · rw [hdisplay, hfield]
    exact congrArg some (lastHeld_cons_self s.shown index _).symm
  · have hi' : i ≠ index := hi'
    rw [hdisplay, lastHeld_cons_of_ne hi']
    exact h.recorded hi

/-- Every press is possible, and a question that comes back shows its answer. -/
theorem Shown.step (hps : a.problems = some problems) (h : Shown problems s) (e : Press) :
    ∃ s', (system a userID opened).step s e = some s' ∧ Shown problems s'
      ∧ (s'.quiz.qIndex ≠ s.quiz.qIndex →
          s'.quiz.studentInput = some (lastHeld s.shown s'.quiz.qIndex)
            ∧ s'.quiz.studentInput = s'.quiz.studentsAnswers[s'.quiz.qIndex]?) := by
  have hindex := h.ready.index
  cases e with
  | edit text => exact ⟨_, rfl, h.edit text, fun hne => absurd rfl hne⟩
  | next now =>
      have hnext := nextButtonPressed_eq now h.ready hps
      by_cases hlt : s.quiz.qIndex + 1 < problems.length
      · rw [if_pos hlt, if_pos hlt, List.getElem?_eq_getElem hlt, Option.map_some] at hnext
        obtain ⟨hfield, hturned⟩ := h.turned hlt now problems[s.quiz.qIndex + 1]
        exact ⟨_, congrArg (Option.map _) hnext, hturned, fun _ => hfield⟩
      · rw [if_neg hlt] at hnext
        exact ⟨_, congrArg (Option.map _) hnext, h.same, fun hne => absurd rfl hne⟩
  | back now =>
      have hback := backButtonPressed_eq now h.ready hps
      by_cases hpos : 0 < s.quiz.qIndex
      · have hlt : s.quiz.qIndex - 1 < problems.length := by omega
        rw [if_pos hpos, List.getElem?_eq_getElem hlt, Option.map_some] at hback
        obtain ⟨hfield, hturned⟩ := h.turned hlt now problems[s.quiz.qIndex - 1]
        exact ⟨_, congrArg (Option.map _) hback, hturned, fun _ => hfield⟩
      · rw [if_neg hpos] at hback
        exact ⟨_, congrArg (Option.map _) hback, h.same, fun hne => absurd rfl hne⟩

/-- A share of the answers. -/
theorem correct_div_mem (problems : List Problem) (answers : List String) :
    (0 : Rat) ≤ correct problems answers / answers.length
      ∧ (correct problems answers : Rat) / answers.length ≤ 1 := by
  have hle : (correct problems answers : Rat) ≤ answers.length := by
    exact_mod_cast correct_le problems answers
  exact ⟨by positivity, div_le_one_of_le₀ hle (by positivity)⟩

/-- What a submission hands over, if it gets so far. -/
theorem Shown.submit (hps : a.problems = some problems) (h : Shown problems s) {now : Rat}
    {sub : Submission} (hsub : s.quiz.submitButtonPressed a userID now = some sub) :
    ∃ answers : List String, sub.result.studentAnswers = some answers
      ∧ answers = (List.range problems.length).map (lastHeld s.shown)
      ∧ sub.result.grade = (correct problems answers : Rat) / problems.length
      ∧ 0 ≤ sub.result.grade ∧ sub.result.grade ≤ 1 := by
  rw [submitButtonPressed_eq, handIn_eq h.ready hps, if_pos le_rfl] at hsub
  simp only [Option.bind_eq_some_iff, Option.map_eq_some_iff] at hsub
  obtain ⟨⟨quiz, result⟩, ⟨id, -, u, -, hresult⟩, ⟨b, ws⟩, -, rfl⟩ := hsub
  obtain ⟨rfl, rfl⟩ := Prod.mk.inj hresult
  have hgrade : (s.quiz.handed problems id u now).grade =
      (correct problems s.quiz.recorded : Rat) / s.quiz.recorded.length := by
    rw [length_recorded]
    rfl
  have hlen : s.quiz.recorded.length = problems.length := by
    rw [length_recorded, h.ready.answers]
  obtain ⟨hnonneg, hle⟩ := correct_div_mem problems s.quiz.recorded
  refine ⟨s.quiz.recorded, rfl, h.recorded_eq, ?_, ?_, ?_⟩
  · rw [hgrade, hlen]
  · exact hgrade ▸ hnonneg
  · exact hgrade ▸ hle

/-- No sequence of presses traps, and what is submitted is what was last in the
field. A submission needs the assignment's id and the user's. -/
theorem refines_of_presses (hps : a.problems = some problems) (hne : problems ≠ [])
    (presses : List Press) :
    ∃ q s, viewDidLoad a userID opened = some q
      ∧ (system a userID opened).replay (.open q) presses = some s
      ∧ s.quiz.qIndex < problems.length
      ∧ s.quiz.studentsAnswers.length = problems.length
      ∧ (∀ e, ∃ s', (system a userID opened).step s e = some s'
          ∧ (s'.quiz.qIndex ≠ s.quiz.qIndex →
              s'.quiz.studentInput = some (lastHeld s.shown s'.quiz.qIndex)
                ∧ s'.quiz.studentInput = s'.quiz.studentsAnswers[s'.quiz.qIndex]?))
      ∧ ∀ now,
          (a.listen ≠ none → userID ≠ none →
            ∃ sub, s.quiz.submitButtonPressed a userID now = some sub)
          ∧ ∀ sub, s.quiz.submitButtonPressed a userID now = some sub →
              ∃ answers : List String, sub.result.studentAnswers = some answers
                ∧ answers = (List.range problems.length).map (lastHeld s.shown)
                ∧ sub.result.grade = (correct problems answers : Rat) / problems.length
                ∧ 0 ≤ sub.result.grade ∧ sub.result.grade ≤ 1 := by
  obtain ⟨q, hq, -⟩ := viewDidLoad_ready userID opened hps hne
  obtain ⟨s, hs, hshown⟩ := Transition.System.exists_replay (M := system a userID opened)
    (fun s e hs => by
      obtain ⟨s', hstep, hs', -⟩ := hs.step hps e
      exact ⟨s', hstep, hs'⟩) presses (Shown.open hps hne hq)
  refine ⟨q, s, hq, hs, hshown.ready.index, hshown.ready.answers, fun e => ?_, fun now => ⟨?_, ?_⟩⟩
  · obtain ⟨s', hstep, -, hagain⟩ := hshown.step hps e
    exact ⟨s', hstep, hagain⟩
  · intro hlisten huser
    obtain ⟨p, hp⟩ := Option.ne_none_iff_exists'.mp hlisten
    obtain ⟨u, rfl⟩ := Option.ne_none_iff_exists'.mp huser
    obtain ⟨id, hid, hpath⟩ := Option.bind_eq_some_iff.mp hp
    obtain ⟨sub, hsub, -⟩ := submitButtonPressed_of_le now hshown.ready hps hid hpath le_rfl
    exact ⟨sub, hsub⟩
  · exact fun sub hsub => hshown.submit hps hsub

end

/-- An answer to the first of two questions is corrected after a look at the
second: the corrected one is handed in. -/
theorem refines_of_presses_twoQuestions :
    ∃ q s sub, viewDidLoad twoQuestions (some "s_ann") 0 = some q
      ∧ (system twoQuestions (some "s_ann") 0).replay (.open q)
          [.edit "3", .next 1, .back 2, .edit "2"] = some s
      ∧ s.quiz.submitButtonPressed twoQuestions (some "s_ann") 3 = some sub
      ∧ sub.result.studentAnswers = some ["2", ""] ∧ sub.result.grade = 1 / 2 := by
  have hps : twoQuestions.problems = some [⟨"1 + 1", "2"⟩, ⟨"2 + 2", "4"⟩] := rfl
  obtain ⟨q, s, hq, hs, -, -, -, hsubmit⟩ := refines_of_presses hps (by decide)
    [.edit "3", .next 1, .back 2, .edit "2"]
  obtain ⟨hsubmits, hsubmitted⟩ := hsubmit 3
  obtain ⟨sub, hsub⟩ := hsubmits (by decide) (Option.some_ne_none _)
  obtain ⟨answers, hanswers, hheld, hgrade, -⟩ := hsubmitted sub hsub
  obtain rfl := Option.some.inj hq
  have hshown : (List.range 2).map (lastHeld s.shown) = ["2", ""] := by
    obtain rfl := Option.some.inj hs
    rfl
  obtain rfl : answers = ["2", ""] := hheld.trans hshown
  refine ⟨_, s, sub, hq, hs, hsub, hanswers, hgrade.trans ?_⟩
  have hone : correct [⟨"1 + 1", "2"⟩, ⟨"2 + 2", "4"⟩] ["2", ""] = 1 := by decide
  rw [hone]
  norm_num

end GradeIo.Quiz
