import GradeIo.QuizSession

/-!
# A quiz session under live updates

The arrays of a session are as long as the list of problems was when the screen
was built; the list itself is replaced by the listener of `CurrentAssignment`.
A step presses a button, submits or delivers a snapshot, in any order, and a
trap leaves a state without a session.

`Survives` is what a session should keep through all this. It does for as long
as the steps meet `SafeStep` (`survives_of_safe`), and at the first step that
does not, it is over (`Inv.step`).
-/

namespace GradeIo.Quiz

open DocDb

/-- Paging stays inside both lengths. -/
def SafePress (q : Quiz) (problems : List Problem) : Press → Prop
  | .edit _ => True
  | .next _ => q.qIndex + 1 < problems.length → q.qIndex + 1 < q.studentsAnswers.length
  | .back _ => q.qIndex ≤ problems.length

/-- A result that has an answer and a time for each problem and the grade they
deserve. -/
def Fits (problems : List Problem) (r : Result) : Prop :=
  ∃ answers times, r.studentAnswers = some answers ∧ r.timeTakenPerQuestion = some times
    ∧ answers.length = problems.length ∧ times.length = problems.length
    ∧ r.grade = (correct problems answers : Rat) / problems.length
    ∧ 0 ≤ r.grade ∧ r.grade ≤ 1

section

variable {q q' : Quiz} {a : Assignment} {opened problems : List Problem} {now : Rat}

theorem Ready.press_ne_none_iff (h : q.Ready opened) (hps : a.problems = some problems)
    (e : Press) : press a q e ≠ none ↔ q.SafePress problems e := by
  have hindex := h.index
  cases e with
  | edit text => simp [press, SafePress]
  | next now =>
      rw [press, nextButtonPressed_eq now h hps, SafePress, h.answers]
      by_cases hnext : q.qIndex + 1 < problems.length
      · by_cases hopened : q.qIndex + 1 < opened.length
        · simp [hnext, hopened]
        · simp [hnext, hopened]
      · simp [hnext]
  | back now =>
      rw [press, backButtonPressed_eq now h hps, SafePress]
      by_cases hpos : 0 < q.qIndex
      · rw [if_pos hpos, ne_eq, Option.map_eq_none_iff, List.getElem?_eq_none_iff]
        omega
      · rw [if_neg hpos]
        simp
        omega

/-- A press that does not trap types, does nothing or turns to a question. -/
theorem Ready.press_cases (h : q.Ready opened) (hps : a.problems = some problems) {e : Press}
    (he : press a q e = some q') :
    (∃ text, q' = q.edit text) ∨ q' = q
      ∨ ∃ now index p, index < opened.length ∧ q' = q.turned now index p := by
  have hindex := h.index
  cases e with
  | edit text => exact Or.inl ⟨text, (Option.some.inj he).symm⟩
  | next now =>
      rw [press, nextButtonPressed_eq now h hps] at he
      split at he
      · split at he
        · rename_i hlt
          obtain ⟨p, -, rfl⟩ := Option.map_eq_some_iff.mp he
          exact Or.inr (Or.inr ⟨now, _, p, hlt, rfl⟩)
        · cases he
      · exact Or.inr (Or.inl (Option.some.inj he).symm)
  | back now =>
      rw [press, backButtonPressed_eq now h hps] at he
      split at he
      · obtain ⟨p, -, rfl⟩ := Option.map_eq_some_iff.mp he
        exact Or.inr (Or.inr ⟨now, _, p, by omega, rfl⟩)
      · exact Or.inr (Or.inl (Option.some.inj he).symm)

theorem Ready.press (h : q.Ready opened) (hps : a.problems = some problems) {e : Press}
    (he : press a q e = some q') : q'.Ready opened := by
  rcases h.press_cases hps he with ⟨text, rfl⟩ | rfl | ⟨now, index, p, hlt, rfl⟩
  · exact ⟨h.answers, h.index, h.total, h.times⟩
  · exact h
  · exact h.turned hlt p

/-- The answers are graded against the list of now, over the number of then. -/
theorem fits_handed_iff (h : q.Ready opened) (assignmentID studentID : String) :
    Fits problems (q.handed problems assignmentID studentID now)
      ↔ problems.length = q.studentsAnswers.length := by
  have hlen : q.recorded.length = q.studentsAnswers.length := length_recorded q
  constructor
  · rintro ⟨answers, times, hanswers, -, hfit, -⟩
    obtain rfl := Option.some.inj hanswers
    omega
  · intro hfit
    obtain ⟨ts, hts, htimes⟩ := (h.handed problems now assignmentID studentID).times
    obtain ⟨hnonneg, hle⟩ := correct_div_mem problems q.recorded
    rw [hlen] at hnonneg hle
    refine ⟨q.recorded, ts, rfl, hts, by omega, ?_, ?_, hnonneg, hle⟩
    · rw [htimes, hfit, h.answers]
    · rw [hfit]
      rfl

theorem submitButtonPressed_of_lt {userID : Option String} (h : q.Ready opened)
    (hps : a.problems = some problems) (hlt : problems.length < opened.length) :
    q.submitButtonPressed a userID now = none := by
  rw [submitButtonPressed_eq, handIn_eq h hps, if_neg (by omega)]
  rfl

end

end GradeIo.Quiz

namespace GradeIo.LiveQuiz

open DocDb Transition Quiz

structure State where
  /-- The session, `none` once the app has trapped. -/
  quiz : Option Quiz
  assignment : Assignment
  /-- The results handed over, each with the problems at the time. -/
  submitted : List (List Problem × Result)

inductive Event where
  | press (e : Press)
  | submit (now : Rat)
  | deliver (doc : Doc)

/-- A submission also needs the assignment's id and the user's; a snapshot here
is one that leaves problems. -/
def step (userID : Option String) (s : State) : Event → Option State
  | .press e => s.quiz.map fun q => { s with quiz := press s.assignment q e }
  | .submit now =>
      match s.quiz, s.assignment.listen, userID with
      | some q, some _, some _ =>
          match q.submitButtonPressed s.assignment userID now with
          | some sub => some
              { quiz := some sub.quiz
                assignment := sub.assignment
                submitted := (s.assignment.problems.getD [], sub.result) :: s.submitted }
          | none => some { s with quiz := none }
      | _, _, _ => none
  | .deliver doc => (s.assignment.setPropertiesFromDoc doc).bind fun assignment =>
      if assignment.problems.getD [] = [] then none else some { s with assignment }

def system (userID : Option String) : System State Event where
  Init s := s.submitted = [] ∧ s.assignment.problems.getD [] ≠ []
    ∧ ∃ now, s.quiz = viewDidLoad s.assignment userID now
  step := step userID

/-- The session runs and its results are those of the assignment. -/
def Survives (s : State) : Prop :=
  s.quiz ≠ none ∧ ∀ e ∈ s.submitted, Fits e.1 e.2

/-- On the state before the step: both lengths allow the press, and a
submission finds as many problems as there are answers. -/
def SafeStep (s : State) : Event → Prop
  | .press e => ∀ q ∈ s.quiz, q.SafePress (s.assignment.problems.getD []) e
  | .submit _ => ∀ q ∈ s.quiz, (s.assignment.problems.getD []).length = q.studentsAnswers.length
  | .deliver _ => True

/-- A session that was opened on this many problems. -/
structure Inv (s : State) : Prop where
  session : ∃ q opened, s.quiz = some q ∧ q.Ready opened
  problems : ∃ problems, s.assignment.problems = some problems
  submitted : ∀ e ∈ s.submitted, Fits e.1 e.2

section

variable {userID : Option String} {s s' : State} {e : Event}

theorem Inv.survives (h : Inv s) : Survives s := by
  obtain ⟨q, _, hq, -⟩ := h.session
  exact ⟨by simp [hq], h.submitted⟩

theorem Inv.init (h : (system userID).Init s) : Inv s := by
  obtain ⟨hsubmitted, hne, now, hquiz⟩ := h
  obtain ⟨problems, hps⟩ : ∃ problems, s.assignment.problems = some problems := by
    rw [← Option.ne_none_iff_exists']
    exact fun hnone => hne (by rw [hnone, Option.getD_none])
  rw [hps, Option.getD_some] at hne
  obtain ⟨q, hq, hready⟩ := viewDidLoad_ready userID now hps hne
  refine ⟨⟨q, problems, hquiz.trans hq, hready⟩, ⟨problems, hps⟩, ?_⟩
  simp [hsubmitted]

/-- A submission, by whether there is still a problem for each answer. -/
theorem step_submit_eq_some {q : Quiz} {opened problems : List Problem} {now : Rat}
    (hq : s.quiz = some q) (hready : q.Ready opened) (hps : s.assignment.problems = some problems)
    (hs : (system userID).step s (.submit now) = some s') :
    (problems.length < opened.length ∧ s' = { s with quiz := none })
      ∨ (opened.length ≤ problems.length ∧ ∃ q' r, s'.quiz = some q' ∧ q'.Ready opened
          ∧ s'.assignment.problems = some problems ∧ s'.submitted = (problems, r) :: s.submitted
          ∧ (Fits problems r ↔ problems.length = q.studentsAnswers.length)) := by
  change step userID s (.submit now) = some s' at hs
  simp only [step, hq] at hs
  cases hp : s.assignment.listen with
  | none => simp [hp] at hs
  | some p => ?_
  cases userID with
  | none => simp [hp] at hs
  | some u => ?_
  obtain ⟨id, hid, hpath⟩ := Option.bind_eq_some_iff.mp hp
  simp only [hp] at hs
  by_cases hlt : problems.length < opened.length
  · rw [submitButtonPressed_of_lt hready hps hlt] at hs
    exact Or.inl ⟨hlt, (Option.some.inj hs).symm⟩
  · obtain ⟨sub, hsub, hq', hps', hr⟩ := submitButtonPressed_of_le (u := u) now hready hps hid
      hpath (by omega)
    rw [hsub] at hs
    obtain rfl := Option.some.inj hs
    refine Or.inr ⟨by omega, sub.quiz, sub.result, rfl, hq', hps', ?_, ?_⟩
    · rw [hps]
      rfl
    · rw [hr]
      exact fits_handed_iff hready id u

/-- A step keeps the session going exactly if it is safe. -/
theorem Inv.step (h : Inv s) (hs : (system userID).step s e = some s') :
    (SafeStep s e → Inv s') ∧ (¬ SafeStep s e → ¬ Survives s') := by
  obtain ⟨q, opened, hq, hready⟩ := h.session
  obtain ⟨problems, hps⟩ := h.problems
  cases e with
  | press e =>
      have hs' : s' = { s with quiz := press s.assignment q e } := by
        change LiveQuiz.step userID s (.press e) = some s' at hs
        rw [LiveQuiz.step, hq] at hs
        exact (Option.some.inj hs).symm
      have hsafe : SafeStep s (.press e) ↔ q.SafePress problems e := by
        simp [SafeStep, hq, hps]
      rw [hsafe, ← hready.press_ne_none_iff hps, hs']
      constructor
      · intro hne
        obtain ⟨q', hq'⟩ := Option.ne_none_iff_exists'.mp hne
        exact ⟨⟨q', opened, hq', hready.press hps hq'⟩, ⟨problems, hps⟩, h.submitted⟩
      · exact fun hnone hsurvives => hnone hsurvives.1
  | submit now =>
      have hsafe : SafeStep s (.submit now) ↔ problems.length = q.studentsAnswers.length := by
        simp [SafeStep, hq, hps]
      have hlen := hready.answers
      rw [hsafe]
      rcases step_submit_eq_some hq hready hps hs with
        ⟨hlt, rfl⟩ | ⟨hle, q', r, hq', hready', hps', hsub, hfits⟩
      · refine ⟨fun heq => ?_, fun _ hsurvives => hsurvives.1 rfl⟩
        omega
      · constructor
        · intro heq
          refine ⟨⟨q', opened, hq', hready'⟩, ⟨problems, hps'⟩, ?_⟩
          rw [hsub]
          exact List.forall_mem_cons.mpr ⟨hfits.mpr heq, h.submitted⟩
        · intro hne hsurvives
          rw [Survives, hsub] at hsurvives
          exact hne (hfits.mp (hsurvives.2 _ List.mem_cons_self))
  | deliver doc =>
      refine ⟨fun _ => ?_, fun hnot => absurd trivial hnot⟩
      change LiveQuiz.step userID s (.deliver doc) = some s' at hs
      simp only [LiveQuiz.step, Option.bind_eq_some_iff] at hs
      obtain ⟨assignment, -, hs⟩ := hs
      split at hs
      · cases hs
      · rename_i hne
        obtain rfl := Option.some.inj hs
        refine ⟨⟨q, opened, hq, hready⟩, ?_, h.submitted⟩
        show ∃ problems, assignment.problems = some problems
        rw [← Option.ne_none_iff_exists']
        exact fun hnone => hne (by rw [hnone, Option.getD_none])

theorem inv_of_run (h : (system userID).Run SafeStep s) : Inv s :=
  h.invariant (fun _ hs => Inv.init hs) fun _ _ _ hinv hsafe hs => (hinv.step hs).1 hsafe

/-- As long as every step is safe the session survives, and the first one that
is not ends it. -/
theorem survives_of_safe (h : (system userID).Run SafeStep s) :
    Survives s ∧ ∀ e s', (system userID).step s e = some s' → (Survives s' ↔ SafeStep s e) := by
  have hinv := inv_of_run h
  refine ⟨hinv.survives, fun e s' hs => ⟨fun hsurvives => ?_, fun hsafe => ?_⟩⟩
  · by_contra hnot
    exact (hinv.step hs).2 hnot hsurvives
  · exact ((hinv.step hs).1 hsafe).survives

/-- With the ids there, a submission is always possible. -/
theorem exists_step_submit {q : Quiz} {p : DocPath} {u : String} (now : Rat)
    (hq : s.quiz = some q) (hp : s.assignment.listen = some p) :
    ∃ s', (system (some u)).step s (.submit now) = some s' := by
  change ∃ s', step (some u) s (.submit now) = some s'
  simp only [step, hq, hp]
  cases q.submitButtonPressed s.assignment (some u) now with
  | none => exact ⟨_, rfl⟩
  | some sub => exact ⟨_, rfl⟩

end

/-! ## Two questions -/

/-- A document that holds nothing but problems. -/
def problemsDoc (problems : List Problem) : Doc :=
  (∅ : Doc).insert Strings.problems (.array (problems.map fun p =>
    .map [("Question", .string p.question), ("Answer", .string p.answer)]))

/-- Ann has opened the two questions, and the list may have changed since. -/
def openedState (problems : List Problem) : State where
  quiz := viewDidLoad twoQuestions (some "s_ann") 0
  assignment := { twoQuestions with problems := some problems }
  submitted := []

theorem openedState_run (ok : State → Event → Prop) {problems : List Problem}
    (hok : ok (openedState [⟨"1 + 1", "2"⟩, ⟨"2 + 2", "4"⟩]) (.deliver (problemsDoc problems)))
    (hdeliver : (system (some "s_ann")).step (openedState [⟨"1 + 1", "2"⟩, ⟨"2 + 2", "4"⟩])
        (.deliver (problemsDoc problems)) = some (openedState problems)) :
    (system (some "s_ann")).Run ok (openedState problems) := by
  have hinit : (system (some "s_ann")).Init (openedState [⟨"1 + 1", "2"⟩, ⟨"2 + 2", "4"⟩]) :=
    ⟨rfl, List.cons_ne_nil _ _, 0, rfl⟩
  exact .step (.init hinit) hok hdeliver

/-- What a submission in such a state needs. -/
theorem safeStep_openedState_iff (problems : List Problem) :
    SafeStep (openedState problems) (.submit 1) ↔ problems.length = 2 := by
  obtain ⟨q, hq, hready⟩ := viewDidLoad_ready (a := twoQuestions) (some "s_ann") 0 rfl
    (List.cons_ne_nil _ _)
  simp only [SafeStep, openedState, Option.getD_some, Option.mem_def]
  constructor
  · intro h
    rw [h q hq, hready.answers]
    rfl
  · intro hlen q' hq'
    obtain rfl : q' = q := Option.some.inj (hq'.symm.trans hq)
    rw [hlen, hready.answers]
    rfl

/-- The teacher turns the two questions round and Ann submits. -/
theorem survives_of_safe_reordered :
    ∃ s, (system (some "s_ann")).step (openedState [⟨"2 + 2", "4"⟩, ⟨"1 + 1", "2"⟩])
        (.submit 1) = some s ∧ Survives s := by
  obtain ⟨q, hq, -⟩ := viewDidLoad_ready (a := twoQuestions) (some "s_ann") 0 rfl
    (List.cons_ne_nil _ _)
  obtain ⟨s, hs⟩ := exists_step_submit (u := "s_ann") 1
    (s := openedState [⟨"2 + 2", "4"⟩, ⟨"1 + 1", "2"⟩]) hq
    (show _ = some ⟨Strings.assignment, "quiz"⟩ by decide)
  exact ⟨s, hs, (survives_of_safe (.step (openedState_run SafeStep trivial rfl)
    ((safeStep_openedState_iff _).mpr rfl) hs)).1⟩

/-- The teacher takes a question away and Ann submits: the app is gone. -/
theorem not_survives_shortened :
    ∃ s, (system (some "s_ann")).Reachable s ∧ ¬ Survives s := by
  obtain ⟨q, hq, -⟩ := viewDidLoad_ready (a := twoQuestions) (some "s_ann") 0 rfl
    (List.cons_ne_nil _ _)
  obtain ⟨s, hs⟩ := exists_step_submit (u := "s_ann") 1 (s := openedState [⟨"1 + 1", "2"⟩]) hq
    (show _ = some ⟨Strings.assignment, "quiz"⟩ by decide)
  have hinv : Inv (openedState [⟨"1 + 1", "2"⟩]) :=
    inv_of_run (openedState_run SafeStep trivial rfl)
  have hnot : ¬ SafeStep (openedState [⟨"1 + 1", "2"⟩]) (.submit 1) := fun hsafe => by
    have hlen := (safeStep_openedState_iff _).mp hsafe
    simp at hlen
  exact ⟨s, .step (openedState_run _ trivial rfl) trivial hs, (hinv.step hs).2 hnot⟩

end GradeIo.LiveQuiz
