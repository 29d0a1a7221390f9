import GradeIo.LiveUpdates

/-!
# The times of a result

A result carries two timers, of the whole session and of the current question.
`Balanced carried` says how far apart they are: the total is ahead of the sum
of the questions by what it was when the session was opened. Every handler
keeps this (`Balanced.timed`), so the results of a session add up if and only
if nothing was carried over.

Opening a session resets the times of the questions and not the total, so what
is carried over is the stored total, if the session starts from the stored
result (`carriedTime`).
-/

namespace GradeIo.QuizTimes

open Transition Quiz

/-- The total time is the sum over the questions. -/
def Consistent (r : Result) : Prop :=
  ∃ times, r.timeTakenPerQuestion = some times ∧ r.timeTaken = times.sum

/-- The timers, with the running ones counted up to the same moment. -/
def Balanced (carried : Rat) (r : Result) : Prop :=
  ∃ times, r.timeTakenPerQuestion = some times
    ∧ r.timeTaken + (r.individualStartTime - r.startTime) = carried + times.sum

/-- The total that a session takes over from the stored result. -/
def carriedTime : Option Result → Rat
  | some r => if r.grade ≠ 0 then r.timeTaken else 0
  | none => 0

structure State where
  quiz : Option Quiz
  /-- The student's stored result. -/
  stored : Option Result
  /-- The results handed to `insertResult`, the latest first. -/
  handed : List Result

inductive Event where
  | open (results : Option (List Result)) (now : Rat)
  | press (e : Press)
  | submit (now : Rat)

/-- A session is opened on results of which the stored one is the student's
only one. -/
def step (a : Assignment) (studentID : String) (s : State) : Event → Option State
  | .open results now =>
      if (results.getD []).filter (fun r => r.studentID = studentID) = s.stored.toList then
        (viewDidLoad { a with results } (some studentID) now).map fun q => { s with quiz := some q }
      else none
  | .press e => s.quiz.bind fun q => (press a q e).map fun q => { s with quiz := some q }
  | .submit now => s.quiz.bind fun q => (q.handIn a (some studentID) now).map fun (q, r) =>
      { quiz := some q, stored := some r, handed := r :: s.handed }

def system (a : Assignment) (studentID : String) : System State Event where
  Init s := a.problems.getD [] ≠ [] ∧ s = ⟨none, none, []⟩
  step := step a studentID

/-- Nothing is carried over into a session. -/
def SafeStep (s : State) : Event → Prop
  | .open _ _ => carriedTime s.stored = 0
  | .press _ => True
  | .submit _ => True

/-- A session in progress, into which so much was carried over. -/
def InSession (a : Assignment) (carried : Rat) (s : State) : Prop :=
  ∃ q problems, s.quiz = some q ∧ a.problems = some problems ∧ q.Ready problems
    ∧ Balanced carried q.result

section

variable {a : Assignment} {studentID : String} {s s' : State} {carried now : Rat} {q : Quiz}
  {problems : List Problem}

theorem sum_set_add {times : List Rat} {i : Nat} (hi : i < times.length) (x : Rat) :
    (times.set i (times[i]?.getD 0 + x)).sum = times.sum + x := by
  rw [List.sum_set', dif_pos hi, List.getElem?_eq_getElem hi, Option.getD_some]
  ring

/-- The time since the last stop goes to both sides. -/
theorem Balanced.timed (h : Balanced carried q.result) (hq : q.Ready problems) (now : Rat) :
    Balanced carried (q.timed now) := by
  obtain ⟨times, htimes, hsum⟩ := h
  obtain ⟨ts, hts, hlen⟩ := hq.times
  obtain rfl := Option.some.inj (htimes.symm.trans hts)
  have hi : q.qIndex < times.length := hlen ▸ hq.index
  refine ⟨_, by rw [Quiz.timed, htimes, Option.map_some], ?_⟩
  rw [sum_set_add hi]
  show q.result.timeTaken + (now - q.result.startTime) = _
  linarith

/-- Stopping the session's timer moves what it has counted. -/
theorem Balanced.stopTime {r : Result} (h : Balanced carried r) (now : Rat) :
    Balanced carried (r.stopTime now) := by
  obtain ⟨times, htimes, hsum⟩ := h
  refine ⟨times, htimes, ?_⟩
  show r.timeTaken + (now - r.startTime) + (r.individualStartTime - now) = _
  linarith

/-- The result of a submission has stopped both timers. -/
theorem Balanced.handed (h : Balanced carried q.result) (hq : q.Ready problems)
    (studentID : String) (now : Rat) (assignmentID : String) :
    Balanced carried (q.handed problems assignmentID studentID now)
      ∧ (Consistent (q.handed problems assignmentID studentID now) ↔ carried = 0) := by
  have hready : Quiz.Ready { q with result := q.result.stopTime now } problems :=
    ⟨hq.answers, hq.index, hq.total, hq.times⟩
  obtain ⟨times, htimes, hsum⟩ := Balanced.timed (h.stopTime now) hready now
  have htotal : (q.handed problems assignmentID studentID now).timeTaken = carried + times.sum := by
    rw [← hsum]
    show _ = q.result.timeTaken + (now - q.result.startTime) + (now - now)
    rw [sub_self, add_zero]
    rfl
  refine ⟨⟨times, htimes, hsum⟩, ?_, fun hzero => ⟨times, htimes, ?_⟩⟩
  · rintro ⟨ts, hts, hconsistent⟩
    obtain rfl := Option.some.inj (htimes.symm.trans hts)
    linarith
  · rw [htotal, hzero, zero_add]

theorem Balanced.press {e : Press} {q' : Quiz} (h : Balanced carried q.result)
    (hq : q.Ready problems) (hps : a.problems = some problems) (he : Quiz.press a q e = some q') :
    Balanced carried q'.result := by
  rcases hq.press_cases hps he with ⟨text, rfl⟩ | rfl | ⟨now, index, p, -, rfl⟩
  · exact h
  · exact h
  · exact h.timed hq now

/-- The result that a session finds is the stored one. -/
theorem existingResult_of_filter {results : Option (List Result)} {stored : Option Result}
    (h : (results.getD []).filter (fun r => r.studentID = studentID) = stored.toList) :
    existingResult { a with results } (some studentID) now = stored.getD (Result.init now) := by
  have hfind : ((results.getD []).find? fun r => some r.studentID = some studentID) = stored := by
    simp only [Option.some.injEq]
    rw [← List.head?_filter, h]
    cases stored <;> rfl
  rw [← hfind]
  cases results <;> rfl

/-- A session takes over the stored total and starts both timers. -/
theorem inSession_open {results : Option (List Result)} (hne : a.problems.getD [] ≠ [])
    (hs : (system a studentID).step s (.open results now) = some s') :
    InSession a (carriedTime s.stored) s' ∧ s'.stored = s.stored ∧ s'.handed = s.handed := by
  change step a studentID s (.open results now) = some s' at hs
  rw [step] at hs
  split at hs
  · rename_i hfilter
    obtain ⟨problems, hps⟩ : ∃ problems, a.problems = some problems := by
      rw [← Option.ne_none_iff_exists']
      exact fun hnone => hne (by rw [hnone, Option.getD_none])
    rw [hps, Option.getD_some] at hne
    obtain ⟨q, hq, rfl⟩ := Option.map_eq_some_iff.mp hs
    obtain ⟨q', hq', hready⟩ := viewDidLoad_ready (a := { a with results })
      (some studentID) now hps hne
    obtain rfl := Option.some.inj (hq'.symm.trans hq)
    refine ⟨⟨q', problems, rfl, hps, hready, ?_⟩, rfl, rfl⟩
    obtain ⟨p, ps, rfl⟩ := List.exists_cons_of_ne_nil hne
    rw [viewDidLoad_eq (a := { a with results }) _ hps, existingResult_of_filter hfilter] at hq
    obtain rfl := Option.some.inj hq
    refine ⟨_, rfl, ?_⟩
    have hsum : (List.replicate (p :: ps).length (0 : Rat)).sum = 0 := by
      rw [List.sum_replicate, smul_zero]
    rw [hsum]
    show (if (s.stored.getD (Result.init now)).grade ≠ 0 then s.stored.getD (Result.init now)
      else Result.init now).timeTaken + (now - now) = carriedTime s.stored + 0
    rw [sub_self]
    congr 1
    cases s.stored with
    | none => rfl
    | some r =>
        rw [Option.getD_some, carriedTime]
        split <;> rfl
  · cases hs

theorem InSession.press {e : Press} (h : InSession a carried s)
    (hs : (system a studentID).step s (.press e) = some s') :
    InSession a carried s' ∧ s'.handed = s.handed := by
  obtain ⟨q, problems, hq, hps, hready, hbalanced⟩ := h
  change step a studentID s (.press e) = some s' at hs
  rw [step, hq, Option.bind_some] at hs
  obtain ⟨q', hq', rfl⟩ := Option.map_eq_some_iff.mp hs
  exact ⟨⟨q', problems, rfl, hps, hready.press hps hq', hbalanced.press hready hps hq'⟩, rfl⟩

theorem InSession.submit (h : InSession a carried s)
    (hs : (system a studentID).step s (.submit now) = some s') :
    InSession a carried s' ∧ ∃ r, s'.stored = some r ∧ s'.handed = r :: s.handed
      ∧ (Consistent r ↔ carried = 0) := by
  obtain ⟨q, problems, hq, hps, hready, hbalanced⟩ := h
  change step a studentID s (.submit now) = some s' at hs
  rw [step, hq, Option.bind_some, handIn_eq hready hps, if_pos le_rfl] at hs
  cases hid : a.id with
  | none => simp [hid] at hs
  | some id =>
      simp only [hid, Option.bind_some, Option.map_some, Option.some.injEq] at hs
      obtain rfl := hs
      obtain ⟨hhanded, hconsistent⟩ := hbalanced.handed hready studentID now id
      exact ⟨⟨_, problems, rfl, hps, hready.handed problems now id studentID, hhanded⟩, _, rfl, rfl,
        hconsistent⟩

/-- Any number of presses in a session. -/
theorem InSession.presses :
    ∀ (presses : List Press) {s s' : State}, InSession a carried s →
      (system a studentID).replay s (presses.map .press) = some s' →
      InSession a carried s' ∧ s'.handed = s.handed
  | [], s, s', h, hs => by
      obtain rfl := Option.some.inj hs
      exact ⟨h, rfl⟩
  | e :: presses, s, s', h, hs => by
      rw [List.map_cons, System.replay, Option.bind_eq_some_iff] at hs
      obtain ⟨t, ht, hs⟩ := hs
      obtain ⟨hpress, hhanded⟩ := h.press ht
      obtain ⟨hpresses, hhanded'⟩ := InSession.presses presses hpress hs
      exact ⟨hpresses, hhanded'.trans hhanded⟩

/-- Where nothing was ever carried over. -/
structure Inv (a : Assignment) (s : State) : Prop where
  problems : a.problems.getD [] ≠ []
  session : s.quiz ≠ none → InSession a 0 s
  handed : ∀ r ∈ s.handed, Consistent r

theorem Inv.step {e : Event} (h : Inv a s) (hsafe : SafeStep s e)
    (hs : (system a studentID).step s e = some s') : Inv a s' := by
  cases e with
  | «open» results now =>
      obtain ⟨hsession, -, hhanded⟩ := inSession_open h.problems hs
      rw [show carriedTime s.stored = 0 from hsafe] at hsession
      exact ⟨h.problems, fun _ => hsession, hhanded ▸ h.handed⟩
  | press e =>
      have hne : s.quiz ≠ none := by
        rintro hnone
        change QuizTimes.step a studentID s (.press e) = some s' at hs
        simp [QuizTimes.step, hnone] at hs
      obtain ⟨hsession, hhanded⟩ := (h.session hne).press hs
      exact ⟨h.problems, fun _ => hsession, hhanded ▸ h.handed⟩
  | submit now =>
      have hne : s.quiz ≠ none := by
        rintro hnone
        change QuizTimes.step a studentID s (.submit now) = some s' at hs
        simp [QuizTimes.step, hnone] at hs
      obtain ⟨hsession, r, -, hhanded, hconsistent⟩ := (h.session hne).submit hs
      refine ⟨h.problems, fun _ => hsession, ?_⟩
      rw [hhanded]
      exact List.forall_mem_cons.mpr ⟨hconsistent.mpr rfl, h.handed⟩

theorem inv_of_run (h : (system a studentID).Run SafeStep s) : Inv a s := by
  refine h.invariant ?_ fun _ _ _ hinv hsafe hs => hinv.step hsafe hs
  rintro s ⟨hne, rfl⟩
  exact ⟨hne, fun hnone => absurd rfl hnone, fun r hr => absurd hr List.not_mem_nil⟩

/-- As long as no session starts from a stored result with a grade and a total,
every result adds up; and the next session's first result adds up exactly if it
does not either. -/
theorem times_consistent (h : (system a studentID).Run SafeStep s) :
    (∀ r ∈ s.handed, Consistent r)
      ∧ ∀ (results : Option (List Result)) (opened : Rat) (presses : List Press) (closed : Rat)
          (s₁ s₂ s₃ : State),
          (system a studentID).step s (.open results opened) = some s₁ →
          (system a studentID).replay s₁ (presses.map .press) = some s₂ →
          (system a studentID).step s₂ (.submit closed) = some s₃ →
          ∃ r, s₃.handed = r :: s.handed
            ∧ (Consistent r ↔ SafeStep s (.open results opened)) := by
  have hinv := inv_of_run h
  refine ⟨hinv.handed, fun results opened presses closed s₁ s₂ s₃ h₁ h₂ h₃ => ?_⟩
  obtain ⟨hopen, -, hhanded₁⟩ := inSession_open hinv.problems h₁
  obtain ⟨hpressed, hhanded₂⟩ := hopen.presses presses h₂
  obtain ⟨-, r, -, hhanded₃, hconsistent⟩ := hpressed.submit h₃
  exact ⟨r, by rw [hhanded₃, hhanded₂, hhanded₁], hconsistent⟩

end

/-! ## Two attempts -/

theorem init_twoQuestions : (system twoQuestions "s_ann").Init ⟨none, none, []⟩ :=
  ⟨List.cons_ne_nil _ _, rfl⟩

/-- A first attempt. -/
theorem times_consistent_firstAttempt :
    ∃ s₁ s₂, (system twoQuestions "s_ann").step ⟨none, none, []⟩ (.open (some []) 0) = some s₁
      ∧ (system twoQuestions "s_ann").step s₁ (.submit 5) = some s₂
      ∧ ∀ r ∈ s₂.handed, Consistent r := by
  have hsome : (((system twoQuestions "s_ann").step ⟨none, none, []⟩ (.open (some []) 0)).bind
      fun s => (system twoQuestions "s_ann").step s (.submit 5)).isSome := by
    decide +kernel
  obtain ⟨s₂, hs₂⟩ := Option.isSome_iff_exists.mp hsome
  obtain ⟨s₁, hopen, hsubmit⟩ := Option.bind_eq_some_iff.mp hs₂
  have hsafe : SafeStep ⟨none, none, []⟩ (.open (some []) 0) := rfl
  have hsafe' : SafeStep s₁ (.submit 5) := trivial
  exact ⟨s₁, s₂, hopen, hsubmit, (times_consistent
    (.step (.step (.init init_twoQuestions) hsafe hopen) hsafe' hsubmit)).1⟩

/-- One of two right, in five seconds. -/
def firstAttempt : Result where
  studentAnswers := some ["2", ""]
  startTime := 5
  individualStartTime := 5
  timeTaken := 5
  timeTakenPerQuestion := some [5, 0]
  studentID := "s_ann"
  assignmentID := "quiz"
  grade := 1 / 2
  isSubmitted := true

/-- Nothing right, in two seconds, on top of the first attempt. -/
def secondAttempt : Result :=
  { firstAttempt with
    studentAnswers := some ["", ""]
    startTime := 12
    individualStartTime := 12
    timeTaken := 7
    timeTakenPerQuestion := some [2, 0]
    grade := 0 }

theorem not_consistent_secondAttempt : ¬ Consistent secondAttempt := by
  rintro ⟨times, htimes, hsum⟩
  obtain rfl := Option.some.inj htimes
  revert hsum
  decide +kernel

/-- The retake starts from the stored result. -/
theorem times_inconsistent_secondAttempt :
    ∃ s, (system twoQuestions "s_ann").Reachable s ∧ ∃ r ∈ s.handed, ¬ Consistent r := by
  have hrun : ((system twoQuestions "s_ann").replay ⟨none, none, []⟩
      [.open (some []) 0, .press (.edit "2"), .submit 5, .open (some [firstAttempt]) 10,
        .submit 12]).map State.handed = some [secondAttempt, firstAttempt] := by
    decide +kernel
  obtain ⟨s, hs, hhanded⟩ := Option.map_eq_some_iff.mp hrun
  refine ⟨s, System.reachable_of_replay init_twoQuestions hs, secondAttempt, ?_,
    not_consistent_secondAttempt⟩
  rw [hhanded]
  exact List.mem_cons_self

end GradeIo.QuizTimes
