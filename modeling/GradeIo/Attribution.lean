import GradeIo.Lib.Timeline
import GradeIo.LiveUpdates

/-!
# Which question the time goes to

A session on problems that do not change, next to a timeline of what is on the
screen: the question displayed after every handler, and when. `Attributed` says
that stopping the timer of the current question at any moment gives each
question the time for which it was displayed. The order in which a handler
stops the timer, changes the index and restarts it shows in no total, since the
clock is read once per handler.
-/

namespace GradeIo.Attribution

open Timeline Transition Quiz

structure State where
  quiz : Quiz
  assignment : Assignment
  /-- The question displayed, and since when, the latest first. -/
  shown : List (Nat × Rat)

inductive Event where
  | edit (text : String)
  | next (now : Rat)
  | back (now : Rat)
  | submit (now : Rat)
  /-- A snapshot with other results. -/
  | results (results : Option (List Result))

/-- The state after a handler that ran at `now`. -/
def State.handled (s : State) (now : Rat) (quiz : Quiz) : State :=
  { s with quiz, shown := (quiz.qIndex, now) :: s.shown }

def step (userID : Option String) (s : State) : Event → Option State
  | .edit text => some { s with quiz := s.quiz.edit text }
  | .next now => (s.quiz.nextButtonPressed s.assignment now).map (s.handled now)
  | .back now => (s.quiz.backButtonPressed s.assignment now).map (s.handled now)
  | .submit now => (s.quiz.submitButtonPressed s.assignment userID now).map fun sub =>
      { s.handled now sub.quiz with assignment := sub.assignment }
  | .results results => some { s with assignment := { s.assignment with results } }

def system (a : Assignment) (userID : Option String) (opened : Rat) : System State Event where
  Init s := ∃ q, viewDidLoad a userID opened = some q ∧ s = ⟨q, a, [(q.qIndex, opened)]⟩
  step := step userID

/-- The totals of `n` questions. -/
def totals (n : Nat) (shown : List (Nat × Rat)) (now : Rat) : List Rat :=
  (List.range n).map fun i => spent i shown now

/-- The result has a time for each of `n` questions: as long as it was displayed,
all together from the opening until now. -/
def Timed (n : Nat) (shown : List (Nat × Rat)) (opened now : Rat) (r : Result) : Prop :=
  ∃ times, r.timeTakenPerQuestion = some times ∧ times.length = n
    ∧ (∀ i (hi : i < times.length), times[i] = spent i shown now)
    ∧ times.sum = now - opened

structure Attributed (a : Assignment) (problems : List Problem) (opened : Rat) (s : State) :
    Prop where
  problems_eq : s.assignment.problems = some problems
  id_eq : s.assignment.id = a.id
  ready : s.quiz.Ready problems
  displayed : problems[s.quiz.qIndex]? = some s.quiz.currentProblem
  last : ∃ since earlier, s.shown = (s.quiz.qIndex, since) :: earlier
  inside : ∀ x ∈ s.shown, x.1 ∈ Finset.range problems.length
  start_eq : start s.shown = some opened
  times : ∀ now, (s.quiz.timed now).timeTakenPerQuestion =
    some (totals problems.length s.shown now)

section

variable {a : Assignment} {userID : Option String} {problems : List Problem} {opened now : Rat}
  {s s' : State} {q : Quiz}

/-! ## The totals -/

theorem getElem_totals {n i : Nat} {shown : List (Nat × Rat)}
    (hi : i < (totals n shown now).length) :
    (totals n shown now)[i] = spent i shown now := by
  simp [totals]

@[simp] theorem length_totals (n : Nat) (shown : List (Nat × Rat)) (now : Rat) :
    (totals n shown now).length = n := by
  simp [totals]

/-- The time since the last observation is the last question's. -/
theorem set_totals {n i : Nat} {shown : List (Nat × Rat)} (hi : i < n) (since now : Rat) :
    (totals n shown since).set i ((totals n shown since)[i]?.getD 0 + (now - since)) =
      totals n ((i, since) :: shown) now := by
  refine List.ext_getElem (by simp) fun j hj hj' => ?_
  rw [getElem_totals hj', spent_cons_add j i shown since since now, spent_cons_self]
  by_cases hij : i = j
  · subst hij
    rw [if_pos rfl, List.getElem_set_self, List.getElem?_eq_getElem (by simpa using hi),
      getElem_totals, Option.getD_some]
  · rw [if_neg hij, List.getElem_set_ne hij, getElem_totals, add_zero]

theorem sum_totals {n : Nat} {shown : List (Nat × Rat)}
    (hinside : ∀ x ∈ shown, x.1 ∈ Finset.range n) (hstart : Timeline.start shown = some opened) :
    (totals n shown now).sum = now - opened :=
  sum_spent hinside hstart

/-! ## One handler -/

/-- A handler that has stopped the timer of the old question and started that of
the new one. -/
theorem Attributed.handled (h : Attributed a problems opened s)
    (hready : q.Ready problems) (hdisplayed : problems[q.qIndex]? = some q.currentProblem)
    (htimes : q.result.timeTakenPerQuestion = (s.quiz.timed now).timeTakenPerQuestion)
    (hstart : q.result.individualStartTime = now) :
    Attributed a problems opened (s.handled now q) where
  problems_eq := h.problems_eq
  id_eq := h.id_eq
  ready := hready
  displayed := hdisplayed
  last := ⟨now, s.shown, rfl⟩
  inside := List.forall_mem_cons.mpr ⟨Finset.mem_range.mpr hready.index, h.inside⟩
  start_eq := by
    obtain ⟨since, earlier, hshown⟩ := h.last
    have hne : s.shown ≠ [] := hshown ▸ List.cons_ne_nil _ _
    exact (start_cons (q.qIndex, now) hne).trans h.start_eq
  times later := by
    show (q.timed later).timeTakenPerQuestion = _
    rw [timed, htimes, h.times now, hstart, Option.map_some]
    exact congrArg some (set_totals hready.index now later)

/-- A handler that leaves the session as it is. -/
theorem Attributed.same (h : Attributed a problems opened s) (now : Rat) :
    Attributed a problems opened (s.handled now s.quiz) where
  problems_eq := h.problems_eq
  id_eq := h.id_eq
  ready := h.ready
  displayed := h.displayed
  last := ⟨now, s.shown, rfl⟩
  inside := List.forall_mem_cons.mpr ⟨Finset.mem_range.mpr h.ready.index, h.inside⟩
  start_eq := by
    obtain ⟨since, earlier, hshown⟩ := h.last
    have hne : s.shown ≠ [] := hshown ▸ List.cons_ne_nil _ _
    exact (start_cons (s.quiz.qIndex, now) hne).trans h.start_eq
  times later := by
    obtain ⟨since, earlier, hshown⟩ := h.last
    have hsame : totals problems.length (s.handled now s.quiz).shown later =
        totals problems.length s.shown later := by
      show totals _ ((s.quiz.qIndex, now) :: s.shown) later = _
      unfold totals
      simp only [hshown, spent_cons_same]
    rw [hsame]
    exact h.times later

theorem Attributed.turned (h : Attributed a problems opened s) {index : Nat} {p : Problem}
    (hp : problems[index]? = some p) (now : Rat) :
    Attributed a problems opened (s.handled now (s.quiz.turned now index p)) :=
  have hindex : index < problems.length := (List.getElem?_eq_some_iff.mp hp).1
  h.handled (h.ready.turned hindex p) hp rfl rfl

theorem attributed_init (hps : a.problems = some problems) (hne : problems ≠ [])
    (h : (system a userID opened).Init s) : Attributed a problems opened s := by
  obtain ⟨q, hq, rfl⟩ := h
  obtain ⟨q', hq', hready⟩ := viewDidLoad_ready userID opened hps hne
  obtain rfl := Option.some.inj (hq'.symm.trans hq)
  obtain ⟨p, ps, rfl⟩ := List.exists_cons_of_ne_nil hne
  rw [viewDidLoad_eq userID hps] at hq
  obtain rfl := Option.some.inj hq
  refine ⟨hps, rfl, hready, rfl, ⟨opened, [], rfl⟩, ?_, rfl, fun now => ?_⟩
  · exact fun x hx => List.mem_singleton.mp hx ▸ Finset.mem_range.mpr hready.index
  · have hzero : List.replicate (p :: ps).length (0 : Rat) = totals (p :: ps).length [] opened := by
      simp only [totals, spent, List.map_const', List.length_range]
    show some ((List.replicate (p :: ps).length (0 : Rat)).set 0 _) = _
    rw [hzero]
    exact congrArg some (set_totals hready.index opened now)

/-- A submission changes no more of the assignment than its results. -/
theorem insertResult_frame {a b : Assignment} {r : Result} {ws : List DocDb.Write}
    (h : insertResult a userID now r = some (b, ws)) : b.problems = a.problems ∧ b.id = a.id := by
  unfold insertResult at h
  split at h
  · simp only [Option.bind_eq_bind, Option.bind_eq_some_iff] at h
    obtain ⟨id, -, h⟩ := h
    cases hresults : a.results with
    | none =>
        simp only [hresults, Option.bind_some, Option.bind_eq_some_iff] at h
        obtain ⟨_, -, h⟩ := h
        cases h
    | some rs =>
        simp only [hresults, Option.bind_eq_some_iff, Option.map_eq_some_iff] at h
        obtain ⟨_, ⟨rest, -, rfl⟩, _, -, h⟩ := h
        obtain ⟨_, -, h⟩ := Option.bind_eq_some_iff.mp h
        obtain ⟨rfl, -⟩ := Prod.mk.inj (Option.some.inj h)
        exact ⟨rfl, rfl⟩
  · obtain ⟨_, -, h⟩ := Option.bind_eq_some_iff.mp h
    obtain ⟨rfl, -⟩ := Prod.mk.inj (Option.some.inj h)
    exact ⟨rfl, rfl⟩

/-- What a submission hands over, where it does not trap. -/
theorem Attributed.handIn_eq (h : Attributed a problems opened s) (now : Rat) :
    s.quiz.handIn s.assignment userID now =
      a.id.bind fun id => userID.map fun u =>
        ({ s.quiz with
            studentsAnswers := s.quiz.recorded
            result := s.quiz.handed problems id u now },
          s.quiz.handed problems id u now) := by
  rw [Quiz.handIn_eq h.ready h.problems_eq, if_pos le_rfl, h.id_eq]

theorem Attributed.step {e : Event} (h : Attributed a problems opened s)
    (hs : (system a userID opened).step s e = some s') : Attributed a problems opened s' := by
  cases e with
  | edit text =>
      obtain rfl := Option.some.inj hs
      exact ⟨h.problems_eq, h.id_eq, ⟨h.ready.answers, h.ready.index, h.ready.total, h.ready.times⟩,
        h.displayed, h.last, h.inside, h.start_eq, h.times⟩
  | next now =>
      obtain ⟨q, hq, rfl⟩ := Option.map_eq_some_iff.mp hs
      rw [nextButtonPressed_eq now h.ready h.problems_eq] at hq
      split at hq
      · obtain ⟨p, hp, rfl⟩ := Option.map_eq_some_iff.mp hq
        exact h.turned hp now
      · obtain rfl := Option.some.inj hq
        exact h.same now
  | back now =>
      obtain ⟨q, hq, rfl⟩ := Option.map_eq_some_iff.mp hs
      rw [backButtonPressed_eq now h.ready h.problems_eq] at hq
      split at hq
      · obtain ⟨p, hp, rfl⟩ := Option.map_eq_some_iff.mp hq
        exact h.turned hp now
      · obtain rfl := Option.some.inj hq
        exact h.same now
  | submit now =>
      obtain ⟨sub, hsub, rfl⟩ := Option.map_eq_some_iff.mp hs
      rw [submitButtonPressed_eq, h.handIn_eq] at hsub
      simp only [Option.bind_eq_some_iff, Option.map_eq_some_iff] at hsub
      obtain ⟨⟨q, r⟩, ⟨id, -, u, -, hhanded⟩, ⟨b, ws⟩, hins, rfl⟩ := hsub
      obtain ⟨rfl, rfl⟩ := Prod.mk.inj hhanded
      obtain ⟨hproblems, hid⟩ := insertResult_frame hins
      have hhandled : Attributed a problems opened (s.handled now _) :=
        h.handled (h.ready.handed problems now id u) h.displayed rfl rfl
      exact ⟨hproblems.trans h.problems_eq, hid.trans h.id_eq, hhandled.ready, hhandled.displayed,
        hhandled.last, hhandled.inside, hhandled.start_eq, hhandled.times⟩
  | results results =>
      obtain rfl := Option.some.inj hs
      exact ⟨h.problems_eq, h.id_eq, h.ready, h.displayed, h.last, h.inside, h.start_eq, h.times⟩

theorem attributed_of_reachable (hps : a.problems = some problems) (hne : problems ≠ [])
    (h : (system a userID opened).Reachable s) : Attributed a problems opened s :=
  h.invariant (fun _ hs => attributed_init hps hne hs) fun _ _ _ hinv _ hs => hinv.step hs

/-- The paging buttons do not trap. -/
theorem Attributed.exists_step {e : Event} (h : Attributed a problems opened s)
    (he : ∀ now, e ≠ .submit now) : ∃ s', (system a userID opened).step s e = some s' := by
  have hlt := h.ready.index
  cases e with
  | edit text => exact ⟨_, rfl⟩
  | next now =>
      have hnext := nextButtonPressed_eq now h.ready h.problems_eq
      by_cases hlast : s.quiz.qIndex + 1 < problems.length
      · rw [if_pos hlast, if_pos hlast, List.getElem?_eq_getElem hlast, Option.map_some] at hnext
        exact ⟨_, congrArg (Option.map _) hnext⟩
      · rw [if_neg hlast] at hnext
        exact ⟨_, congrArg (Option.map _) hnext⟩
  | back now =>
      have hback := backButtonPressed_eq now h.ready h.problems_eq
      by_cases hfirst : 0 < s.quiz.qIndex
      · have hprevious : s.quiz.qIndex - 1 < problems.length := by omega
        rw [if_pos hfirst, List.getElem?_eq_getElem hprevious, Option.map_some] at hback
        exact ⟨_, congrArg (Option.map _) hback⟩
      · rw [if_neg hfirst] at hback
        exact ⟨_, congrArg (Option.map _) hback⟩
  | submit now => exact absurd rfl (he now)
  | results results => exact ⟨_, rfl⟩

theorem Attributed.handIn_timed (h : Attributed a problems opened s) {now : Rat} {q : Quiz}
    {r : Result} (hr : s.quiz.handIn s.assignment userID now = some (q, r)) :
    Timed problems.length s.shown opened now r := by
  rw [h.handIn_eq] at hr
  simp only [Option.bind_eq_some_iff, Option.map_eq_some_iff] at hr
  obtain ⟨id, -, u, -, hhanded⟩ := hr
  obtain ⟨-, rfl⟩ := Prod.mk.inj hhanded
  exact ⟨_, h.times now, length_totals _ _ _, fun i hi => getElem_totals hi,
    sum_totals h.inside h.start_eq⟩

/-- Submit stores the result that is handed in. -/
theorem handIn_of_submitButtonPressed {q : Quiz} {a : Assignment} {userID : Option String}
    {now : Rat} {sub : Submission} (h : q.submitButtonPressed a userID now = some sub) :
    q.handIn a userID now = some (sub.quiz, sub.result) := by
  rw [submitButtonPressed_eq] at h
  obtain ⟨⟨quiz, result⟩, hhand, hins⟩ := Option.bind_eq_some_iff.mp h
  obtain ⟨_, -, rfl⟩ := Option.map_eq_some_iff.mp hins
  exact hhand

/-- Whenever Submit is pressed, each question has the time for which it was on the
screen, and together they have the time since the session was opened. The
instants may even run backwards. -/
theorem times_attributed (hps : a.problems = some problems) (hne : problems ≠ [])
    (h : (system a userID opened).Reachable s) :
    (∃ since earlier, s.shown = (s.quiz.qIndex, since) :: earlier)
      ∧ problems[s.quiz.qIndex]? = some s.quiz.currentProblem
      ∧ (∀ e, (∀ now, e ≠ .submit now) → ∃ s', (system a userID opened).step s e = some s')
      ∧ ∀ now,
          (a.id ≠ none → userID ≠ none → s.quiz.handIn s.assignment userID now ≠ none)
          ∧ (a.listen ≠ none → userID ≠ none →
              ∃ sub, s.quiz.submitButtonPressed s.assignment userID now = some sub)
          ∧ (∀ q r, s.quiz.handIn s.assignment userID now = some (q, r) →
              Timed problems.length s.shown opened now r)
          ∧ ∀ sub, s.quiz.submitButtonPressed s.assignment userID now = some sub →
              Timed problems.length s.shown opened now sub.result := by
  have hinv := attributed_of_reachable hps hne h
  refine ⟨hinv.last, hinv.displayed, fun e he => hinv.exists_step he, fun now =>
    ⟨?_, ?_, fun q r hr => hinv.handIn_timed hr, fun sub hsub => ?_⟩⟩
  · intro hid huser
    obtain ⟨id, hid⟩ := Option.ne_none_iff_exists'.mp hid
    obtain ⟨u, rfl⟩ := Option.ne_none_iff_exists'.mp huser
    rw [hinv.handIn_eq, hid]
    exact Option.some_ne_none _
  · intro hlisten huser
    obtain ⟨p, hp⟩ := Option.ne_none_iff_exists'.mp hlisten
    obtain ⟨u, rfl⟩ := Option.ne_none_iff_exists'.mp huser
    obtain ⟨id, hid, hpath⟩ := Option.bind_eq_some_iff.mp hp
    obtain ⟨sub, hsub, -⟩ := submitButtonPressed_of_le now hinv.ready hinv.problems_eq
      (hinv.id_eq.trans hid) hpath le_rfl
    exact ⟨sub, hsub⟩
  · exact hinv.handIn_timed (handIn_of_submitButtonPressed hsub)

end

/-- The second question after three seconds, back after five, Back once more on
the first one, and a submission after nine. -/
theorem times_attributed_twoQuestions :
    ∃ s sub, (system twoQuestions (some "s_ann") 0).Reachable s
      ∧ s.shown = [(0, 7), (0, 5), (1, 3), (0, 0)]
      ∧ s.quiz.submitButtonPressed s.assignment (some "s_ann") 9 = some sub
      ∧ sub.result.timeTakenPerQuestion = some [7, 2] := by
  obtain ⟨q, hq⟩ : ∃ q, viewDidLoad twoQuestions (some "s_ann") 0 = some q :=
    ⟨_, viewDidLoad_eq _ rfl⟩
  have hrun : ((viewDidLoad twoQuestions (some "s_ann") 0).bind fun q =>
      ((system twoQuestions (some "s_ann") 0).replay ⟨q, twoQuestions, [(q.qIndex, 0)]⟩
        [.next 3, .back 5, .back 7]).map State.shown) = some [(0, 7), (0, 5), (1, 3), (0, 0)] := by
    decide +kernel
  rw [hq, Option.bind_some] at hrun
  obtain ⟨s, hs, hshown⟩ := Option.map_eq_some_iff.mp hrun
  have hreach := System.reachable_of_replay (M := system twoQuestions (some "s_ann") 0)
    ⟨q, hq, rfl⟩ hs
  have hproblems : twoQuestions.problems = some [⟨"1 + 1", "2"⟩, ⟨"2 + 2", "4"⟩] := rfl
  obtain ⟨-, -, -, htimes⟩ := times_attributed hproblems (List.cons_ne_nil _ _) hreach
  obtain ⟨-, hsubmits, -, htimed⟩ := htimes 9
  obtain ⟨sub, hsub⟩ := hsubmits (by decide) (Option.some_ne_none _)
  obtain ⟨times, hresult, hlen, hspent, -⟩ := htimed sub hsub
  refine ⟨s, sub, hreach, hshown, hsub, ?_⟩
  rw [hresult]
  congr
  refine List.ext_getElem hlen fun i hi hi' => ?_
  rw [hspent, hshown]
  have hi : i < 2 := hi'
  interval_cases i <;> norm_num [spent]

end GradeIo.Attribution
