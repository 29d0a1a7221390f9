import GradeIo.Devices
import GradeIo.QuizSession

/-!
# The stored results over whole runs of the devices

Two results about every interleaving of submissions, setters, commits and
snapshots, each carried over from the `Gradebook`:

- `results_nodup` - if every submission is `SafeSubmission`, no student ever
  has two stored results; `exists_duplicate` shows the condition exact;
- `submissions_kept` - if every student submits at most once and had no result
  before, no submission is lost or stored twice.
-/

namespace GradeIo.Devices

open DocDb Keyed Replica Transition

section Runs

variable {Device : Type} {dateFromString : String → Option Rat} {user : Device → String}
  {docID : String} {p : DocPath}

/-- The stored elements of the results field. -/
def resultsAt (p : DocPath) (s : Store) : List Value :=
  elements ((s.get? p).bind fun doc => doc[Strings.results]?)

theorem mem_resultsAt {s : Store} {o : Option (List Result)} (h : Stores p s o) {r : Result} :
    r.toValue ∈ resultsAt p s ↔ r ∈ o.getD [] := by
  obtain ⟨doc, hdoc, hres⟩ := h
  rw [resultsAt, hdoc, Option.bind_some, hres, elements_map_storedValue]
  exact List.mem_map_of_injective Result.toValue_injective

theorem mem_adds_iff {ws : List Write} {ops : List (Gradebook.Op Result)}
    (h : List.Forall₂ (Performs p) ws ops) {r : Result} :
    r ∈ Gradebook.adds ops ↔ .unionUpdate p Strings.results r.toValue ∈ ws := by
  induction h with
  | nil => simp
  | cons hw _ ih =>
      cases hw with
      | clear => simpa using ih
      | add x => simp [ih, Result.toValue_injective.eq_iff]
      | other v hkey => simpa using ih

/-- Everybody has opened the assignment and nothing is under way. -/
structure Opened (docID : String) (p : DocPath) (o : Option (List Result)) (s : State Device) :
    Prop where
  stored : Stores p s.obj o
  history : s.history = [s.obj]
  outbox : ∀ c, s.outbox c = []
  log : s.log = []
  view : ∀ c, (s.view c).id = some docID

/-- The gradebook state of an initial state. -/
theorem Opened.rel {o : Option (List Result)} {s : State Device} (h : Opened docID p o s) :
    Rel docID p s ⟨o, [o], fun _ => [], fun c => (s.view c).results, []⟩ where
  obj := h.stored
  history := by
    rw [h.history]
    exact .cons h.stored .nil
  outbox := fun c => by
    rw [h.outbox c]
    exact .nil
  view := fun c => ⟨h.view c, rfl⟩
  log := h.log

/-! ## At most one result per student -/

/-- No other device has a different result of `r`'s student under way and, if
the device's copy does not show one either, none is left in the document once
the device's own writes are through. -/
def SafeSubmission (p : DocPath) (s : State Device) (c : Device) (r : Result) : Prop :=
  (∀ d, d ≠ c → ∀ x : Result, .unionUpdate p Strings.results x.toValue ∈ s.outbox d →
      x.studentID = r.studentID → x = r)
    ∧ (¬ (s.view c).Shows r.studentID →
        ∀ x : Result, x.toValue ∈ resultsAt p (s.obj.applyAll (s.outbox c)) →
          x.studentID = r.studentID → x = r)

/-- The condition on a step: a submission is safe. -/
def SafeStep (p : DocPath) (user : Device → String) (s : State Device) :
    Event Device Input → Prop
  | .act c (.submit q now) =>
      ∀ sub, q.submitButtonPressed (s.view c) (some (user c)) now = some sub →
        SafeSubmission p s c sub.result
  | _ => True

theorem safeSubmission_iff {s : State Device} {t : Gradebook.Shared Device Result}
    (h : Rel docID p s t) {c : Device} {r : Result} :
    SafeSubmission p s c r ↔ Gradebook.Safe Result.studentID "" t c r := by
  have hstored : Stores p (s.obj.applyAll (s.outbox c))
      ((t.outbox c).foldl Gradebook.apply t.obj) := h.obj.applyAll (h.outbox c)
  simp only [SafeSubmission, Gradebook.Safe, Assignment.Shows, (h.view c).2,
    mem_resultsAt hstored, mem_adds_iff (h.outbox _)]

/-- The assignment is opened with at most one result per student. -/
def OpenedUnique (docID : String) (p : DocPath) (s : State Device) : Prop :=
  ∃ o, Opened docID p o s ∧ ((o.getD []).map Result.studentID).Nodup

/-- The refinement under no condition. -/
theorem refines_always (dateFromString : String → Option Rat) (user : Device → String)
    (hp : documentPath Strings.assignment docID = some p) :
    Refines (protocol dateFromString user) (Gradebook.protocol Result.studentID "" user)
      (Stores p) (Performs p) (fun _ => Copies docID) (fun _ _ => True) fun _ _ => True :=
  refines hp (fun _ _ _ _ _ _ _ _ _ => trivial) (fun _ _ _ => trivial) (fun _ _ => trivial)
    fun _ _ _ _ => trivial

/-- `SafeSubmission` is exact: after a submission without it, commits alone
can lead to two stored results of one student. -/
theorem exists_duplicate [DecidableEq Device]
    (hp : documentPath Strings.assignment docID = some p) {s s' : State Device}
    (h : ((protocol dateFromString user).system (OpenedUnique docID p)).Reachable s)
    {c : Device} {q : Quiz} {now : Rat} {sub : Quiz.Submission}
    (hsub : q.submitButtonPressed (s.view c) (some (user c)) now = some sub)
    (hnot : ¬ SafeSubmission p s c sub.result)
    (hs : (protocol dateFromString user).step s (.act c (.submit q now)) = some s') :
    ∃ cs : List Device, ∃ s'', ((protocol dateFromString user).system
        (OpenedUnique docID p)).replay s' (cs.map .commit) = some s''
      ∧ ∃ o, Stores p s''.obj o ∧ ¬ ((o.getD []).map Result.studentID).Nodup := by
  have href := refines_always dateFromString user hp
  obtain ⟨t, -, hR⟩ := (href.simulation (fun _ => True)
    fun s ⟨_, ho, _⟩ => ⟨_, trivial, ho.rel⟩).run h
  rw [safeSubmission_iff hR] at hnot
  -- the same submission in the gradebook, and the commits that follow it there
  obtain ⟨o', ops, hh, hcop, hops⟩ := handle_submit hp (hR.view c) hsub
  simp only [Protocol.step, protocol, handle, hsub, Option.map_some] at hs
  obtain rfl := Option.some.inj hs
  obtain ⟨cs, t'', ht, hdup⟩ := Gradebook.exists_duplicate_of_not_safe hnot
    (Protocol.step_act (P := Gradebook.protocol Result.studentID "" user) hh)
  obtain ⟨s'', hs'', hR''⟩ := href.replay_commit (hR.act [sub.result] hcop hops) ht
  exact ⟨cs, s'', hs'', t''.obj, hR''.obj, hdup⟩

/-- Every document version that safe submissions lead to has at most one
result per student. -/
theorem results_nodup [DecidableEq Device] (hp : documentPath Strings.assignment docID = some p)
    {s : State Device}
    (h : ((protocol dateFromString user).system (OpenedUnique docID p)).Run (SafeStep p user) s) :
    ∃ o, Stores p s.obj o ∧ ((o.getD []).map Result.studentID).Nodup := by
  have href : Refines (protocol dateFromString user) (Gradebook.protocol Result.studentID "" user)
      (Stores p) (Performs p) (fun _ => Copies docID) (SafeStep p user)
      (Gradebook.SafeStep Result.studentID "") :=
    refines hp (fun s t c q now sub hR hok hsub => (safeSubmission_iff hR).mp (hok sub hsub))
      (fun _ _ _ => trivial) (fun _ _ => trivial) fun _ _ _ _ => trivial
  have hinit : ∀ s : State Device, OpenedUnique docID p s →
      ∃ t, Gradebook.Fresh Result.studentID t ∧ Rel docID p s t := fun s ⟨o, ho, hnodup⟩ =>
    ⟨_, ⟨hnodup, fun _ => rfl⟩, ho.rel⟩
  obtain ⟨t, ht, hR⟩ := (href.simulation _ hinit).run h
  exact ⟨t.obj, hR.obj, (Gradebook.Consistent.run ht).stored⟩

/-! ## One submission per student -/

/-- The assignment is opened with the results `o`, by students without one
among them: no device shows a result of its own student that `o` has not. -/
structure OpenedNew (docID : String) (p : DocPath) (user : Device → String)
    (o : Option (List Result)) (s : State Device) : Prop extends Opened docID p o s where
  new : ∀ c, ∀ r ∈ (s.view c).results.getD [], r.studentID = user c →
    user c ∈ (o.getD []).map Result.studentID

/-- The condition on a step: a student who submits has no result among the
initial ones and has not submitted yet. -/
def FirstStep (user : Device → String) (initial : List Result) (s : State Device) :
    Event Device Input → Prop
  | .act c (.submit _ _) =>
      user c ∉ initial.map Result.studentID ∧ user c ∉ s.log.map Result.studentID
  | _ => True

theorem OpenedNew.start {o : Option (List Result)} {s : State Device}
    (h : OpenedNew docID p user o s) :
    Gradebook.Start Result.studentID user o
      ⟨o, [o], fun _ => [], fun c => (s.view c).results, []⟩ where
  obj := rfl
  history := rfl
  outbox := fun _ => rfl
  log := rfl
  view := h.new

/-- A copy that a snapshot has refreshed finds a result that is the only one
of its student. -/
theorem getResultIndexByID_refresh {s : Store} {o : Option (List Result)} {a a' : Assignment}
    {r : Result} (hp : documentPath Strings.assignment docID = some p) (hs : Stores p s o)
    (hid : a.id = some docID) (h : refresh a s = some a') (hr : r ∈ o.getD [])
    (hone : ∀ x ∈ o.getD [], x.studentID = r.studentID → x = r) :
    ∃ i : Nat, a'.getResultIndexByID r.studentID = i ∧ (a'.results.getD [])[i]? = some r := by
  cases o with
  | none => cases hr
  | some rs =>
      have hres : a'.results = some rs := (refresh_copies hp ⟨hid, rfl⟩ hs h).2
      rw [hres]
      exact Assignment.getResultIndexByID_of_mem hres hr hone

/-- No submission is lost or stored twice: the stored list is the initial one
and then submitted results, a submitted result that is not stored is under way,
and a snapshot of the stored list leads every student to the one they submitted. -/
theorem submissions_kept [DecidableEq Device]
    (hp : documentPath Strings.assignment docID = some p) {o : Option (List Result)}
    {s : State Device}
    (h : ((protocol dateFromString user).system (OpenedNew docID p user o)).Run
      (FirstStep user (o.getD [])) s) :
    ∃ applied now, Stores p s.obj now ∧ now.getD [] = o.getD [] ++ applied
      ∧ (∀ r ∈ applied, r ∈ s.log)
      ∧ (∀ r ∈ s.log, r ∈ applied
          ∨ ∃ c, .unionUpdate p Strings.results r.toValue ∈ s.outbox c)
      ∧ ((∀ c, s.outbox c = []) → applied.Perm s.log)
      ∧ ∀ r ∈ applied, ∀ a a', a.id = some docID → refresh a s.obj = some a' →
          ∃ i : Nat, a'.getResultIndexByID r.studentID = i
            ∧ (a'.results.getD [])[i]? = some r := by
  have href : Refines (protocol dateFromString user) (Gradebook.protocol Result.studentID "" user)
      (Stores p) (Performs p) (fun _ => Copies docID) (FirstStep user (o.getD []))
      (Gradebook.FirstStep Result.studentID (o.getD [])) := by
    refine refines hp ?_ (fun _ _ _ => trivial) (fun _ _ => trivial) fun _ _ _ _ => trivial
    intro s t c q now sub hR hok hsub
    have hu : user c = sub.result.studentID :=
      Option.some.inj (Quiz.submitButtonPressed_eq_some hsub).1
    exact ⟨hu ▸ hok.1, hR.log ▸ hu ▸ hok.2⟩
  obtain ⟨t, ht, hR⟩ := (href.simulation (Gradebook.Start Result.studentID user o)
    fun s hs => ⟨_, hs.start, hs.toOpened.rel⟩).run h
  obtain ⟨applied, hkept⟩ := Gradebook.Kept.run ht
  have happlied : ∀ r ∈ applied, r ∈ s.log := fun r hr =>
    hR.log ▸ (hkept.logged r).mpr (Or.inl hr)
  refine ⟨applied, t.obj, hR.obj, hkept.obj, happlied, ?_, ?_, ?_⟩
  · intro r hr
    rw [hR.log, hkept.logged r] at hr
    exact hr.imp_right fun ⟨c, hc⟩ => ⟨c, (mem_adds_iff (hR.outbox c)).mp hc⟩
  · intro hquiet
    rw [hR.log]
    refine hkept.perm_log fun c => ?_
    have hc := hR.outbox c
    rw [hquiet c] at hc
    exact List.forall₂_nil_left_iff.mp hc
  · intro r hr a a' hid href
    refine getResultIndexByID_refresh hp hR.obj hid href (by simp [hkept.obj, hr]) ?_
    intro x hx hk
    have hrlog := hR.log ▸ happlied r hr
    rw [hkept.obj, List.mem_append] at hx
    rcases hx with hx | hx
    · exact absurd (hk ▸ List.mem_map_of_mem hx) (hkept.logNew r hrlog)
    · exact eq_of_key_eq hkept.logNodup (hR.log ▸ happlied x hx) hrlog hk

end Runs

/-! ## Two devices -/

section TwoDevices

open Quiz (quizPath quizStore quizAssignment)

/-- A session on the one problem of `quiz`, with this answer typed in. -/
def quizSession (answer : String) : Quiz where
  studentsAnswers := [""]
  qIndex := 0
  currentProblem := ⟨"1 + 1", "2"⟩
  result := { Result.init 0 with timeTakenPerQuestion := some [0] }
  totalPossibleGrade := some 1
  studentInput := some answer

/-- Two devices that have opened `quiz`. -/
def openState (rs : List Result) : State Bool :=
  ⟨quizStore rs, [quizStore rs], fun _ => [], fun _ => quizAssignment rs, []⟩

theorem opened_openState (rs : List Result) :
    Opened "quiz" quizPath (some rs) (openState rs) :=
  ⟨stores_setMerge _ _ _, rfl, fun _ => rfl, rfl, fun _ => rfl⟩

theorem quizPath_eq : documentPath Strings.assignment "quiz" = some quizPath := by decide

theorem quizSession_submit (answer u : String) (rs : List Result) :
    ∃ sub, (quizSession answer).submitButtonPressed (quizAssignment rs) (some u) 0 = some sub
      ∧ sub.result.studentID = u ∧ sub.result.studentAnswers = some [answer] := by
  have hready : (quizSession answer).Ready [⟨"1 + 1", "2"⟩] :=
    ⟨rfl, Nat.zero_lt_one, rfl, [0], rfl, rfl⟩
  obtain ⟨sub, hsub, -⟩ := Quiz.submitButtonPressed_of_le 0 (a := quizAssignment rs) (u := u)
    hready rfl rfl quizPath_eq le_rfl
  obtain ⟨hid, -, _, hanswers⟩ := Quiz.submitButtonPressed_eq_some hsub
  exact ⟨sub, hsub, (Option.some.inj hid).symm, hanswers⟩

abbrev quizProtocol (user : Bool → String) : Protocol Bool Input Write Store Assignment Result :=
  protocol (fun _ => none) user

/-- A submission on a copy that shows these results. -/
theorem quizSession_handle (rs : List Result) (answer u : String) :
    ∃ sub : Quiz.Submission, sub.result.studentID = u
      ∧ sub.result.studentAnswers = some [answer]
      ∧ (quizSession answer).submitButtonPressed (quizAssignment rs) (some u) 0 = some sub
      ∧ ((quizAssignment rs).Shows u → sub.writes =
          [.setMerge quizPath Strings.results (.array []),
            .unionUpdate quizPath Strings.results sub.result.toValue])
      ∧ (¬ (quizAssignment rs).Shows u → sub.assignment = quizAssignment rs
          ∧ sub.writes = [.unionUpdate quizPath Strings.results sub.result.toValue]) := by
  obtain ⟨sub, hsub, hid, hanswers⟩ := quizSession_submit answer u rs
  have hins := (Quiz.submitButtonPressed_eq_some hsub).2.1
  refine ⟨sub, hid, hanswers, hsub, fun hshows => ?_, fun hnot => ?_⟩
  · rw [Quiz.insertResult_of_shows rfl quizPath_eq hshows] at hins
    exact (Prod.mk.inj (Option.some.inj hins)).2.symm
  · rw [Quiz.insertResult_of_not_shows rfl quizPath_eq hnot] at hins
    obtain ⟨hassignment, hwrites⟩ := Prod.mk.inj (Option.some.inj hins)
    exact ⟨hassignment.symm, hwrites.symm⟩

theorem not_shows_nil (u : String) : ¬ (quizAssignment []).Shows u := by
  rintro ⟨-, r, hr, -⟩
  cases hr

/-- A submission on a device that shows no result. -/
theorem quizSession_step (user : Bool → String) (answer : String) (c : Bool) {s : State Bool}
    (hview : s.view c = quizAssignment []) :
    ∃ sub s', (quizSession answer).submitButtonPressed (s.view c) (some (user c)) 0 = some sub
      ∧ sub.result.studentID = user c ∧ sub.result.studentAnswers = some [answer]
      ∧ (quizProtocol user).step s (.act c (.submit (quizSession answer) 0)) = some s'
      ∧ (∀ d, d ≠ c → s'.view d = s.view d)
      ∧ .unionUpdate quizPath Strings.results sub.result.toValue ∈ s'.outbox c
      ∧ s'.log = s.log ++ [sub.result] := by
  obtain ⟨sub, hu, hanswers, hsub, -, hnew⟩ := quizSession_handle [] answer (user c)
  have hws := (hnew (not_shows_nil _)).2
  have hhandle : (quizProtocol user).handle c (s.view c) (.submit (quizSession answer) 0) =
      some (sub.assignment, sub.writes, [sub.result]) := by
    simp [protocol, handle, hview, hsub]
  refine ⟨sub, _, by rw [hview, hsub], hu, hanswers, Protocol.step_act hhandle, ?_, ?_, rfl⟩
  · exact fun d hd => Function.update_of_ne hd _ _
  · simp [hws]

theorem openedUnique_openState : OpenedUnique "quiz" quizPath (openState []) :=
  ⟨_, opened_openState [], List.nodup_nil⟩

/-- A snapshot of the quiz brings the results, and the copy keeps the rest. -/
theorem refresh_quiz {s : Store} {rs : List Result} {doc : Doc}
    (hdoc : s.get? quizPath = some doc) (hresults : doc[Strings.results]? = some (storedValue rs))
    (hother : ∀ k, k ≠ Strings.results → doc[k]? = none) :
    refresh (quizAssignment []) s = some (quizAssignment rs) := by
  have hlisten : (quizAssignment []).listen = some quizPath := quizPath_eq
  have hproblems := hother Strings.problems (by decide)
  have hdate := hother Strings.dueDate (by decide)
  have hclass := hother Strings.classID (by decide)
  have hfile := hother Strings.filePath (by decide)
  have hdescription := hother Strings.description (by decide)
  have hnone : Assignment.castList Problem.ofDictionary doc Strings.problems
      (quizAssignment []).problems = some (quizAssignment []).problems := by
    simp [Assignment.castList, hproblems]
  have hlist : Assignment.castList Result.ofDictionary doc Strings.results
      (quizAssignment []).results = some (some rs) := by
    rw [Assignment.castList, hresults, Option.bind_some, asArray_storedValue]
    simp only [mapM_ofDictionary, Option.map_some]
  rw [refresh, hlisten, Option.bind_some, hdoc, Option.getD_some, Assignment.setPropertiesFromDoc,
    hnone, hlist]
  simp [Assignment.castTimestamp, Assignment.castString, hdate, hclass, hfile, hdescription,
    quizAssignment]

/-- The quiz with one submitted result. -/
theorem refresh_submitted (r : Result) :
    refresh (quizAssignment [])
        ((quizStore []).apply (.unionUpdate quizPath Strings.results r.toValue)) =
      some (quizAssignment [r]) := by
  have hopen : (quizStore []).get? quizPath =
      some ((∅ : Doc).insert Strings.results (storedValue [])) := rfl
  have hdoc : ((quizStore []).apply (.unionUpdate quizPath Strings.results r.toValue)).get?
        quizPath =
      some (Doc.union ((∅ : Doc).insert Strings.results (storedValue [])) Strings.results
        r.toValue) := by
    refine ((quizStore []).get?_apply_self _).trans ?_
    rw [Write.path, Write.onDoc, hopen]
    rfl
  refine refresh_quiz hdoc ?_ fun k hk => ?_
  · rw [Doc.union_self, Std.ExtTreeMap.getElem?_insert_self]
    rfl
  · rw [Doc.union_of_ne _ hk, Std.ExtTreeMap.getElem?_insert, if_neg (by simpa using hk.symm)]
    simp

/-- Ann has submitted, the write is committed and her device has heard of it. -/
theorem run_heard :
    ∃ s r, ((quizProtocol fun _ => "s_ann").system (OpenedUnique "quiz" quizPath)).replay
        (openState [])
        [.act true (.submit (quizSession "2") 0), .commit true, .refresh true 1 false] = some s
      ∧ ((quizProtocol fun _ => "s_ann").system (OpenedUnique "quiz" quizPath)).Run
          (SafeStep quizPath fun _ => "s_ann") s
      ∧ s.view true = quizAssignment [r] ∧ (∀ d, s.outbox d = [])
      ∧ Stores quizPath s.obj (some [r]) ∧ r.studentID = "s_ann" := by
  let P := quizProtocol fun _ => "s_ann"
  obtain ⟨sub, hid, -, hsub, -, hfirst⟩ := quizSession_handle [] "2" "s_ann"
  obtain ⟨hcopy, hwrites⟩ := hfirst (not_shows_nil _)
  have hopened : Stores quizPath (quizStore []) (some []) := stores_setMerge _ _ _
  let now := (quizStore []).apply (.unionUpdate quizPath Strings.results sub.result.toValue)
  let s₁ : State Bool :=
    { openState [] with
      view := Function.update (openState []).view true (quizAssignment [])
      outbox := Function.update (openState []).outbox true
        [.unionUpdate quizPath Strings.results sub.result.toValue]
      log := [sub.result] }
  have h₁ : P.step (openState []) (.act true (.submit (quizSession "2") 0)) = some s₁ := by
    have hhandle : P.handle true ((openState []).view true) (.submit (quizSession "2") 0) =
        some (sub.assignment, sub.writes, [sub.result]) := by
      simp [P, protocol, handle, openState, hsub]
    rw [Protocol.step_act hhandle, hcopy, hwrites]
    rfl
  let s₂ : State Bool :=
    { s₁ with
      obj := now
      history := [quizStore [], now]
      outbox := Function.update s₁.outbox true [] }
  have h₂ : P.step s₁ (.commit true) = some s₂ := rfl
  let s₃ : State Bool :=
    { s₂ with view := Function.update s₂.view true (quizAssignment [sub.result]) }
  have h₃ : P.step s₂ (.refresh true 1 false) = some s₃ := by
    have hrefresh : P.refresh (s₂.view true) now = some (quizAssignment [sub.result]) :=
      refresh_submitted sub.result
    have hstep : P.step s₂ (.refresh true 1 false) = (P.refresh (s₂.view true) now).map fun w =>
        { s₂ with view := Function.update s₂.view true w } := rfl
    rw [hstep, hrefresh]
    rfl
  have hsafe : SafeStep quizPath (fun _ : Bool => "s_ann") (openState [])
      (.act true (.submit (quizSession "2") 0)) := by
    intro _ _
    refine ⟨fun d _ x hx => absurd hx (by simp [openState]), fun _ x hx => ?_⟩
    exact absurd ((mem_resultsAt hopened).mp hx) (by simp)
  have hcommit : SafeStep quizPath (fun _ : Bool => "s_ann") s₁ (.commit true) := trivial
  have hheard : SafeStep quizPath (fun _ : Bool => "s_ann") s₂ (.refresh true 1 false) := trivial
  have hinit : (P.system (OpenedUnique "quiz" quizPath)).Init (openState []) :=
    openedUnique_openState
  have hrun := Protocol.run_step (Protocol.run_step (Protocol.run_step (.init hinit) hsafe h₁)
    hcommit h₂) hheard h₃
  refine ⟨s₃, sub.result, ?_, hrun, rfl, ?_, hopened.apply (.add sub.result), hid⟩
  · show (P.system (OpenedUnique "quiz" quizPath)).replay (openState []) _ = some s₃
    rw [System.replay_cons h₁, System.replay_cons h₂, System.replay_cons h₃]
    rfl
  · intro d
    cases d <;> rfl

/-- Then she submits another answer, and both writes are committed. -/
theorem results_nodup_resubmission :
    ∃ s r, ((quizProtocol fun _ => "s_ann").system (OpenedUnique "quiz" quizPath)).replay
        (openState [])
        ([.act true (.submit (quizSession "2") 0), .commit true, .refresh true 1 false] ++
          [.act true (.submit (quizSession "3") 0), .commit true, .commit true]) = some s
      ∧ r.studentAnswers = some ["3"] ∧ Stores quizPath s.obj (some [r])
      ∧ ∃ o, Stores quizPath s.obj o ∧ ((o.getD []).map Result.studentID).Nodup := by
  let P := quizProtocol fun _ => "s_ann"
  obtain ⟨s, old, hheard, hrun, hview, hquiet, hstored, hold⟩ := run_heard
  have hshows : (quizAssignment [old]).Shows "s_ann" :=
    ⟨by decide, old, List.mem_singleton_self _, hold⟩
  obtain ⟨sub, hid, hanswers, hsub, hagain, -⟩ := quizSession_handle [old] "3" "s_ann"
  let ws : List Write := [.setMerge quizPath Strings.results (.array []),
    .unionUpdate quizPath Strings.results sub.result.toValue]
  let s₁ : State Bool :=
    { s with
      view := Function.update s.view true sub.assignment
      outbox := Function.update s.outbox true ws
      log := s.log ++ [sub.result] }
  have h₁ : P.step s (.act true (.submit (quizSession "3") 0)) = some s₁ := by
    have hhandle : P.handle true (s.view true) (.submit (quizSession "3") 0) =
        some (sub.assignment, sub.writes, [sub.result]) := by
      simp [P, protocol, handle, hview, hsub]
    rw [Protocol.step_act hhandle, hagain hshows, hquiet]
    rfl
  obtain ⟨s₂, h₂, s₃, h₃, hobj⟩ : ∃ s₂, P.step s₁ (.commit true) = some s₂
      ∧ ∃ s₃, P.step s₂ (.commit true) = some s₃ ∧ s₃.obj = s.obj.applyAll ws :=
    ⟨_, rfl, _, rfl, rfl⟩
  have hnow : Stores quizPath s₃.obj (some [sub.result]) := by
    rw [hobj]
    exact hstored.applyAll (.cons .clear (.cons (.add sub.result) .nil))
  have hsafe : SafeStep quizPath (fun _ : Bool => "s_ann") s
      (.act true (.submit (quizSession "3") 0)) := by
    intro sub' hsub'
    rw [hview] at hsub'
    obtain rfl : sub = sub' := Option.some.inj (hsub.symm.trans hsub')
    refine ⟨fun d hd x hx => ?_, fun hnot => ?_⟩
    · rw [hquiet d] at hx
      cases hx
    · rw [hview, hid] at hnot
      exact absurd hshows hnot
  have hcommit : ∀ s, SafeStep quizPath (fun _ : Bool => "s_ann") s (.commit true) :=
    fun _ => trivial
  have hrun₃ := Protocol.run_step (Protocol.run_step (Protocol.run_step hrun hsafe h₁)
    (hcommit s₁) h₂) (hcommit s₂) h₃
  refine ⟨s₃, sub.result, ?_, hanswers, hnow, results_nodup quizPath_eq hrun₃⟩
  rw [System.replay_append hheard, System.replay_cons h₁, System.replay_cons h₂,
    System.replay_cons h₃]
  rfl

/-- Ann submits on both before either write is committed: two stored results. -/
theorem results_duplicated_by_two_devices :
    ∃ s, ((quizProtocol fun _ => "s_ann").system (OpenedUnique "quiz" quizPath)).Reachable s
      ∧ ∃ o, Stores quizPath s.obj o ∧ ¬ ((o.getD []).map Result.studentID).Nodup := by
  obtain ⟨sub, s, -, hu, hanswers, hstep, hviews, hpending, -⟩ :=
    quizSession_step (fun _ => "s_ann") "2" true (s := openState []) rfl
  obtain ⟨sub', s', hsub', hu', hanswers', hstep', -⟩ :=
    quizSession_step (fun _ => "s_ann") "3" false (s := s) (hviews false (by decide))
  have hne : sub.result ≠ sub'.result := by
    intro heq
    rw [heq, hanswers'] at hanswers
    exact absurd hanswers (by decide)
  have hs : ((quizProtocol fun _ => "s_ann").system (OpenedUnique "quiz" quizPath)).Reachable s :=
    Protocol.run_step (.init openedUnique_openState) trivial hstep
  have hnot : ¬ SafeSubmission quizPath s false sub'.result := fun hsafe =>
    hne (hsafe.1 true (by decide) sub.result hpending (hu.trans hu'.symm))
  obtain ⟨cs, t, hcs, hdup⟩ := exists_duplicate quizPath_eq hs hsub' hnot hstep'
  exact ⟨t, System.run_of_replay (Protocol.run_step hs trivial hstep') hcs, hdup⟩

/-- Ann and Bob submit on a device each. -/
theorem submissions_kept_of_two :
    ∃ s s', (quizProtocol fun c => if c then "s_ann" else "s_bob").step (openState [])
        (.act true (.submit (quizSession "2") 0)) = some s
      ∧ (quizProtocol fun c => if c then "s_ann" else "s_bob").step s
        (.act false (.submit (quizSession "3") 0)) = some s'
      ∧ ∃ applied now, Stores quizPath s'.obj now ∧ now.getD [] = applied
        ∧ ∀ r ∈ s'.log, r ∈ applied
          ∨ ∃ c, .unionUpdate quizPath Strings.results r.toValue ∈ s'.outbox c := by
  obtain ⟨sub, s, -, hu, -, hstep, hviews, -, hlog⟩ :=
    quizSession_step (fun c => if c then "s_ann" else "s_bob") "2" true (s := openState []) rfl
  obtain ⟨sub', s', -, -, -, hstep', -⟩ := quizSession_step
    (fun c => if c then "s_ann" else "s_bob") "3" false (s := s) (hviews false (by decide))
  have hnew : OpenedNew "quiz" quizPath (fun c => if c then "s_ann" else "s_bob") (some [])
      (openState []) := ⟨opened_openState [], fun c r hr => by simp [openState, quizAssignment] at hr⟩
  have hfirst : FirstStep (fun c => if c then "s_ann" else "s_bob") [] s
      (.act false (.submit (quizSession "3") 0)) := by
    simp [FirstStep, hlog, hu, openState]
  obtain ⟨applied, now, hnow, heq, -, hkept, -⟩ := submissions_kept quizPath_eq
    (Protocol.run_step (Protocol.run_step (.init hnew) (by simp [FirstStep, openState]) hstep)
      hfirst hstep')
  exact ⟨s, s', hstep, hstep', applied, now, hnow, by simpa using heq, hkept⟩

end TwoDevices

end GradeIo.Devices
