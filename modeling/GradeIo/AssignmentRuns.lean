import GradeIo.CreateAssignment

/-!
# Runs of assignment creations

Any number of teachers, each with the screen of `CreateAssignment` open or not,
open it, edit its fields and press its button in any order, over one store.
-/

namespace GradeIo.AssignmentRuns

open DocDb Transition CreateAssignmentViewController

/-- A press with all fields filled in: the Assignment collection before and
after, the screen, and what became of the date. -/
structure Press where
  before : Collection
  after : Collection
  screen : CreateAssignmentViewController
  date : Option Rat

structure State (Teacher : Type) where
  store : Store
  screens : Teacher → Option CreateAssignmentViewController
  presses : List Press

inductive Event (Teacher : Type) where
  | openScreen (t : Teacher) (now : Rat)
  | edit (t : Teacher) (assignName assignDueDate assignInstructions fileNameLabel : String)
  | press (t : Teacher) (currentUserID : Option String) (draw : Fin 1001) (now : Rat)

variable {Teacher : Type} [DecidableEq Teacher] (dateFromString : String → Option Rat)

/-- The log after a press that leaves the store `after`. -/
def record (s : State Teacher) (c : CreateAssignmentViewController) (after : Store) : List Press :=
  if c.isFull then
    s.presses ++ [⟨s.store Strings.assignment, after Strings.assignment, c,
      dateFromString c.assignDueDate⟩]
  else s.presses

/-- A press that traps closes the screen. -/
def press (s : State Teacher) (t : Teacher) (c : CreateAssignmentViewController) :
    Option Outcome → State Teacher
  | some out =>
      { store := s.store.applyAll out.writes
        screens := Function.update s.screens t (some out.screen)
        presses := record dateFromString s c (s.store.applyAll out.writes) }
  | none =>
      { store := s.store
        screens := Function.update s.screens t none
        presses := record dateFromString s c s.store }

def step (s : State Teacher) : Event Teacher → Option (State Teacher)
  | .openScreen t now =>
      some { s with
        store := s.store.applyAll (Assignment.setID ".").toList
        screens := Function.update s.screens t (some (init now)) }
  | .edit t assignName assignDueDate assignInstructions fileNameLabel =>
      (s.screens t).map fun c =>
        { s with screens := Function.update s.screens t (some { c with
            assignName, assignDueDate, assignInstructions, fileNameLabel }) }
  | .press t currentUserID draw now =>
      (s.screens t).map fun c =>
        press dateFromString s t c (c.confirmQuizCreation dateFromString currentUserID draw now)

/-- No screen is open yet; the store is any. -/
structure Init (s : State Teacher) : Prop where
  screens : ∀ t, s.screens t = none
  presses : s.presses = []

def system : System (State Teacher) (Event Teacher) := ⟨Init, step dateFromString⟩

/-- One new document with what was entered; without a date, nothing. -/
def Press.Atomic (r : Press) : Prop :=
  match r.date with
  | some date => ∃ m, r.before[m]? = none
      ∧ r.after = r.before.insert m ((∅ : Doc).merge (r.screen.entered date))
  | none => r.after = r.before

/-- Every document that the press created is in the collection, unchanged. -/
def Press.Kept (r : Press) (assignments : Collection) : Prop :=
  ∀ (m : String) (d : Doc), r.before[m]? = none → r.after[m]? = some d → assignments[m]? = some d

/-- Each press created one document or none, and all are still there. -/
structure Atomic (s : State Teacher) : Prop where
  atomic : ∀ r ∈ s.presses, r.Atomic
  kept : ∀ r ∈ s.presses, r.Kept (s.store Strings.assignment)

/-- The condition on a press that gets to save: the generated id is the name of
an Assignment document that does not exist. -/
def SafeStep (s : State Teacher) : Event Teacher → Prop
  | .press t currentUserID draw _ => ∀ c, s.screens t = some c → c.isFull = true →
      dateFromString c.assignDueDate ≠ none →
      ∃ p, documentPath Strings.assignment (generatedID currentUserID draw) = some p
        ∧ p.collection = Strings.assignment ∧ s.store.get? p = none
  | _ => True

/-! ## Invariant -/

section Invariant

variable {dateFromString} {s s' : State Teacher}

/-- The document `.` is there from the first screen on. -/
structure Inv (s : State Teacher) : Prop extends Atomic s where
  dot : s.presses ≠ [] ∨ (∃ t, s.screens t ≠ none) → DotWritten s.store

omit [DecidableEq Teacher] in
theorem Init.inv (h : Init s) : Inv s where
  atomic := by simp [h.presses]
  kept := by simp [h.presses]
  dot := by
    rintro (hne | ⟨t, ht⟩)
    · exact absurd h.presses hne
    · exact absurd (h.screens t) ht

theorem Inv.openScreen (h : Inv s) {t : Teacher} {now : Rat}
    (hs : step dateFromString s (.openScreen t now) = some s') : Inv s' := by
  obtain rfl := Option.some.inj hs
  have hstore : s.store.applyAll (Assignment.setID ".").toList = s.store.apply dotWrite := by
    rw [setID_dot]
    rfl
  refine ⟨⟨h.atomic, fun r hr => ?_⟩, fun _ => ?_⟩
  · -- after a press the document has its id already
    have hdot := h.dot (Or.inl (List.ne_nil_of_mem hr))
    simp only [hstore, apply_dotWrite_of_written hdot]
    exact h.kept r hr
  · simp only [hstore]
    exact dotWritten_apply s.store

/-- A press that leaves the collection as it was. -/
theorem Inv.unchanged (h : Inv s) {t : Teacher} {c : CreateAssignmentViewController}
    {screen : Option CreateAssignmentViewController} (hdot : DotWritten s.store)
    (hdate : c.isFull = true → dateFromString c.assignDueDate = none) :
    Inv { store := s.store, screens := Function.update s.screens t screen,
          presses := record dateFromString s c s.store } where
  atomic := by
    intro r hr
    unfold record at hr
    split at hr
    · rename_i hfull
      rcases List.mem_append.mp hr with hr | hr
      · exact h.atomic r hr
      · obtain rfl := List.mem_singleton.mp hr
        simp only [Press.Atomic, hdate hfull]
    · exact h.atomic r hr
  kept := by
    intro r hr
    unfold record at hr
    split at hr
    · rcases List.mem_append.mp hr with hr | hr
      · exact h.kept r hr
      · obtain rfl := List.mem_singleton.mp hr
        exact fun m d _ hd => hd
    · exact h.kept r hr
  dot := fun _ => hdot

/-- A press that creates a document. -/
theorem Inv.created (h : Inv s) {t : Teacher} {c : CreateAssignmentViewController}
    {screen : Option CreateAssignmentViewController} {date : Rat} {p : DocPath} {store : Store}
    (hdate : dateFromString c.assignDueDate = some date) (hfull : c.isFull = true)
    (hp : p.collection = Strings.assignment) (hnew : s.store.get? p = none)
    (hstore : store = s.store.applyAll (mergeAll p (c.entered date)))
    (hdot : DotWritten store) :
    Inv { store, screens := Function.update s.screens t screen,
          presses := record dateFromString s c store } := by
  have hcollection : store Strings.assignment =
      (s.store Strings.assignment).insert p.document ((∅ : Doc).merge (c.entered date)) := by
    have hinsert : (s.store.applyAll (mergeAll p (c.entered date))) p.collection = _ :=
      Store.mergeAll_collection
    rw [hp, hnew] at hinsert
    rw [hstore]
    exact hinsert
  have hnone : (s.store Strings.assignment)[p.document]? = none := by
    rw [← hp]
    exact hnew
  -- what was in the collection stays there
  have hgrows : ∀ {m : String} {d : Doc}, (s.store Strings.assignment)[m]? = some d →
      (store Strings.assignment)[m]? = some d := by
    intro m d hd
    have hne : ¬ compare p.document m = .eq := by
      intro heq
      rw [Std.LawfulEqCmp.eq_of_compare heq, hd] at hnone
      cases hnone
    rw [hcollection, Std.ExtTreeMap.getElem?_insert, if_neg hne, hd]
  have hrecord : record dateFromString s c store = s.presses ++ [⟨s.store Strings.assignment,
      store Strings.assignment, c, some date⟩] := by
    rw [record, if_pos hfull, hdate]
  refine ⟨⟨?_, ?_⟩, fun _ => hdot⟩
  · intro r hr
    simp only [hrecord] at hr
    rcases List.mem_append.mp hr with hr | hr
    · exact h.atomic r hr
    · obtain rfl := List.mem_singleton.mp hr
      exact ⟨p.document, hnone, hcollection⟩
  · intro r hr
    simp only [hrecord] at hr
    rcases List.mem_append.mp hr with hr | hr
    · exact fun m d hbefore hafter => hgrows (h.kept r hr m d hbefore hafter)
    · obtain rfl := List.mem_singleton.mp hr
      exact fun m d _ hafter => hafter

theorem Inv.press (h : Inv s) {t : Teacher} {currentUserID : Option String} {draw : Fin 1001}
    {now : Rat} (hok : SafeStep dateFromString s (.press t currentUserID draw now))
    (hs : step dateFromString s (.press t currentUserID draw now) = some s') : Inv s' := by
  obtain ⟨c, hc, rfl⟩ := Option.map_eq_some_iff.mp hs
  have hdot : DotWritten s.store := h.dot (Or.inr ⟨t, by simp [hc]⟩)
  rcases confirmQuizCreation_cases dateFromString c currentUserID draw now hdot with
    ⟨out, hrun, hdate, hstore⟩ | ⟨hfull, date, hdate, hsaved⟩
  · rw [hrun]
    simp only [AssignmentRuns.press, hstore]
    exact h.unchanged hdot hdate
  · obtain ⟨p, hp, hcol, hnew⟩ := hok c hc hfull (by simp [hdate])
    rcases hsaved with ⟨hnone, -⟩ | ⟨p', out, hp', hrun, hstore⟩
    · rw [hp] at hnone
      cases hnone
    · obtain rfl : p = p' := Option.some.inj (hp.symm.trans hp')
      have hne : p ≠ dotPath := by
        rintro rfl
        obtain ⟨d, hget, -⟩ := hdot
        rw [hnew] at hget
        cases hget
      have hsaved := hdot.mergeAll (c.entered date) hne
      rw [apply_dotWrite_of_written hsaved] at hstore
      rw [hrun]
      exact h.created hdate hfull hcol hnew hstore (hstore ▸ hsaved)

theorem Inv.step (h : Inv s) {e : Event Teacher} (hok : SafeStep dateFromString s e)
    (hs : step dateFromString s e = some s') : Inv s' := by
  cases e with
  | openScreen t now => exact h.openScreen hs
  | edit t assignName assignDueDate assignInstructions fileNameLabel =>
      obtain ⟨c, hc, rfl⟩ := Option.map_eq_some_iff.mp hs
      exact ⟨⟨h.atomic, h.kept⟩, fun _ => h.dot (Or.inr ⟨t, by simp [hc]⟩)⟩
  | press t currentUserID draw now => exact h.press hok hs

theorem Inv.run (h : (system dateFromString).Run (SafeStep dateFromString) s) : Inv s :=
  h.invariant (fun _ => Init.inv) fun _ _ _ hI hok hs => hI.step hok hs

/-- In every run of safe presses, each created one document or none, and what
they created is still there. -/
theorem atomic_of_run (h : (system dateFromString).Run (SafeStep dateFromString) s) : Atomic s :=
  (Inv.run h).toAtomic

/-! ## The condition is exact -/

theorem not_atomic_of_no_new {r : Press} {date : Rat} (hdate : r.date = some date)
    (h : ∀ m : String, r.before[m]? = none → r.after[m]? = none) : ¬ r.Atomic := by
  intro hatomic
  simp only [Press.Atomic, hdate] at hatomic
  obtain ⟨m, hbefore, hafter⟩ := hatomic
  have hnone := h m hbefore
  rw [hafter, Std.ExtTreeMap.getElem?_insert_self] at hnone
  cases hnone

/-- A press that is not safe creates no document, or traps. -/
theorem not_atomic_of_not_safe (h : Inv s) {e : Event Teacher}
    (hnot : ¬ SafeStep dateFromString s e) (hs : step dateFromString s e = some s') :
    ¬ Atomic s' := by
  cases e with
  | openScreen t now => exact absurd trivial hnot
  | edit t assignName assignDueDate assignInstructions fileNameLabel => exact absurd trivial hnot
  | press t currentUserID draw now =>
      obtain ⟨c, hc, rfl⟩ := Option.map_eq_some_iff.mp hs
      simp only [SafeStep, hc, Option.some.injEq, forall_eq', not_forall] at hnot
      obtain ⟨hfull, hdate, htaken⟩ := hnot
      have hdot : DotWritten s.store := h.dot (Or.inr ⟨t, by simp [hc]⟩)
      rcases confirmQuizCreation_cases dateFromString c currentUserID draw now hdot with
        ⟨out, -, hnodate, -⟩ | ⟨-, date, hsome, hsaved⟩
      · exact absurd (hnodate hfull) hdate
      · -- the press is the last one of the log
        have hlast : ∀ (after : Store) (screens : Teacher → Option CreateAssignmentViewController),
            (∀ m : String, (s.store Strings.assignment)[m]? = none →
              (after Strings.assignment)[m]? = none) →
            ¬ Atomic { store := after, screens, presses := record dateFromString s c after } := by
          intro after screens hnone hatomic
          let r : Press := ⟨s.store Strings.assignment, after Strings.assignment, c, some date⟩
          have hmem : r ∈ record dateFromString s c after := by
            rw [record, if_pos hfull, hsome]
            exact List.mem_append_right _ (List.mem_singleton_self r)
          exact not_atomic_of_no_new (r := r) rfl hnone (hatomic.atomic r hmem)
        rcases hsaved with ⟨-, hrun⟩ | ⟨p, out, hp, hrun, hstore⟩
        · rw [hrun]
          exact hlast _ _ fun m hm => hm
        · rw [hrun]
          refine hlast _ _ fun m hm => ?_
          have hnep : (⟨Strings.assignment, m⟩ : DocPath) ≠ p := by
            rintro rfl
            exact htaken ⟨_, hp, rfl, hm⟩
          have hnedot : (⟨Strings.assignment, m⟩ : DocPath) ≠ dotPath := by
            intro heq
            obtain ⟨d, hget, -⟩ := hdot
            rw [← heq] at hget
            exact absurd (hm.symm.trans hget) (by simp)
          rw [hstore]
          exact (Store.get?_apply_of_ne _ (w := dotWrite) hnedot).trans
            ((Store.get?_mergeAll_of_ne hnep).trans hm)

end Invariant

/-! ## Two teachers whose ids run into each other -/

section TwoTeachers

def noScreens : State Bool := ⟨fun _ => ∅, fun _ => none, []⟩

theorem init_noScreens : (system someDate).Init noScreens := ⟨fun _ => rfl, rfl⟩

/-- One of them has opened the screen. -/
def opened : State Bool where
  store := Store.apply (fun _ => ∅) dotWrite
  screens := Function.update (fun _ => none) true (some (init 0))
  presses := []

/-- And filled it in. -/
def filledIn : State Bool :=
  { opened with screens := Function.update opened.screens true (some sums) }

theorem run_filledIn : (system someDate).Run (SafeStep someDate) filledIn := by
  have hopened : (system someDate).Run (SafeStep someDate) opened :=
    .step (a := .openScreen true 0) (.init init_noScreens) trivial rfl
  exact .step (a := .edit true "Sums" "05/14/21" "Add." "sums.csv") hopened trivial rfl

theorem safeStep_filledIn : SafeStep someDate filledIn (.press true (some "t_a") 12 0) := by
  intro c _ _ _
  exact ⟨⟨Strings.assignment, "t_a12"⟩, by decide, rfl, by decide⟩

def sumsCreated : Outcome :=
  ⟨init 0, ("Created", "Your assignment was created"), sumsWrites⟩

theorem confirm_sums : sums.confirmQuizCreation someDate (some "t_a") 12 0 = some sumsCreated := by
  rw [confirmQuizCreation, if_pos (by decide), generateAssignment_sums]
  rfl

/-- The first press, with the number 12 drawn. -/
def pressed : State Bool := press someDate filledIn true sums (some sumsCreated)

theorem step_pressed : step someDate filledIn (.press true (some "t_a") 12 0) = some pressed :=
  congrArg (fun out => some (press someDate filledIn true sums out)) confirm_sums

/-- A first press creates its assignment. -/
theorem atomic_pressed : Atomic pressed :=
  atomic_of_run (.step run_filledIn safeStep_filledIn step_pressed)

def takeaways : CreateAssignmentViewController :=
  ⟨Assignment.new "." 0, "Takeaways", "05/14/21", "Subtract.", "minus.csv"⟩

/-- The other teacher opens the screen and fills it in. -/
def secondFilledIn : State Bool :=
  { pressed with
    store := pressed.store.apply dotWrite
    screens := Function.update (Function.update pressed.screens false (some (init 0))) false
      (some takeaways) }

theorem run_secondFilledIn : (system someDate).Run (SafeStep someDate) secondFilledIn := by
  have hpressed : (system someDate).Run (SafeStep someDate) pressed :=
    .step run_filledIn safeStep_filledIn step_pressed
  have hopened : (system someDate).Run (SafeStep someDate)
      { pressed with
        store := pressed.store.apply dotWrite
        screens := Function.update pressed.screens false (some (init 0)) } :=
    .step (a := .openScreen false 0) hpressed trivial rfl
  exact .step (a := .edit false "Takeaways" "05/14/21" "Subtract." "minus.csv") hopened trivial rfl

/-- Her id is `t_a1` and the number drawn 2: the same document is written again. -/
theorem not_atomic_of_same_id : ∃ s : State Bool, (system someDate).Reachable s ∧ ¬ Atomic s := by
  have hnot : ¬ SafeStep someDate secondFilledIn (.press false (some "t_a1") 2 0) := by
    intro hok
    obtain ⟨p, hp, -, hnew⟩ := hok takeaways rfl (by decide) (by simp [someDate, takeaways])
    have hpath : documentPath Strings.assignment (generatedID (some "t_a1") 2) = some sumsPath := by
      decide
    obtain rfl : sumsPath = p := Option.some.inj (hpath.symm.trans hp)
    have hsome : (secondFilledIn.store.get? sumsPath).isSome = true := by decide
    rw [hnew] at hsome
    cases hsome
  have hreach : (system someDate).Reachable secondFilledIn :=
    run_secondFilledIn.weaken fun _ _ _ => trivial
  have hstep : step someDate secondFilledIn (.press false (some "t_a1") 2 0) = some _ := rfl
  exact ⟨_, .step (a := .press false (some "t_a1") 2 0) hreach trivial hstep,
    not_atomic_of_not_safe (Inv.run run_secondFilledIn) hnot hstep⟩

end TwoTeachers

end GradeIo.AssignmentRuns
