import GradeIo.Lib.Transition
import GradeIo.SignUp

/-!
# Runs of sign-ups

One sign-up after another, of any kind, with any entries, draws and answers of
Auth. `registered` lists the documents of the users whose sign-up completed,
as they were then. A sign-up that traps half-way keeps what it has written.

`Intact` says that no sign-up touches the document of a user registered
earlier; it is kept by `SafeStep`, where the documents that a sign-up writes
and deletes belong to nobody.
-/

namespace GradeIo.Registration

open DocDb Transition App

inductive Event where
  | student (o : Outcome) (form : Form)
  | teacher (o : Outcome) (form : Form)
  | parent (o : Outcome) (form : Form)
  | parentCode (o : Outcome) (code : String)

structure State where
  world : World
  registered : List (DocPath × Option Doc)

variable (ops : TextOps) (floatDescription : Rat → String)

def handler : Event → App Bool
  | .student o form => CreateAccountStudent.signUpPressed ops o form
  | .teacher o form => CreateAccountTeacher.signUpPressed ops o form
  | .parent o form => CreateAccountParent.signUpPressed ops o form
  | .parentCode o code =>
      CreateAccountStudent.signUpParentCodePressed ops floatDescription o code

/-- A completed sign-up registers the document of the current user. -/
def register (σ : State) : EStateM.Result Halt World Bool → State
  | .ok true w =>
      ⟨w, σ.registered ++ w.currentUser.ref.toList.map fun p => (p, w.store.get? p)⟩
  | .ok false w => ⟨w, σ.registered⟩
  | .error _ w => ⟨w, σ.registered⟩

/-- Registered documents are as they were, and no two users share one. -/
structure Intact (σ : State) : Prop where
  kept : ∀ r ∈ σ.registered, σ.world.store.get? r.1 = r.2
  distinct : (σ.registered.map Prod.fst).Nodup

def system : System State Event :=
  ⟨Intact, fun σ e => some (register σ ((handler ops floatDescription e).run σ.world))⟩

/-! ## The condition -/

/-- The document is not that of a registered user. -/
def Free (σ : State) (p : DocPath) : Prop := p ∉ σ.registered.map Prod.fst

/-- If Auth accepts the address of the generated name, the name's document is free. -/
def FreeName (o : Outcome) (form : Form) (type : String) (σ : State) : Prop :=
  ∀ name p, UserHelper.generateUserName ops o form.firstName form.lastName type σ.world.store
      = .ok name → o.accepted = true → name ++ Strings.arbitraryEmail ∉ σ.world.accounts →
    documentPath type name = some p → Free σ p

/-- With a form that passes its check, the generated name has to be free; with
a code that leads to a student, the document of the doubly prefixed name and
the document that the code names. -/
def SafeStep (σ : State) : Event → Prop
  | .student o form => FreeName ops o form Strings.student σ
  | .teacher o form => form.isValid ops = true → FreeName ops o form Strings.teacher σ
  | .parent o form => form.isValid ops = true → FreeName ops o form Strings.parent σ
  | .parentCode o code =>
      ∀ res id p, Student.ofGivenCode code σ.world.store = .ok res → res.firstName ≠ some "" →
        UserHelper.generateUserName ops o (res.firstName.getD "") (res.lastName.getD "")
          "Student" σ.world.store = .ok id →
        documentPath Strings.student ("s_" ++ id) = some p →
        Free σ p ∧ ∀ q, documentPath Strings.student code = some q → Free σ q

/-! ## What a sign-up touches -/

variable {ops floatDescription}

/-- Only documents in `P` change, and a completed sign-up is of one of them. -/
def Effect (P : DocPath → Prop) (w : World) : EStateM.Result Halt World Bool → Prop
  | .ok true w' => (∀ q, ¬ P q → w'.store.get? q = w.store.get? q)
      ∧ ∃ p, P p ∧ w'.currentUser.ref = some p
  | .ok false w' => ∀ q, ¬ P q → w'.store.get? q = w.store.get? q
  | .error _ w' => ∀ q, ¬ P q → w'.store.get? q = w.store.get? q

/-- A sign-up that touches only free documents leaves the registered ones intact. -/
theorem Intact.register {σ : State} (h : Intact σ) {P : DocPath → Prop}
    {r : EStateM.Result Halt World Bool} (hr : Effect P σ.world r) (hfree : ∀ q, P q → Free σ q) :
    Intact (register σ r) := by
  have hkept : ∀ {w' : World}, (∀ q, ¬ P q → w'.store.get? q = σ.world.store.get? q) →
      ∀ r ∈ σ.registered, w'.store.get? r.1 = r.2 := by
    intro w' hw r hr
    have hnot : ¬ P r.1 := fun hP => hfree r.1 hP (List.mem_map_of_mem hr)
    exact (hw r.1 hnot).trans (h.kept r hr)
  cases r with
  | error e w => exact ⟨hkept hr, h.distinct⟩
  | ok b w =>
      cases b with
      | false => exact ⟨hkept hr, h.distinct⟩
      | true =>
          obtain ⟨hw, p, hp, href⟩ := hr
          simp only [Registration.register, href, Option.toList_some, List.map_cons, List.map_nil]
          refine ⟨?_, ?_⟩
          · intro r hr
            rcases List.mem_append.mp hr with hr | hr
            · exact hkept hw r hr
            · obtain rfl := List.mem_singleton.mp hr
              rfl
          · rw [List.map_append, List.nodup_append]
            refine ⟨h.distinct, List.nodup_singleton _, ?_⟩
            intro q hq q' hq' heq
            have hq' : q' = p := List.mem_singleton.mp hq'
            exact hfree p hp (hq' ▸ heq ▸ hq)

section Touches

variable {o : Outcome} {form : Form} {type : String} {w : World}

/-- The documents that a sign-up with a form writes to. -/
def Written (ops : TextOps) (o : Outcome) (form : Form) (type : String) (w : World)
    (q : DocPath) : Prop :=
  ∃ name, UserHelper.generateUserName ops o form.firstName form.lastName type w.store = .ok name
    ∧ o.accepted = true ∧ name ++ Strings.arbitraryEmail ∉ w.accounts
    ∧ documentPath type name = some q

theorem Effect.of_unregistered {P : DocPath → Prop} {r : EStateM.Result Halt World Bool}
    (h : Unregistered w r) : Effect P w r := by
  cases r with
  | error e w' => exact fun q _ => by rw [show w'.store = w.store from h]
  | ok b w' =>
      cases b with
      | true => exact h.elim
      | false => exact fun q _ => by rw [show w'.store = w.store from h]

theorem Effect.of_registers {fields : List (String × String)} {new : String → IUser}
    {segue : String} {r : EStateM.Result Halt World Bool}
    (h : Registers ops o form type fields new segue w r)
    (href : ∀ name, (new name).ref = documentPath type name) :
    Effect (Written ops o form type w) w r := by
  obtain ⟨name, p, hgen, hacc, hnew, hp, rfl⟩ := h
  have hP : Written ops o form type w p := ⟨name, hgen, hacc, hnew, hp⟩
  refine ⟨fun q hq => Store.get?_mergeAll_of_ne ?_, p, hP, (href name).trans hp⟩
  rintro rfl
  exact hq hP

/-- The documents that a sign-up with a code writes to or deletes. -/
def Migrated (ops : TextOps) (o : Outcome) (code : String) (w : World) (q : DocPath) : Prop :=
  ∃ res id p, Student.ofGivenCode code w.store = .ok res ∧ res.firstName ≠ some ""
    ∧ UserHelper.generateUserName ops o (res.firstName.getD "") (res.lastName.getD "")
        "Student" w.store = .ok id
    ∧ documentPath Strings.student ("s_" ++ id) = some p
    ∧ (q = p ∨ documentPath Strings.student code = some q)

theorem effect_signUpParentCode {code : String} :
    Effect (Migrated ops o code w) w
      ((CreateAccountStudent.signUpParentCodePressed ops floatDescription o code).run w) := by
  rcases signUpParentCode_cases (σ := w) with hno | ⟨res, id, p, hcode, hname, hgen, hp, hrun⟩
  · exact .of_unregistered hno
  · have hP : ∀ q, (q = p ∨ documentPath Strings.student code = some q) →
        Migrated ops o code w q := fun q hq => ⟨res, id, p, hcode, hname, hgen, hp, hq⟩
    have hcopied : ∀ q, ¬ Migrated ops o code w q →
        (w.copied floatDescription res id p).store.get? q = w.store.get? q := by
      refine fun q hq => Store.get?_mergeAll_of_ne ?_
      rintro rfl
      exact hq (hP _ (Or.inl rfl))
    rw [hrun]
    cases hdel : documentPath Strings.student code with
    | none => exact hcopied
    | some c =>
        refine ⟨fun q hq => ?_, p, hP p (Or.inl rfl), ref_migrated.trans hp⟩
        have hne : q ≠ (Write.delete c).path := by
          rintro rfl
          exact hq (hP _ (Or.inr hdel))
        exact (Store.get?_apply_of_ne _ hne).trans (hcopied q hq)

end Touches

/-! ## Runs -/

theorem Intact.step {σ σ' : State} (h : Intact σ) {e : Event}
    (hok : SafeStep ops σ e) (hs : (system ops floatDescription).step σ e = some σ') :
    Intact σ' := by
  obtain rfl := Option.some.inj hs
  cases e with
  | student o form =>
      refine h.register (P := Written ops o form Strings.student σ.world) ?_ ?_
      · rcases CreateAccountStudent.signUpPressed_cases (σ := σ.world) with hno | hreg
        · exact .of_unregistered hno
        · exact .of_registers hreg fun _ => rfl
      · rintro q ⟨name, hgen, hacc, hnew, hp⟩
        exact hok name q hgen hacc hnew hp
  | teacher o form =>
      rcases CreateAccountTeacher.signUpPressed_cases (σ := σ.world) with hno | ⟨hvalid, hreg⟩
      · exact h.register (P := fun _ => False) (.of_unregistered hno) fun _ hq => hq.elim
      · refine h.register (.of_registers hreg fun _ => rfl) ?_
        rintro q ⟨name, hgen, hacc, hnew, hp⟩
        exact hok hvalid name q hgen hacc hnew hp
  | parent o form =>
      rcases CreateAccountParent.signUpPressed_cases (σ := σ.world) with hno | ⟨hvalid, hreg⟩
      · exact h.register (P := fun _ => False) (.of_unregistered hno) fun _ hq => hq.elim
      · refine h.register (.of_registers hreg fun _ => rfl) ?_
        rintro q ⟨name, hgen, hacc, hnew, hp⟩
        exact hok hvalid name q hgen hacc hnew hp
  | parentCode o code =>
      refine h.register effect_signUpParentCode ?_
      rintro q ⟨res, id, p, hcode, hname, hgen, hp, hq⟩
      obtain ⟨hfree, hdel⟩ := hok res id p hcode hname hgen hp
      rcases hq with rfl | hq
      · exact hfree
      · exact hdel q hq

/-- In every run of safe sign-ups, every registered user's document stays as
it was registered, and no two users have the same one. -/
theorem intact_of_run {σ : State} (h : (system ops floatDescription).Run (SafeStep ops) σ) :
    Intact σ :=
  h.invariant (I := Intact) (fun _ h0 => h0) fun _ _ _ hI hok hs => hI.step hok hs

/-! ## Ann, and someone who types her id as a parent code -/

section Example

attribute [local instance] TextOps.ascii

def annForm : Form where
  firstName := "Ann"
  lastName := "Lee"
  password := "password"
  confirmPassword := "password"
  email := ""
  phoneNumber := ""

/-- The document exists or not as it does, and Auth accepts. -/
def accepting : Outcome := ⟨0, false, true⟩

def emptyState : State := ⟨emptyWorld, []⟩

abbrev asciiSystem : System State Event := system TextOps.ascii fun _ => "0.0"

theorem intact_emptyState : Intact emptyState :=
  ⟨fun _ h => absurd h List.not_mem_nil, List.nodup_nil⟩

def annPath : DocPath := ⟨Strings.student, "s_leeann"⟩

def annWorld : World :=
  emptyWorld.signedUp "s_leeann" annPath (studentFields annForm) (.student (Student.new "s_leeann"))
    "studentCreateToHome"

theorem run_ann :
    (CreateAccountStudent.signUpPressed TextOps.ascii accepting annForm).run emptyWorld =
      .ok true annWorld := by
  have hgen : UserHelper.generateUserName TextOps.ascii accepting annForm.firstName
      annForm.lastName Strings.student emptyWorld.store = .ok "s_leeann" := rfl
  have hpath : documentPath Strings.student "s_leeann" = some annPath := by decide
  exact run_createAccount hgen rfl (by decide) rfl hpath (studentSetters_eq annForm _)

/-- Ann has signed up. -/
def annState : State := ⟨annWorld, [(annPath, annWorld.store.get? annPath)]⟩

theorem step_ann : asciiSystem.step emptyState (.student accepting annForm) = some annState :=
  congrArg (fun r => some (register emptyState r)) run_ann

theorem exists_ann : (annWorld.store.get? annPath).isSome = true := by decide

/-- Her name is taken, and the number drawn is 7. -/
def drawing7 : Outcome := ⟨7, false, true⟩

def ann7Path : DocPath := ⟨Strings.student, "s_leeann7"⟩

def ann7World : World :=
  annWorld.signedUp "s_leeann7" ann7Path (studentFields annForm) (.student (Student.new "s_leeann7"))
    "studentCreateToHome"

theorem generate_ann7 : UserHelper.generateUserName TextOps.ascii drawing7 annForm.firstName
    annForm.lastName Strings.student annWorld.store = .ok "s_leeann7" := by
  have hname : UserHelper.plainUserName TextOps.ascii annForm.firstName annForm.lastName
      Strings.student = .ok "s_leeann" := rfl
  rw [generateUserName_eq hname (by decide : _ = some annPath) rfl, if_pos exists_ann]
  rfl

/-- Another Ann Lee has signed up after her. -/
def ann7State : State :=
  ⟨ann7World, annState.registered ++ [(ann7Path, ann7World.store.get? ann7Path)]⟩

theorem step_ann7 : asciiSystem.step annState (.student drawing7 annForm) = some ann7State := by
  have hrun : (CreateAccountStudent.signUpPressed TextOps.ascii drawing7 annForm).run annWorld =
      .ok true ann7World :=
    run_createAccount generate_ann7 rfl (by decide) rfl (by decide) (studentSetters_eq annForm _)
  exact congrArg (fun r => some (register annState r)) hrun

/-- Two students of one name have signed up, and each has a document. -/
theorem intact_ann7State :
    ann7State.registered.map Prod.fst = [annPath, ann7Path] ∧ Intact ann7State := by
  have hann : SafeStep TextOps.ascii emptyState (.student accepting annForm) :=
    fun _ _ _ _ _ _ => List.not_mem_nil
  have hann7 : SafeStep TextOps.ascii annState (.student drawing7 annForm) := by
    intro name p hgen _ _ hp
    obtain rfl := Except.ok.inj (generate_ann7.symm.trans hgen)
    have hpath : documentPath Strings.student "s_leeann7" = some ann7Path := by decide
    obtain rfl := Option.some.inj (hpath.symm.trans hp)
    exact (by decide : ann7Path ∉ [annPath])
  exact ⟨rfl, intact_of_run
    (.step (.step (.init intact_emptyState) hann step_ann) hann7 step_ann7)⟩

def annStudent : Student where
  id := some "s_leeann"
  firstName := some "Ann"
  lastName := some "Lee"
  email := none
  bio := none
  photoPath := none
  pronouns := none
  userType := none
  gpa := none
  classID := none
  parentID := none

/-- Someone types her id as a parent code: her document is copied and deleted. -/
theorem not_intact_of_ann_and_code : ∃ σ, asciiSystem.Reachable σ ∧ ¬ Intact σ := by
  have hcode : Student.ofGivenCode "s_leeann" annWorld.store = .ok annStudent := rfl
  have hgen : UserHelper.generateUserName TextOps.ascii accepting (annStudent.firstName.getD "")
      (annStudent.lastName.getD "") "Student" annWorld.store = .ok "s_leeann0" := by
    have hname : UserHelper.plainUserName TextOps.ascii (annStudent.firstName.getD "")
      (annStudent.lastName.getD "") "Student" = .ok "s_leeann" := rfl
    rw [generateUserName_eq hname (by decide : _ = some annPath) rfl, if_pos exists_ann]
    rfl
  have hpath : documentPath Strings.student ("s_" ++ "s_leeann0") =
      some ⟨Strings.student, "s_s_leeann0"⟩ := by decide
  have hdel : documentPath Strings.student "s_leeann" = some annPath := by decide
  have hrun : (handler TextOps.ascii (fun _ => "0.0") (.parentCode accepting "s_leeann")).run
      annWorld = _ := (run_signUpParentCode hcode (by decide) hgen).trans (run_migrate hpath)
  rw [hdel] at hrun
  have hstep : asciiSystem.step annState (.parentCode accepting "s_leeann") = some _ :=
    congrArg (fun r => some (register annState r)) hrun
  refine ⟨_, .step (.step (.init intact_emptyState) trivial step_ann) trivial hstep, fun h => ?_⟩
  have hkept := h.kept (annPath, annWorld.store.get? annPath) (by simp [register, annState])
  rw [show annWorld.store.get? annPath = some _ from Store.get?_mergeAll] at hkept
  exact absurd hkept (by simp [register, World.migrated, Store.get?_apply, Write.path, Write.onDoc])

end Example

end GradeIo.Registration
