import GradeIo.Effects
import GradeIo.Returning

/-!
# The collections of the current user

The class of a user names the collection that its setters write to, the first
character of its id the ones that `Listen` and `GetUserByID` turn to. A run is
any sequence of logins and sign-ups, with anything else happening to the rest
of the world in between; `installed` records every user that `CurrentUser` is
set to.

`collections_agree_iff`: the three collections agree for all of them exactly if,
whenever login is pressed and Auth has an account, the typed id is one that is
looked up.
-/

namespace GradeIo.Collections

open DocDb App UserHelper
open Registration (initial initial_of_generateUserName)

/-- The collections of a user are the same one, and the id is not empty. -/
def Agrees [TextOps] (u : IUser) : Prop :=
  ∃ (k : Kind) (id : String), u.id = some id ∧ id ≠ "" ∧ u.className = k.collection
    ∧ u.getType = k.collection ∧ kindOf id = some k

/-- Without an account in Auth, nothing is looked up. -/
def checkCredentials [TextOps] (now : Rat) (emailField : String) : App Unit := do
  if (← get).signedIn.isSome then signIn now emailField

inductive Event where
  | login (now : Rat) (emailField : String)
  | signUp (e : Registration.Event)
  /-- What the rest of the app, other devices and Auth do. -/
  | elsewhere (w : World)

section

variable (ops : TextOps) (floatDescription : Rat → String)

def after (σ : World) : Event → World
  | .login now emailField => App.after (checkCredentials now emailField) σ
  | .signUp e => App.after (Registration.handler ops floatDescription e) σ
  | .elsewhere w => { w with currentUser := σ.currentUser }

/-- A form installs its user when it completes. -/
def completed : EStateM.Result Halt World Bool → List IUser
  | .ok true σ => [σ.currentUser]
  | .ok false _ => []
  | .error _ _ => []

/-- A code installs the student it leads to, who then gets a new id. -/
def installsCode (o : Outcome) (code : String) (s : Store) : List IUser :=
  match Student.ofGivenCode code s with
  | .error _ => []
  | .ok res =>
      if res.firstName = some "" then []
      else
        let id := generateUserName ops o (res.firstName.getD "") (res.lastName.getD "") "Student" s
        .student res :: id.toOption.toList.map fun id => .student (res.migrated id)

/-- What `CurrentUser` is set to, in this order. -/
def installs (σ : World) : Event → List IUser
  | .login _ emailField =>
      if σ.signedIn.isSome then (getUserByID σ.store emailField).toOption.toList else []
  | .signUp (.student o form) => completed ((CreateAccountStudent.signUpPressed ops o form).run σ)
  | .signUp (.teacher o form) => completed ((CreateAccountTeacher.signUpPressed ops o form).run σ)
  | .signUp (.parent o form) => completed ((CreateAccountParent.signUpPressed ops o form).run σ)
  | .signUp (.parentCode o code) => installsCode ops o code σ.store
  | .elsewhere _ => []

structure State where
  world : World
  installed : List IUser

def step (σ : State) (e : Event) : State :=
  ⟨after ops floatDescription σ.world e, σ.installed ++ installs ops σ.world e⟩

def run (σ : State) (events : List Event) : State := events.foldl (step ops floatDescription) σ

/-! ## The condition -/

/-- The typed id begins with `p`, `s`, `x` or `t`. -/
def Typed (σ : World) : Event → Prop
  | .login _ emailField => σ.signedIn.isSome → kindOf emailField ≠ none
  | _ => True

/-- Every event of the run is `Typed`. -/
def TypedRun (σ : State) : List Event → Prop
  | [] => True
  | e :: events => Typed ops σ.world e ∧ TypedRun (step ops floatDescription σ e) events

/-! ## The users that are installed -/

section Installed

variable {ops floatDescription} {u : IUser} {id : String} {k : Kind} {σ : World}

theorem agrees_of_kind (hid : u.id = some id) (hk : kindOf id = some k)
    (hclass : u.className = k.collection) : Agrees u := by
  have hne : id ≠ "" := ne_empty_of_kindOf (hk ▸ Option.some_ne_none k)
  exact ⟨k, id, hid, hne, hclass, getType_of_kindOf hid hk, hk⟩

/-- A user whose collections agree listens to the document it writes to. -/
theorem Agrees.listen_eq_ref (h : Agrees u) : u.listen = u.ref := by
  obtain ⟨k, id, hid, -, hclass, htype, -⟩ := h
  rw [IUser.listen, IUser.ref, hid, hclass, htype]
  rfl

theorem not_agrees_base : ¬ Agrees (.base BaseUser.init) := by
  rintro ⟨k, id, hid, hne, -⟩
  exact hne (Option.some.inj hid).symm

theorem kindOf_of_initial (h : TextOps.first id = some (initial k).toString) :
    kindOf id = some k := by
  rw [kindOf, h]
  cases k <;> rfl

theorem agrees_of_getUserByID {s : Store} (hk : kindOf id = some k)
    (hu : getUserByID s id = .ok u) : Agrees u := by
  have hid : u.id = some id := id_of_getUserByID (hk ▸ Option.some_ne_none k) hu
  rw [getUserByID_of_kind hk, firstOf_eq_ok_iff] at hu
  obtain ⟨m, d, -, hdec⟩ := hu
  exact agrees_of_kind hid hk (Kind.className_of_ofDictionary hdec)

/-- A login with any other id installs a `BaseUser` without an id. -/
theorem login_iff (now : Rat) (emailField : String) :
    (∀ u ∈ installs ops σ (.login now emailField), Agrees u) ↔
      Typed ops σ (.login now emailField) := by
  simp only [installs, Typed]
  cases hauth : σ.signedIn.isSome with
  | false => simp
  | true =>
      simp only [if_true, true_imp_iff, Option.mem_toList]
      cases hk : kindOf emailField with
      | none =>
          have hbase : getUserByID σ.store emailField = .ok (.base BaseUser.init) := by
            rw [getUserByID, hk]
          refine iff_of_false (fun h => ?_) fun h => h rfl
          exact not_agrees_base (h _ (by rw [hbase]; rfl))
      | some k =>
          refine iff_of_true (fun u hu => ?_) (Option.some_ne_none k)
          cases hget : getUserByID σ.store emailField with
          | error e =>
              rw [hget] at hu
              cases hu
          | ok u' =>
              rw [hget] at hu
              obtain rfl : u' = u := Option.some.inj hu
              exact agrees_of_getUserByID hk hget

/-- The id of a new user begins with the initial of the class. -/
theorem agrees_of_registers {o : Outcome} {form : Form} {fields : List (String × String)}
    {new : String → IUser} {segue : String} {r : EStateM.Result Halt World Bool}
    (hnew : ∀ name, (new name).id = some name ∧ (new name).className = k.collection)
    (hr : Unregistered σ r ∨ Registers ops o form k.collection fields new segue σ r) :
    ∀ u ∈ completed r, Agrees u := by
  intro u hu
  rcases hr with hno | ⟨name, p, hgen, -, -, -, rfl⟩
  · cases r with
    | error e σ' => cases hu
    | ok b σ' =>
        cases b with
        | false => cases hu
        | true => exact hno.elim
  · obtain rfl := List.mem_singleton.mp hu
    have hk : kindOf name = some k := kindOf_of_initial (initial_of_generateUserName hgen)
    exact agrees_of_kind (hnew name).1 hk (hnew name).2

theorem agrees_of_installsCode {o : Outcome} {code : String} {s : Store} :
    ∀ u ∈ installsCode ops o code s, Agrees u := by
  intro u hu
  unfold installsCode at hu
  cases hcode : Student.ofGivenCode code s with
  | error e =>
      rw [hcode] at hu
      cases hu
  | ok res =>
      simp only [hcode] at hu
      split at hu
      · cases hu
      · have hget := Student.ofGivenCode_eq_ok.mp hcode
        obtain ⟨hk, -⟩ := getUserByID_eq_student_iff.mp hget
        rcases List.mem_cons.mp hu with rfl | hu
        · exact agrees_of_getUserByID hk hget
        · -- the new id begins with an `s`, and the class is the same
          obtain ⟨id, -, rfl⟩ := List.mem_map.mp hu
          have hs : kindOf ("s_" ++ id) = some .student :=
            kindOf_of_initial (TextOps.first_prefixed (c := 's') rfl id)
          exact agrees_of_kind rfl hs rfl

theorem installs_iff (e : Event) :
    (∀ u ∈ installs ops σ e, Agrees u) ↔ Typed ops σ e := by
  cases e with
  | login now emailField => exact login_iff now emailField
  | signUp e =>
      refine iff_of_true ?_ trivial
      cases e with
      | student o form =>
          exact agrees_of_registers (k := .student) (fun _ => ⟨rfl, rfl⟩)
            CreateAccountStudent.signUpPressed_cases
      | teacher o form =>
          exact agrees_of_registers (k := .teacher) (fun _ => ⟨rfl, rfl⟩)
            (CreateAccountTeacher.signUpPressed_cases.imp_right And.right)
      | parent o form =>
          exact agrees_of_registers (k := .parent) (fun _ => ⟨rfl, rfl⟩)
            (CreateAccountParent.signUpPressed_cases.imp_right And.right)
      | parentCode o code => exact agrees_of_installsCode
  | elsewhere w => exact iff_of_true (fun u hu => nomatch hu) trivial

end Installed

/-! ## Nothing else sets `CurrentUser` -/

section Current

variable {ops floatDescription} {σ : World}

theorem keepsUser_getAssignmentObjects (now : Rat) (c : Classroom) :
    KeepsUser (c.getAssignmentObjects now) := by
  refine .bind (.ask _) fun res => .mapM (fun document => ?_) res
  unfold Classroom.assignmentObject
  split
  · exact .bind (.unwrap _) fun _ => .pure _
  · exact .bind (.perform _) fun _ => .pure _

theorem keepsUser_getStudentObjects (studentIDs : Option (List String)) :
    KeepsUser (getStudentObjects studentIDs) :=
  .bind (.ask _) fun res => .mapM
    (fun _ => .bind (.unwrap _) fun _ => .bind (.unwrap _) fun _ => .pure _) res

theorem keepsUser_findGrade (assigns : List Assignment) :
    KeepsUser (Homepage.findGrade assigns) := by
  refine .bind (.foldlM (fun taken i => ?_) assigns _) fun _ => .pure _
  exact .bind .get fun _ => .bind (.unwrap _) fun _ =>
    .ite (.pure _) (.bind (.unwrap _) fun _ => .pure _)

theorem keepsUser_homeDidLoad (now : Rat) (k : Kind) : KeepsUser (homeDidLoad now k) := by
  cases k with
  | student =>
      refine .bind .get fun _ => .bind (.unwrap _) fun student => .bind .get fun _ =>
        .bind (.perform _) fun _ => .detach ?_
      exact .bind (.ask _) fun res => .bind (.setCurrentClassroom _) fun _ =>
        .bind (keepsUser_getAssignmentObjects now res) fun assign =>
          .bind (keepsUser_findGrade assign) fun _ => .pure _
  | teacher =>
      refine .bind .get fun _ => .bind (.unwrap _) fun _ => .bind (.unwrap _) fun _ => .detach ?_
      exact .bind (.ask _) fun _ => .setCurrentClassroom _
  | parent =>
      refine .bind .get fun _ => .bind (.unwrap _) fun parent =>
        .bind (keepsUser_getStudentObjects _) fun children => ?_
      exact .forM (fun _ => .bind (.unwrap _) fun _ => .pure _) children

theorem currentUser_signIn (now : Rat) (id : String) :
    (App.after (signIn now id) σ).currentUser =
      (getUserByID σ.store id).toOption.getD σ.currentUser := by
  rw [signIn, after_ask_bind]
  cases hu : getUserByID σ.store id with
  | error e => rfl
  | ok u =>
      refine KeepsUser.after_setCurrentUser (fun _ => .bind (.unwrap _) fun _ => ?_) u σ
      split
      · exact .bind (.performSegue _) fun _ => keepsUser_homeDidLoad now _
      · exact .pure _

theorem currentUser_of_ends {x : App Bool} {o : Outcome} {form : Form} {type segue : String}
    {fields : List (String × String)} {new : String → IUser}
    (hx : EndsEarly σ (x.run σ) ∨ Registers ops o form type fields new segue σ (x.run σ)) :
    (App.after x σ).currentUser = (completed (x.run σ)).getLast?.getD σ.currentUser := by
  rw [App.after]
  rcases hx with ⟨σ', hrun | ⟨e, hrun⟩, -, huser⟩ | ⟨name, p, -, -, -, -, hrun⟩
  · rw [hrun]
    exact huser
  · rw [hrun]
    exact huser
  · rw [hrun]
    rfl

theorem currentUser_parentCode (o : Outcome) (code : String) :
    (App.after (CreateAccountStudent.signUpParentCodePressed ops floatDescription o code)
        σ).currentUser =
      (installsCode ops o code σ.store).getLast?.getD σ.currentUser := by
  rw [App.after, installsCode]
  cases hcode : Student.ofGivenCode code σ.store with
  | error e =>
      rw [run_signUpParentCode_halt hcode]
      rfl
  | ok res =>
      by_cases hname : res.firstName = some ""
      · simp only [run_signUpParentCode_refused hcode hname, hname, if_true]
        rfl
      · simp only [hname, if_false]
        cases hgen : generateUserName ops o (res.firstName.getD "") (res.lastName.getD "")
            "Student" σ.store with
        | error e =>
            rw [run_signUpParentCode_nameless hcode hname hgen]
            rfl
        | ok id =>
            rw [run_signUpParentCode hcode hname hgen]
            cases hp : documentPath Strings.student ("s_" ++ id) with
            | none =>
                rw [run_migrate_trap hp]
                rfl
            | some p =>
                rw [run_migrate hp]
                cases documentPath Strings.student code <;> rfl

/-- An event leaves the user that was installed last. -/
theorem currentUser_after (e : Event) :
    (after ops floatDescription σ e).currentUser =
      (installs ops σ e).getLast?.getD σ.currentUser := by
  cases e with
  | login now emailField =>
      simp only [after, checkCredentials, installs, after_bind, EStateM.run_get]
      cases σ.signedIn.isSome with
      | false => rfl
      | true =>
          simp only [if_true, currentUser_signIn]
          cases getUserByID σ.store emailField <;> rfl
  | signUp e =>
      cases e with
      | student o form => exact currentUser_of_ends CreateAccountStudent.signUpPressed_ends
      | teacher o form =>
          exact currentUser_of_ends (CreateAccountTeacher.signUpPressed_ends.imp_right And.right)
      | parent o form =>
          exact currentUser_of_ends (CreateAccountParent.signUpPressed_ends.imp_right And.right)
      | parentCode o code => exact currentUser_parentCode o code
  | elsewhere w => rfl

end Current

/-! ## Runs -/

section Runs

variable {ops floatDescription}

theorem agree_run_iff (σ : State) (events : List Event) :
    (∀ u ∈ (run ops floatDescription σ events).installed, Agrees u) ↔
      (∀ u ∈ σ.installed, Agrees u) ∧ TypedRun ops floatDescription σ events := by
  induction events generalizing σ with
  | nil => exact (and_iff_left trivial).symm
  | cons e events ih =>
      have hstep : (∀ u ∈ (step ops floatDescription σ e).installed, Agrees u) ↔
          (∀ u ∈ σ.installed, Agrees u) ∧ Typed ops σ.world e := by
        have hnew : (∀ u ∈ installs ops σ.world e, Agrees u) ↔ Typed ops σ.world e := installs_iff e
        rw [← hnew, step]
        simp only [List.mem_append, or_imp, forall_and]
      rw [run, List.foldl_cons, ← run, ih, hstep, and_assoc]
      rfl

/-- In every run the current user is the one installed last. -/
theorem currentUser_run (σ : State) (u : IUser)
    (h : σ.world.currentUser = σ.installed.getLast?.getD u) (events : List Event) :
    (run ops floatDescription σ events).world.currentUser =
      (run ops floatDescription σ events).installed.getLast?.getD u := by
  induction events generalizing σ with
  | nil => exact h
  | cons e events ih =>
      refine ih (step ops floatDescription σ e) ?_
      simp only [step, currentUser_after, List.getLast?_append, h]
      cases (installs ops σ.world e).getLast? <;> rfl

/-- Where logins are typed so, the current user listens to the document it writes
to, once there is one. -/
theorem listen_eq_ref_of_typedRun (w : World) {events : List Event}
    (h : TypedRun ops floatDescription ⟨w, []⟩ events)
    (hne : (run ops floatDescription ⟨w, []⟩ events).installed ≠ []) :
    (run ops floatDescription ⟨w, []⟩ events).world.currentUser.listen =
      (run ops floatDescription ⟨w, []⟩ events).world.currentUser.ref := by
  have hagree : ∀ u ∈ (run ops floatDescription ⟨w, []⟩ events).installed, Agrees u :=
    (agree_run_iff ⟨w, []⟩ events).mpr ⟨fun u hu => absurd hu List.not_mem_nil, h⟩
  have hcurrent : (run ops floatDescription ⟨w, []⟩ events).world.currentUser = _ :=
    currentUser_run ⟨w, []⟩ w.currentUser rfl events
  rw [List.getLast?_eq_some_getLast hne, Option.getD_some] at hcurrent
  rw [hcurrent]
  exact (hagree _ (List.getLast_mem hne)).listen_eq_ref

end Runs

/-- Over a whole run, the collections of every user installed agree exactly if
login is only pressed with ids that are looked up. -/
theorem collections_agree_iff (w : World) (events : List Event) :
    (∀ u ∈ (run ops floatDescription ⟨w, []⟩ events).installed, Agrees u) ↔
      TypedRun ops floatDescription ⟨w, []⟩ events := by
  rw [agree_run_iff]
  exact and_iff_right fun u hu => absurd hu List.not_mem_nil

end

section Example

attribute [local instance] TextOps.ascii

/-- Somebody is signed in, and the name is typed without its prefix. -/
theorem not_agree_unprefixed : ¬ ∀ (w : World) (events : List Event),
    ∀ u ∈ (run .ascii (fun _ => "0.0") ⟨w, []⟩ events).installed, Agrees u := by
  intro h
  have hbase := h { emptyWorld with
    accounts := ["s_leeann@ArbitraryEmail.com"]
    signedIn := some "s_leeann@ArbitraryEmail.com" } [.login 0 "leeann"] (.base BaseUser.init)
    (List.mem_singleton_self _)
  exact not_agrees_base hbase

end Example

end GradeIo.Collections
