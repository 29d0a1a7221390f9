import GradeIo.Lib.Transition
import GradeIo.UserHelper

/-!
# The sign-in screen

`ViewController.swift`. Pressing login sends a request to Auth and, without
waiting for it, looks up the typed id if Auth has any account signed in.
Requests and lookups complete in any order, each lookup on whatever the store
holds by then.

`installed` records every user that `CurrentUser` is set to, with the account
that Auth has signed in at that moment; `Authorised` compares the two.
-/

namespace GradeIo.SignIn

open DocDb Transition UserHelper

/-- The class whose home screen `PerformSignInSegue` opens, by the user's id. -/
def performSignInSegue [TextOps] (id : Option String) : Option Kind :=
  match id.bind TextOps.first with
  | some "s" => some .student
  | some "t" => some .teacher
  | some "p" => some .parent
  | _ => none

/-- The segue to the home screen of a class. -/
def segue : Kind → String
  | .student => "signInToHomeScreen_STUDENT"
  | .teacher => "signInToHomeScreen_TEACHER"
  | .parent => "signInToHomeScreen_PARENT"

structure State where
  emailField : String
  passwordField : String
  /-- The e-mail of the account that Auth has signed in. -/
  auth : Option String
  /-- E-mail and password of the sign-in requests under way. -/
  requests : List (String × String)
  /-- The ids of the lookups under way. -/
  lookups : List String
  currentUser : IUser
  screens : List String
  crashed : Bool
  installed : List (IUser × Option String)

inductive Event where
  | editEmail (text : String)
  | editPassword (text : String)
  | loginPressed
  | signInDone (i : Nat) (success : Bool)
  | lookupDone (i : Nat) (store : Store)

section Screen

variable [TextOps]

/-- The completion handler of `checkCredentials`. -/
def install (s : State) (u : IUser) : State :=
  let s := { s with currentUser := u, installed := s.installed ++ [(u, s.auth)] }
  match u.listen with
  | some _ => { s with screens := s.screens ++ ((performSignInSegue u.id).map segue).toList }
  | none => { s with crashed := true }

/-- A lookup that needs no query answers at once. -/
def checkCredentials (s : State) : State :=
  match s.auth with
  | some _ =>
      match kindOf s.emailField with
      | some _ => { s with lookups := s.lookups ++ [s.emailField] }
      | none => install s (.base BaseUser.init)
  | none => s

def loginPressed (s : State) : State :=
  checkCredentials
    { s with requests := s.requests ++ [(s.emailField ++ Strings.arbitraryEmail, s.passwordField)] }

/-- Auth's account changes when a request succeeds, and only then. -/
def signInDone (s : State) (i : Nat) (success : Bool) : Option State :=
  s.requests[i]?.map fun r =>
    { s with
      requests := s.requests.eraseIdx i
      auth := if success then some r.1 else s.auth }

def lookupDone (s : State) (i : Nat) (store : Store) : Option State :=
  s.lookups[i]?.map fun id =>
    let s := { s with lookups := s.lookups.eraseIdx i }
    match getUserByID store id with
    | .ok u => install s u
    | .error .noAnswer => s
    | .error .trap => { s with crashed := true }

def step (s : State) (e : Event) : Option State :=
  if s.crashed then none
  else
    match e with
    | .editEmail text => some { s with emailField := text }
    | .editPassword text => some { s with passwordField := text }
    | .loginPressed => some (loginPressed s)
    | .signInDone i success => signInDone s i success
    | .lookupDone i store => lookupDone s i store

/-- The screen has just appeared, over any state of Auth. -/
structure Init (s : State) : Prop where
  requests : s.requests = []
  lookups : s.lookups = []
  installed : s.installed = []

def system : System State Event := ⟨Init, step⟩

/-- The account that goes with an id. -/
abbrev account (id : String) : Option String := some (id ++ Strings.arbitraryEmail)

/-- Every user installed under an id is the one whose account was signed in. -/
def Authorised (s : State) : Prop :=
  ∀ p ∈ s.installed, ∀ id, p.1.id = some id → id ≠ "" → p.2 = account id

/-- The condition on a step: login is pressed only while Auth has no account,
the typed one, or an id is typed that is not looked up; and a request succeeds
only while every lookup under way is for its account. -/
def Guarded (s : State) : Event → Prop
  | .loginPressed =>
      s.auth = none ∨ s.auth = account s.emailField ∨ kindOf s.emailField = none
  | .signInDone i true => ∀ r, s.requests[i]? = some r → ∀ id ∈ s.lookups, some r.1 = account id
  | _ => True

/-! ## Safety -/

/-- Lookups under way are for the account that is signed in. -/
structure Inv (s : State) : Prop where
  installed : Authorised s
  lookups : ∀ id ∈ s.lookups, s.auth = account id
  kinds : ∀ id ∈ s.lookups, kindOf id ≠ none

theorem install_installed (s : State) (u : IUser) :
    (install s u).installed = s.installed ++ [(u, s.auth)] := by
  unfold install
  cases u.listen <;> rfl

theorem install_lookups (s : State) (u : IUser) : (install s u).lookups = s.lookups := by
  unfold install
  cases u.listen <;> rfl

theorem install_auth (s : State) (u : IUser) : (install s u).auth = s.auth := by
  unfold install
  cases u.listen <;> rfl

/-- Installing the user of the account, or one without an id. -/
theorem Inv.install {s : State} (h : Inv s) {u : IUser}
    (hu : ∀ id, u.id = some id → id ≠ "" → s.auth = account id) : Inv (install s u) where
  installed := by
    intro p hp id hid hne
    rw [install_installed] at hp
    rcases List.mem_append.mp hp with hp | hp
    · exact h.installed p hp id hid hne
    · obtain rfl := List.mem_singleton.mp hp
      exact hu id hid hne
  lookups := by
    rw [install_lookups, install_auth]
    exact h.lookups
  kinds := by
    rw [install_lookups]
    exact h.kinds

/-- Everything `checkCredentials` can do. -/
theorem checkCredentials_cases (s : State) :
    (s.auth = none ∧ checkCredentials s = s)
      ∨ (s.auth ≠ none ∧ kindOf s.emailField ≠ none
        ∧ checkCredentials s = { s with lookups := s.lookups ++ [s.emailField] })
      ∨ (s.auth ≠ none ∧ kindOf s.emailField = none
        ∧ checkCredentials s = SignIn.install s (.base BaseUser.init)) := by
  unfold checkCredentials
  cases hauth : s.auth with
  | none => exact Or.inl ⟨rfl, rfl⟩
  | some e =>
      right
      cases hk : kindOf s.emailField with
      | none => exact Or.inr ⟨by simp, rfl, rfl⟩
      | some k => exact Or.inl ⟨by simp, by simp, rfl⟩

theorem Inv.loginPressed {s : State} (h : Inv s) (hok : Guarded s .loginPressed) :
    Inv (loginPressed s) := by
  unfold SignIn.loginPressed
  have h' : Inv { s with
      requests := s.requests ++ [(s.emailField ++ Strings.arbitraryEmail, s.passwordField)] } :=
    ⟨h.installed, h.lookups, h.kinds⟩
  rcases checkCredentials_cases { s with
      requests := s.requests ++ [(s.emailField ++ Strings.arbitraryEmail, s.passwordField)] }
    with ⟨-, heq⟩ | ⟨hauth, hk, heq⟩ | ⟨-, -, heq⟩
  · rw [heq]
    exact h'
  · rw [heq]
    refine ⟨h.installed, ?_, ?_⟩ <;> intro id hid <;> rcases List.mem_append.mp hid with hid | hid
    · exact h.lookups id hid
    · obtain rfl := List.mem_singleton.mp hid
      rcases hok with hnone | hmatch | hkind
      · exact absurd hnone hauth
      · exact hmatch
      · exact absurd hkind hk
    · exact h.kinds id hid
    · obtain rfl := List.mem_singleton.mp hid
      exact hk
  · rw [heq]
    refine h'.install fun id hid hne => ?_
    exact absurd (Option.some.inj hid).symm hne

theorem Inv.signInDone {s s' : State} (h : Inv s) {i : Nat} {success : Bool}
    (hok : Guarded s (.signInDone i success)) (hs : signInDone s i success = some s') : Inv s' := by
  obtain ⟨r, hr, rfl⟩ := Option.map_eq_some_iff.mp hs
  refine ⟨h.installed, ?_, h.kinds⟩
  intro id hid
  cases success with
  | false => exact h.lookups id hid
  | true => exact hok r hr id hid

theorem Inv.lookupDone {s s' : State} (h : Inv s) {i : Nat} {store : Store}
    (hs : lookupDone s i store = some s') : Inv s' := by
  obtain ⟨id, hid, rfl⟩ := Option.map_eq_some_iff.mp hs
  have hmem : id ∈ s.lookups := List.mem_of_getElem? hid
  have h' : Inv { s with lookups := s.lookups.eraseIdx i } :=
    ⟨h.installed, fun j hj => h.lookups j (List.mem_of_mem_eraseIdx hj),
      fun j hj => h.kinds j (List.mem_of_mem_eraseIdx hj)⟩
  cases hans : getUserByID store id with
  | error e =>
      cases e with
      | trap =>
          simp only
          exact ⟨h'.installed, h'.lookups, h'.kinds⟩
      | noAnswer =>
          simp only
          exact h'
  | ok u =>
      simp only
      refine h'.install fun j hj _ => ?_
      -- the installed user carries the id that was looked up
      obtain rfl := Option.some.inj ((id_of_getUserByID (h.kinds id hmem) hans).symm.trans hj)
      exact h.lookups id hmem

theorem Inv.step {s s' : State} (h : Inv s) {e : Event} (hok : Guarded s e)
    (hs : step s e = some s') : Inv s' := by
  unfold SignIn.step at hs
  split at hs
  · cases hs
  · cases e with
    | editEmail text =>
        obtain rfl := Option.some.inj hs
        exact ⟨h.installed, h.lookups, h.kinds⟩
    | editPassword text =>
        obtain rfl := Option.some.inj hs
        exact ⟨h.installed, h.lookups, h.kinds⟩
    | loginPressed =>
        obtain rfl := Option.some.inj hs
        exact h.loginPressed hok
    | signInDone i success => exact h.signInDone hok hs
    | lookupDone i store => exact h.lookupDone hs

theorem Init.inv {s : State} (h : Init s) : Inv s where
  installed := by simp [Authorised, h.installed]
  lookups := by simp [h.lookups]
  kinds := by simp [h.lookups]

theorem run_step {ok : State → Event → Prop} {s s' : State} {e : Event} (h : system.Run ok s)
    (hok : ok s e) (hs : step s e = some s') : system.Run ok s' :=
  .step h hok hs

theorem Inv.run {s : State} (h : system.Run Guarded s) : Inv s :=
  h.invariant (fun _ => Init.inv) fun _ _ _ hI hok hs => hI.step hok hs

/-- In every run of guarded steps, only the user whose account is signed in is
ever installed. -/
theorem authorised_of_run {s : State} (h : system.Run Guarded s) : Authorised s :=
  (Inv.run h).installed

/-! ## The condition is exact -/

/-- A lookup under way for another account than the signed-in one can install
its user. -/
theorem exists_unauthorised {s : State} (hrun : s.crashed = false) {id : String}
    (hid : id ∈ s.lookups) (hkind : kindOf id ≠ none) (hauth : s.auth ≠ account id) :
    ∃ i store s', step s (.lookupDone i store) = some s' ∧ ¬ Authorised s' := by
  obtain ⟨i, hi⟩ := List.getElem?_of_mem hid
  obtain ⟨store, u, hans, hu⟩ := exists_getUserByID hkind
  refine ⟨i, store, _, by simp [step, hrun, lookupDone, hi, hans]; rfl, ?_⟩
  intro h
  refine hauth (h (u, s.auth) ?_ id hu (ne_empty_of_kindOf hkind))
  rw [install_installed]
  simp

/-- After a step that is not guarded, one more completion installs a user whose
account is not signed in. -/
theorem exists_unauthorised_of_not_guarded {s s' : State} {e : Event} (hI : Inv s)
    (hok : ¬ Guarded s e) (hs : step s e = some s') :
    ∃ i store s'', step s' (.lookupDone i store) = some s'' ∧ ¬ Authorised s'' := by
  have hrun : s.crashed = false := by
    by_contra h
    simp [step, h] at hs
  cases e with
  | editEmail text => exact absurd trivial hok
  | editPassword text => exact absurd trivial hok
  | lookupDone i store => exact absurd trivial hok
  | loginPressed =>
      simp only [Guarded, not_or] at hok
      obtain ⟨hsome, hother, hkind⟩ := hok
      simp only [step, hrun] at hs
      obtain rfl := Option.some.inj hs
      unfold loginPressed
      rcases checkCredentials_cases { s with
          requests := s.requests ++ [(s.emailField ++ Strings.arbitraryEmail, s.passwordField)] }
        with ⟨hnone, -⟩ | ⟨-, -, heq⟩ | ⟨-, hk, -⟩
      · exact absurd hnone hsome
      · rw [heq]
        exact exists_unauthorised hrun (by simp) hkind hother
      · exact absurd hk hkind
  | signInDone i success =>
      cases success with
      | false => exact absurd trivial hok
      | true =>
          simp only [Guarded, not_forall] at hok
          obtain ⟨r, hr, id, hid, hother⟩ := hok
          simp only [step, hrun, signInDone, hr] at hs
          obtain rfl := Option.some.inj hs
          exact exists_unauthorised rfl hid (hI.kinds id hid) hother

end Screen

/-! ## Ann's account and another id -/

section Example

attribute [local instance] TextOps.ascii

/-- The screen with nothing under way. -/
def screen (emailField : String) (auth : Option String) : State where
  emailField := emailField
  passwordField := ""
  auth := auth
  requests := []
  lookups := []
  currentUser := .base BaseUser.init
  screens := []
  crashed := false
  installed := []

/-- Ann's document is all there is. -/
def annStore : Store := fun _ => (∅ : Collection).insert "s_ann" (idDoc "s_ann")

/-- Ann is signed in and signs in once more: her lookup finds her, and her home
screen opens. -/
theorem authorised_of_same_account :
    ∃ s, system.replay (screen "s_ann" (account "s_ann")) [.loginPressed, .lookupDone 0 annStore] =
        some s
      ∧ s.installed.map (fun p => (p.1.id, p.2)) = [(some "s_ann", account "s_ann")]
      ∧ s.screens = [segue .student] ∧ Authorised s := by
  have hok : Guarded (screen "s_ann" (account "s_ann")) .loginPressed := Or.inr (Or.inl rfl)
  have hpressed := run_step (.init ⟨rfl, rfl, rfl⟩) hok rfl
  have hdone := run_step (e := .lookupDone 0 annStore) hpressed trivial rfl
  exact ⟨_, rfl, rfl, rfl, authorised_of_run hdone⟩

/-- Ann signs in; then `t_bob` is typed, with any password, and login pressed. -/
theorem unauthorised_after_other_id : ∃ s, system.Reachable s ∧ ¬ Authorised s := by
  have hann : system.Run Guarded (screen "s_ann" none) := .init ⟨rfl, rfl, rfl⟩
  have hsent := run_step (e := .loginPressed) hann (Or.inl rfl) rfl
  have hin : system.Run Guarded (screen "s_ann" (account "s_ann")) :=
    run_step (e := .signInDone 0 true) hsent (fun r _ id hid => absurd hid List.not_mem_nil) rfl
  have htyped : system.Run Guarded (screen "t_bob" (account "s_ann")) :=
    run_step (e := .editEmail "t_bob") hin trivial rfl
  have hbad : ¬ Guarded (screen "t_bob" (account "s_ann")) .loginPressed := by
    rintro (h | h | h) <;> exact absurd h (by decide)
  obtain ⟨i, store, s, hs, hun⟩ :=
    exists_unauthorised_of_not_guarded (Inv.run htyped) hbad rfl
  have hreach : system.Reachable _ := htyped.weaken fun _ _ _ => trivial
  have hpressed := run_step (e := .loginPressed) hreach trivial rfl
  exact ⟨s, run_step hpressed trivial hs, hun⟩

end Example

end GradeIo.SignIn
