import GradeIo.Assignment
import GradeIo.Classroom

/-!
# Handlers

A handler is a program over the `World`: the store, the accounts registered
with Auth, and the application's global variables. It ends with a value, or
halts (`Halt`); either way the world it leaves is kept, since a write that has
been issued is not taken back when the application traps.

`perform` issues a write, `ask` waits for a read; `detach` starts a call whose
completion handler is the last thing that happens, so that an answer that
never comes leaves the rest of the handler alone.
-/

namespace GradeIo

open DocDb

structure World where
  store : Store
  /-- The e-mail addresses registered with Auth. -/
  accounts : List String
  /-- The e-mail address of the account that is signed in. -/
  signedIn : Option String
  currentUser : IUser
  currentClassroom : Classroom
  /-- Title and body of the alerts shown. -/
  alerts : List (String × String)
  /-- The home screens opened. -/
  screens : List String

/-- Nothing stored and nobody signed in. -/
def emptyWorld : World where
  store := fun _ => ∅
  accounts := []
  signedIn := none
  currentUser := .base BaseUser.init
  currentClassroom := Classroom.new ""
  alerts := []
  screens := []

abbrev App := EStateM Halt World

namespace App

/-- `x!`. -/
def unwrap {α : Type} : Option α → App α
  | some a => pure a
  | none => throw .trap

def perform (w : Option Write) : App Unit := do
  let w ← unwrap w
  modify fun σ => { σ with store := σ.store.apply w }

/-- Writes issued one after another, up to the first that traps. -/
def performAll (ws : List (Option Write)) : App Unit := ws.forM perform

def ask {α : Type} (q : Store → Answer α) : App α := do
  match q (← get).store with
  | .ok a => pure a
  | .error h => throw h

def detach (x : App Unit) : App Unit := fun σ =>
  match x σ with
  | .error .noAnswer σ' => .ok () σ'
  | r => r

def doAlert (title body : String) : App Unit :=
  modify fun σ => { σ with alerts := σ.alerts ++ [(title, body)] }

def performSegue (screen : String) : App Unit :=
  modify fun σ => { σ with screens := σ.screens ++ [screen] }

def setCurrentUser (u : IUser) : App Unit :=
  modify fun σ => { σ with currentUser := u }

def setCurrentClassroom (c : Classroom) : App Unit :=
  modify fun σ => { σ with currentClassroom := c }

/-- `AuthCommands.createUserWithEmail`: fails for a registered address, and
whenever Auth refuses for another reason; success signs the new user in. -/
def createUserWithEmail (email : String) (accepted : Bool) : App Bool := do
  let σ ← get
  if accepted ∧ email ∉ σ.accounts then
    set { σ with accounts := σ.accounts ++ [email], signedIn := some email }
    pure true
  else pure false

/-! ## How the parts run -/

section Run

variable {σ : World}

@[simp] theorem run_unwrap_some {α : Type} (a : α) : (unwrap (some a)).run σ = .ok a σ := rfl

@[simp] theorem run_unwrap_none {α : Type} :
    (unwrap (none : Option α)).run σ = .error .trap σ := rfl

/-- Two unwraps one after another are one. -/
theorem unwrap_bind {α β : Type} (x : Option α) (f : α → Option β) :
    unwrap (x.bind f) = unwrap x >>= fun a => unwrap (f a) := by
  cases x <;> rfl

@[simp] theorem run_perform_some (w : Write) :
    (perform (some w)).run σ = .ok () { σ with store := σ.store.apply w } := rfl

@[simp] theorem run_perform_none : (perform none).run σ = .error .trap σ := rfl

@[simp] theorem run_doAlert (t b : String) :
    (doAlert t b).run σ = .ok () { σ with alerts := σ.alerts ++ [(t, b)] } := rfl

@[simp] theorem run_performSegue (s : String) :
    (performSegue s).run σ = .ok () { σ with screens := σ.screens ++ [s] } := rfl

@[simp] theorem run_setCurrentUser (u : IUser) :
    (setCurrentUser u).run σ = .ok () { σ with currentUser := u } := rfl

@[simp] theorem run_setCurrentClassroom (c : Classroom) :
    (setCurrentClassroom c).run σ = .ok () { σ with currentClassroom := c } := rfl

theorem run_detach_ok {x : App Unit} {σ' : World} (h : x.run σ = .ok () σ') :
    (detach x).run σ = .ok () σ' := by
  have h : x σ = .ok () σ' := h
  simp [EStateM.run, detach, h]

theorem run_detach_noAnswer {x : App Unit} {σ' : World} (h : x.run σ = .error .noAnswer σ') :
    (detach x).run σ = .ok () σ' := by
  have h : x σ = .error .noAnswer σ' := h
  simp [EStateM.run, detach, h]

theorem run_detach_trap {x : App Unit} {σ' : World} (h : x.run σ = .error .trap σ') :
    (detach x).run σ = .error .trap σ' := by
  have h : x σ = .error .trap σ' := h
  simp [EStateM.run, detach, h]

theorem run_ask {α : Type} (q : Store → Answer α) :
    (ask q).run σ = match q σ.store with
      | .ok a => .ok a σ
      | .error h => .error h σ := by
  unfold ask
  simp only [EStateM.run_bind, EStateM.run_get]
  cases q σ.store <;> rfl

theorem run_ask_ok {α : Type} {q : Store → Answer α} {a : α} (h : q σ.store = .ok a) :
    (ask q).run σ = .ok a σ := by
  rw [run_ask, h]

theorem run_ask_error {α : Type} {q : Store → Answer α} {e : Halt} (h : q σ.store = .error e) :
    (ask q).run σ = .error e σ := by
  rw [run_ask, h]

/-- A read that always answers. -/
@[simp] theorem run_ask_pure {α : Type} (f : Store → α) :
    (ask fun s => .ok (f s)).run σ = .ok (f σ.store) σ := rfl

/-! ### What a run that ends has done -/

theorem run_bind_eq_ok {α β : Type} {x : App α} {f : α → App β} {b : β} {σ' : World} :
    (x >>= f).run σ = .ok b σ' ↔ ∃ a σ₁, x.run σ = .ok a σ₁ ∧ (f a).run σ₁ = .ok b σ' := by
  rw [EStateM.run_bind]
  cases x.run σ <;> simp

theorem run_bind_eq_error {α β : Type} {x : App α} {f : α → App β} {e : Halt} {σ' : World} :
    (x >>= f).run σ = .error e σ' ↔
      x.run σ = .error e σ' ∨ ∃ a σ₁, x.run σ = .ok a σ₁ ∧ (f a).run σ₁ = .error e σ' := by
  rw [EStateM.run_bind]
  cases x.run σ <;> simp

theorem run_pure_eq_ok {α : Type} {a b : α} {σ' : World} :
    (pure a : App α).run σ = .ok b σ' ↔ a = b ∧ σ = σ' := by
  change EStateM.Result.ok a σ = .ok b σ' ↔ _
  simp

theorem run_get_bind {α : Type} (f : World → App α) : (get >>= f).run σ = (f σ).run σ := rfl

theorem run_ask_eq_ok {α : Type} {q : Store → Answer α} {a : α} {σ' : World} :
    (ask q).run σ = .ok a σ' ↔ q σ.store = .ok a ∧ σ = σ' := by
  rw [run_ask]
  cases q σ.store <;> simp

theorem run_unwrap_eq_ok {α : Type} {x : Option α} {a : α} {σ' : World} :
    (unwrap x).run σ = .ok a σ' ↔ x = some a ∧ σ = σ' := by
  cases x <;> simp

theorem run_unwrap_eq_error {α : Type} {x : Option α} {e : Halt} {σ' : World} :
    (unwrap x).run σ = .error e σ' ↔ x = none ∧ e = .trap ∧ σ = σ' := by
  cases x <;> simp [eq_comm]

theorem run_perform_eq_ok {w : Option Write} {u : Unit} {σ' : World} :
    (perform w).run σ = .ok u σ' ↔
      ∃ w', w = some w' ∧ { σ with store := σ.store.apply w' } = σ' := by
  cases w <;> simp

theorem run_perform_eq_error {w : Option Write} {e : Halt} {σ' : World} :
    (perform w).run σ = .error e σ' ↔ w = none ∧ e = .trap ∧ σ = σ' := by
  cases w <;> simp [eq_comm]

theorem run_detach_eq_ok {x : App Unit} {σ' : World} :
    (detach x).run σ = .ok () σ' ↔ x.run σ = .ok () σ' ∨ x.run σ = .error .noAnswer σ' := by
  have hx : x.run σ = x σ := rfl
  have hd : (detach x).run σ = detach x σ := rfl
  rw [hx, hd, detach]
  rcases x σ with ⟨⟨⟩, σ₁⟩ | ⟨_ | _, σ₁⟩ <;> simp

theorem run_performAll_none (ws : List (Option Write)) :
    (performAll (none :: ws)).run σ = .error .trap σ := rfl

theorem run_performAll (ws : List Write) :
    (performAll (ws.map some)).run σ = .ok () { σ with store := σ.store.applyAll ws } := by
  induction ws generalizing σ with
  | nil => rfl
  | cons w ws ih => exact ih (σ := { σ with store := σ.store.apply w })

theorem run_createUserWithEmail_accepted {email : String} (h : email ∉ σ.accounts) :
    (createUserWithEmail email true).run σ =
      .ok true { σ with accounts := σ.accounts ++ [email], signedIn := some email } := by
  simp [createUserWithEmail, h]

theorem run_createUserWithEmail_refused {email : String} {accepted : Bool}
    (h : accepted = false ∨ email ∈ σ.accounts) :
    (createUserWithEmail email accepted).run σ = .ok false σ := by
  rcases h with rfl | h <;> simp [createUserWithEmail, *]

end Run

end App

end GradeIo
