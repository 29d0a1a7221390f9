/-!
# Completion handlers

Nothing here names a particular program. A call that takes a completion handler
is what it hands to the handler, one value after another, and whether it traps
in the end; `bind` is the call whose handler makes another call. `Once` says
that the handler is called with one value, and nothing traps.
-/

namespace Completion

inductive Calls (α : Type) where
  | done
  | trap
  | call (a : α) (rest : Calls α)
deriving DecidableEq, Repr

namespace Calls

variable {α β : Type}

def append : Calls α → Calls α → Calls α
  | done, y => y
  | trap, _ => trap
  | call a rest, y => call a (rest.append y)

def bind : Calls α → (α → Calls β) → Calls β
  | done, _ => done
  | trap, _ => trap
  | call a rest, f => (f a).append (rest.bind f)

instance : Monad Calls where
  pure a := call a done
  bind := bind

/-- What the handler is called with. -/
def values : Calls α → List α
  | done => []
  | trap => []
  | call a rest => a :: rest.values

def traps : Calls α → Bool
  | done => false
  | trap => true
  | call _ rest => rest.traps

/-- A value that has to be there. -/
def unwrap : Option α → Calls α
  | some a => pure a
  | none => trap

/-- The handler is called once, with this value, and nothing traps. -/
def Once (x : Calls α) (a : α) : Prop := x.values = [a] ∧ x.traps = false

/-! ## Rules -/

@[simp] theorem append_done (x : Calls α) : x.append done = x := by
  induction x with
  | done => rfl
  | trap => rfl
  | call a rest ih => rw [append, ih]

@[simp] theorem done_bind (f : α → Calls β) : (done >>= f) = done := rfl

@[simp] theorem trap_bind (f : α → Calls β) : (trap >>= f) = trap := rfl

@[simp] theorem pure_bind (a : α) (f : α → Calls β) : ((pure a : Calls α) >>= f) = f a :=
  append_done (f a)

@[simp] theorem unwrap_some (a : α) : unwrap (some a) = pure a := rfl

@[simp] theorem unwrap_none : unwrap (none : Option α) = trap := rfl

theorem once_iff {x : Calls α} {a : α} : x.Once a ↔ x = pure a := by
  constructor
  · rintro ⟨hvalues, htraps⟩
    cases x with
    | done => cases hvalues
    | trap => cases hvalues
    | call b rest =>
        obtain ⟨rfl, hrest⟩ := List.cons.inj hvalues
        cases rest with
        | done => rfl
        | trap => cases htraps
        | call c rest => cases hrest
  · rintro rfl
    exact ⟨rfl, rfl⟩

@[simp] theorem once_pure {a b : α} : (pure a : Calls α).Once b ↔ a = b := by
  rw [once_iff]
  constructor
  · intro h
    exact (Calls.call.inj h).1
  · rintro rfl
    rfl

@[simp] theorem not_once_done {a : α} : ¬ (done : Calls α).Once a := fun h => nomatch h.1

@[simp] theorem not_once_trap {a : α} : ¬ (trap : Calls α).Once a := fun h => nomatch h.1

theorem once_unwrap {o : Option α} {a : α} : (unwrap o).Once a ↔ o = some a := by
  cases o with
  | none => simp
  | some b => simp

theorem unwrap_bind_unwrap (o : Option α) (f : α → Option β) :
    (unwrap o >>= fun a => unwrap (f a)) = unwrap (o.bind f) := by
  cases o with
  | none => rfl
  | some a => exact pure_bind a _

/-- A handler that passes something else on. -/
theorem values_map (x : Calls α) (f : α → β) :
    (x >>= fun a => pure (f a)).values = x.values.map f := by
  induction x with
  | done => rfl
  | trap => rfl
  | call a rest ih => exact congrArg (f a :: ·) ih

theorem traps_map (x : Calls α) (f : α → β) : (x >>= fun a => pure (f a)).traps = x.traps := by
  induction x with
  | done => rfl
  | trap => rfl
  | call a rest ih => exact ih

theorem once_map {x : Calls α} {f : α → β} {b : β} :
    (x >>= fun a => pure (f a)).Once b ↔ ∃ a, x.Once a ∧ f a = b := by
  unfold Once
  rw [values_map, traps_map, List.map_eq_singleton_iff]
  constructor
  · rintro ⟨⟨a, ha, hf⟩, htraps⟩
    exact ⟨a, ⟨ha, htraps⟩, hf⟩
  · rintro ⟨a, ⟨ha, htraps⟩, hf⟩
    exact ⟨⟨a, ha, hf⟩, htraps⟩

end Calls

end Completion
