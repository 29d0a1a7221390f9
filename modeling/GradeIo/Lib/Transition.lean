import Mathlib.Logic.Relation

/-!
# Transition systems and conditional runs

Nothing here names a particular program. A `System` has an executable step
function, guarded by `Option`: the label says what happens, `none` says it
cannot happen in this state. `System.Run ok` is reachability by steps all of
which meet a condition `ok` on the state before the step and the label; a
condition that always holds gives plain reachability.

The rules that carry the run-level arguments of the development:

- `Run.invariant` - what holds initially and is kept by every step that
  meets the condition holds of every state reached;
- `Simulation.run` - a run of a concrete system is matched by a run of an
  abstract one;
- `reachable_of_replay` - a concrete schedule, evaluated, is a run;
- `follows_iff` - a step function that may fail does what a total one says
  along a schedule exactly if each of its steps does.
-/

namespace Transition

variable {σ α τ β : Type*}

/-- A labelled transition system with a guarded step function. -/
structure System (σ α : Type*) where
  Init : σ → Prop
  step : σ → α → Option σ

/-- The states reached by steps that all meet `ok`. -/
inductive System.Run (M : System σ α) (ok : σ → α → Prop) : σ → Prop where
  | init {s : σ} : M.Init s → Run M ok s
  | step {s s' : σ} {a : α} :
      Run M ok s → ok s a → M.step s a = some s' → Run M ok s'

/-- Reachability: no condition on the steps. -/
abbrev System.Reachable (M : System σ α) : σ → Prop :=
  M.Run fun _ _ => True

namespace System.Run

variable {M : System σ α} {ok : σ → α → Prop}

/-- The invariant rule: the induction over a run, made once. -/
theorem invariant {I : σ → Prop} (hinit : ∀ s, M.Init s → I s)
    (hstep : ∀ s a s', I s → ok s a → M.step s a = some s' → I s')
    {s : σ} (h : M.Run ok s) : I s := by
  induction h with
  | init h0 => exact hinit _ h0
  | step _ hok hs ih => exact hstep _ _ _ ih hok hs

/-- A run under a condition is a run under any weaker one. -/
theorem weaken {ok' : σ → α → Prop} (hok : ∀ s a, ok s a → ok' s a)
    {s : σ} (h : M.Run ok s) : M.Run ok' s := by
  induction h with
  | init h0 => exact .init h0
  | step _ hs hst ih => exact .step ih (hok _ _ hs) hst

end System.Run

/-! ## Runs with their labels -/

/-- A run from one state to another, with what has happened. -/
inductive System.Trace (M : System σ α) (ok : σ → α → Prop) (s : σ) : List α → σ → Prop where
  | nil : Trace M ok s [] s
  | snoc {as : List α} {t u : σ} {a : α} :
      Trace M ok s as t → ok t a → M.step t a = some u → Trace M ok s (as ++ [a]) u

namespace System.Trace

variable {M : System σ α} {ok : σ → α → Prop} {s t u : σ} {as bs : List α}

theorem run (h : M.Trace ok s as t) (hs : M.Run ok s) : M.Run ok t := by
  induction h with
  | nil => exact hs
  | snoc _ hok hstep ih => exact .step ih hok hstep

theorem trans (h : M.Trace ok s as t) (h' : M.Trace ok t bs u) : M.Trace ok s (as ++ bs) u := by
  induction h' with
  | nil =>
      rw [List.append_nil]
      exact h
  | snoc _ hok hstep ih =>
      rw [← List.append_assoc]
      exact .snoc ih hok hstep

theorem weaken {ok' : σ → α → Prop} (hok : ∀ s a, ok s a → ok' s a) (h : M.Trace ok s as t) :
    M.Trace ok' s as t := by
  induction h with
  | nil => exact .nil
  | snoc _ hs hst ih => exact .snoc ih (hok _ _ hs) hst

theorem single {a : α} (hok : ok s a) (hstep : M.step s a = some t) : M.Trace ok s [a] t :=
  .snoc .nil hok hstep

end System.Trace

/-! ## Replaying a schedule -/

/-- The state after a schedule, `none` when a step of it is not enabled. -/
def System.replay (M : System σ α) : σ → List α → Option σ
  | s, [] => some s
  | s, a :: as => (M.step s a).bind fun s' => M.replay s' as

theorem System.replay_cons {M : System σ α} {a : α} {as : List α} {s t : σ}
    (h : M.step s a = some t) : M.replay s (a :: as) = M.replay t as := by
  rw [System.replay, h, Option.bind_some]

/-- Two schedules one after the other. -/
theorem System.replay_append {M : System σ α} {as bs : List α} {s t : σ}
    (h : M.replay s as = some t) : M.replay s (as ++ bs) = M.replay t bs := by
  induction as generalizing s with
  | nil =>
      obtain rfl := Option.some.inj h
      rfl
  | cons a as ih =>
      simp only [System.replay, Option.bind_eq_some_iff] at h
      obtain ⟨s₁, hstep, hrest⟩ := h
      simp only [List.cons_append, System.replay, hstep, Option.bind_some]
      exact ih hrest

theorem System.run_of_replay {M : System σ α} :
    ∀ {as : List α} {s s' : σ}, M.Reachable s → M.replay s as = some s' → M.Reachable s'
  | [], _, _, hs, h => by
      obtain rfl := Option.some.inj h
      exact hs
  | a :: as, s, s', hs, h => by
      simp only [System.replay, Option.bind_eq_some_iff] at h
      obtain ⟨s₁, hstep, hrest⟩ := h
      exact run_of_replay (.step hs trivial hstep) hrest

theorem System.reachable_of_replay {M : System σ α} {as : List α} {s s' : σ}
    (h0 : M.Init s) (h : M.replay s as = some s') : M.Reachable s' :=
  run_of_replay (.init h0) h

/-- Where no step is refused, every schedule can be run. -/
theorem System.exists_replay {M : System σ α} {I : σ → Prop}
    (hstep : ∀ s a, I s → ∃ s', M.step s a = some s' ∧ I s') :
    ∀ (as : List α) {s : σ}, I s → ∃ s', M.replay s as = some s' ∧ I s'
  | [], s, hs => ⟨s, rfl, hs⟩
  | a :: as, s, hs => by
      obtain ⟨s₁, hs₁, hI⟩ := hstep s a hs
      obtain ⟨s', hs', hI'⟩ := exists_replay hstep as hI
      exact ⟨s', by rw [replay, hs₁, Option.bind_some, hs'], hI'⟩

/-! ## Following a total function -/

section Follows

variable {f : σ → α → Option σ} {g : σ → α → σ} {s : σ} {a : α} {as : List α}

/-- A partial step function does, at every step of the schedule, what a total
one says. -/
def Follows (f : σ → α → Option σ) (g : σ → α → σ) (s : σ) (as : List α) : Prop :=
  ∀ l, l <+: as → l.foldlM f s = some (l.foldl g s)

theorem follows_nil : Follows f g s [] := by
  intro l hl
  obtain rfl := List.prefix_nil.mp hl
  rfl

theorem follows_cons : Follows f g s (a :: as) ↔ f s a = some (g s a) ∧ Follows f g (g s a) as := by
  constructor
  · intro h
    have hstep : f s a = some (g s a) := by
      simpa using h [a] (List.cons_prefix_cons.mpr ⟨rfl, List.nil_prefix⟩)
    refine ⟨hstep, fun l hl => ?_⟩
    simpa [hstep] using h (a :: l) (List.cons_prefix_cons.mpr ⟨rfl, hl⟩)
  · rintro ⟨hstep, h⟩ l hl
    cases l with
    | nil => rfl
    | cons b l =>
        obtain ⟨rfl, hl'⟩ := List.cons_prefix_cons.mp hl
        simpa [hstep] using h l hl'

/-- The condition for one step, along the schedule. -/
theorem follows_iff {ok : σ → α → Prop} (hok : ∀ s a, f s a = some (g s a) ↔ ok s a) :
    Follows f g s as ↔ ∀ l a, l ++ [a] <+: as → ok (l.foldl g s) a := by
  induction as generalizing s with
  | nil => simp [follows_nil]
  | cons b as ih =>
      rw [follows_cons, hok, ih]
      constructor
      · rintro ⟨hb, h⟩ l a hl
        cases l with
        | nil =>
            obtain ⟨rfl, -⟩ := List.cons_prefix_cons.mp hl
            exact hb
        | cons c l =>
            obtain ⟨rfl, hl'⟩ := List.cons_prefix_cons.mp hl
            exact h l a hl'
      · intro h
        refine ⟨h [] b (List.cons_prefix_cons.mpr ⟨rfl, List.nil_prefix⟩), fun l a hl => ?_⟩
        exact h (b :: l) a (List.cons_prefix_cons.mpr ⟨rfl, hl⟩)

end Follows

/-! ## Simulation -/

/-- `R` relates the states of a concrete system, run under `okC`, to those of
an abstract one, run under `okA`: every concrete step is matched by one
abstract step, or by none. -/
structure Simulation (C : System σ α) (okC : σ → α → Prop)
    (A : System τ β) (okA : τ → β → Prop) (R : σ → τ → Prop) : Prop where
  init : ∀ s, C.Init s → ∃ t, A.Init t ∧ R s t
  step : ∀ s t a s', R s t → okC s a → C.step s a = some s' →
    R s' t ∨ ∃ b t', okA t b ∧ A.step t b = some t' ∧ R s' t'

/-- Every state a simulated system reaches is related to one the abstract
system reaches. -/
theorem Simulation.run {C : System σ α} {okC : σ → α → Prop}
    {A : System τ β} {okA : τ → β → Prop} {R : σ → τ → Prop}
    (h : Simulation C okC A okA R) {s : σ} (hs : C.Run okC s) :
    ∃ t, A.Run okA t ∧ R s t := by
  induction hs with
  | init h0 =>
      obtain ⟨t, ht, hR⟩ := h.init _ h0
      exact ⟨t, .init ht, hR⟩
  | step _ hok hst ih =>
      obtain ⟨t, ht, hR⟩ := ih
      rcases h.step _ _ _ _ hR hok hst with hR' | ⟨b, t', hb, hst', hR'⟩
      · exact ⟨t, ht, hR'⟩
      · exact ⟨t', .step ht hb hst', hR'⟩

end Transition
