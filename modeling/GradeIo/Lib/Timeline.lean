import Mathlib.Algebra.BigOperators.Group.Finset.Basic
import Mathlib.Algebra.BigOperators.Group.Finset.Piecewise
import Mathlib.Tactic.Abel

/-!
# Timelines

What something has been, and since when: a list of observations, the latest
first. Between two observations it is what it was at the earlier one, and after
the latest it stays.

`spent a l now` is the total length of the intervals before `now` in which it
was `a`. An observation that changes nothing splits an interval in two and
leaves every total as it is (`spent_cons_same`); together the totals are the
time since the first observation (`sum_spent`).
-/

namespace Timeline

variable {α R : Type*}

/-- The instant of the first observation. -/
def start (l : List (α × R)) : Option R := l.getLast?.map Prod.snd

theorem start_cons {l : List (α × R)} (x : α × R) (h : l ≠ []) : start (x :: l) = start l := by
  obtain ⟨y, l, rfl⟩ := List.exists_cons_of_ne_nil h
  rw [start, start, List.getLast?_cons_cons]

variable [DecidableEq α] [AddCommGroup R]

def spent (a : α) : List (α × R) → R → R
  | [], _ => 0
  | (b, since) :: earlier, now => (if b = a then now - since else 0) + spent a earlier since

variable {l : List (α × R)} {now : R}

@[simp] theorem spent_singleton (a b : α) (since now : R) :
    spent a [(b, since)] now = if b = a then now - since else 0 := add_zero _

/-- At the moment of an observation nothing of it has passed yet. -/
theorem spent_cons_self (a b : α) (l : List (α × R)) (now : R) :
    spent a ((b, now) :: l) now = spent a l now := by
  rw [spent, sub_self, ite_self, zero_add]

/-- Time passes for what was observed last. -/
theorem spent_cons_add (a b : α) (l : List (α × R)) (since now later : R) :
    spent a ((b, since) :: l) later =
      spent a ((b, since) :: l) now + if b = a then later - now else 0 := by
  rw [spent, spent]
  split
  · abel
  · rw [add_zero]

theorem spent_cons_same (a b : α) (l : List (α × R)) (since now later : R) :
    spent a ((b, now) :: (b, since) :: l) later = spent a ((b, since) :: l) later := by
  rw [spent_cons_add a b l since now later, spent, add_comm]

theorem sum_spent {s : Finset α} {first : R} (hs : ∀ x ∈ l, x.1 ∈ s)
    (hfirst : start l = some first) : ∑ a ∈ s, spent a l now = now - first := by
  induction l generalizing now with
  | nil => cases hfirst
  | cons x l ih =>
      obtain ⟨b, since⟩ := x
      obtain ⟨hb, hl⟩ := List.forall_mem_cons.mp hs
      have hlast : ∑ a ∈ s, (if b = a then now - since else 0) = now - since := by
        rw [Finset.sum_ite_eq, if_pos hb]
      simp only [spent, Finset.sum_add_distrib]
      rw [hlast]
      cases l with
      | nil =>
          obtain rfl : since = first := Option.some.inj hfirst
          simp [spent]
      | cons y l =>
          rw [start_cons _ (List.cons_ne_nil y l)] at hfirst
          rw [ih hl hfirst, sub_add_sub_cancel]

end Timeline
