import Mathlib.Data.List.Basic
import Mathlib.Data.List.Induction

/-!
# A search that goes on

Nothing here names a particular program. A loop that looks for an element and
does not stop at the first ends with the position of the last one, or with 0 if
there is none.
-/

namespace Search

variable {α : Type*}

/-- The position that the loop ends with, from `found` on. -/
def lastFrom (p : α → Bool) (found : Nat) (l : List (α × Nat)) : Nat :=
  l.foldl (fun found i => if p i.1 then i.2 else found) found

def lastIndex (p : α → Bool) (l : List α) : Nat := lastFrom p 0 l.zipIdx

section

variable {p : α → Bool} {l : List α} {a : α}

theorem lastFrom_cons (p : α → Bool) (found : Nat) (i : α × Nat) (l : List (α × Nat)) :
    lastFrom p found (i :: l) = lastFrom p (if p i.1 then i.2 else found) l := rfl

theorem lastIndex_append_singleton (p : α → Bool) (l : List α) (a : α) :
    lastIndex p (l ++ [a]) = if p a then l.length else lastIndex p l := by
  rw [lastIndex, lastFrom, List.zipIdx_append, List.foldl_append]
  simp [lastIndex, lastFrom]

theorem lastIndex_lt (hne : l ≠ []) : lastIndex p l < l.length := by
  induction l using List.reverseRecOn with
  | nil => exact absurd rfl hne
  | append_singleton l a ih =>
      rw [lastIndex_append_singleton, List.length_append, List.length_singleton]
      split
      · omega
      · cases l with
        | nil =>
            show 0 < 0 + 1
            omega
        | cons b l =>
            have hlt := ih (List.cons_ne_nil b l)
            omega

/-- An element of a longer list is the last one, or stands in the shorter list. -/
theorem append_singleton_eq_split {x : α} {before after : List α}
    (h : l ++ [x] = before ++ a :: after) : (l = before ∧ x = a ∧ after = []) ∨
      ∃ after', after = after' ++ [x] ∧ l = before ++ a :: after' := by
  rcases List.eq_nil_or_concat after with rfl | ⟨after', y, rfl⟩
  · obtain ⟨hl, hx⟩ := List.append_inj' h rfl
    exact Or.inl ⟨hl, List.singleton_inj.mp hx, rfl⟩
  · rw [List.concat_eq_append, ← List.cons_append, ← List.append_assoc] at h
    obtain ⟨hl, hx⟩ := List.append_inj' h rfl
    exact Or.inr ⟨after', by rw [List.concat_eq_append, hx], hl⟩

/-- The loop ends at an element with no match behind it, which matches itself or
is the first. -/
theorem getElem?_lastIndex_iff : l[lastIndex p l]? = some a ↔
    ∃ before after, l = before ++ a :: after ∧ (before = [] ∨ p a = true)
      ∧ ∀ b ∈ after, p b = false := by
  induction l using List.reverseRecOn with
  | nil => simp
  | append_singleton l x ih =>
      rw [lastIndex_append_singleton]
      by_cases hx : p x = true
      · rw [if_pos hx]
        constructor
        · intro h
          obtain rfl : x = a := by simpa using h
          exact ⟨l, [], rfl, Or.inr hx, by simp⟩
        · rintro ⟨before, after, heq, -, hafter⟩
          rcases append_singleton_eq_split heq with ⟨-, rfl, -⟩ | ⟨after', rfl, -⟩
          · simp
          · have hfalse := hafter x (by simp)
            rw [hx] at hfalse
            cases hfalse
      · rw [if_neg hx]
        rcases eq_or_ne l [] with rfl | hne
        · constructor
          · intro h
            obtain rfl : x = a := by simpa [lastIndex, lastFrom] using h
            exact ⟨[], [], rfl, Or.inl rfl, by simp⟩
          · rintro ⟨before, after, heq, -, -⟩
            rcases append_singleton_eq_split heq with ⟨-, rfl, -⟩ | ⟨after', -, hnil⟩
            · rfl
            · simp at hnil
        · rw [List.getElem?_append_left (lastIndex_lt hne), ih]
          constructor
          · rintro ⟨before, after, rfl, hbefore, hafter⟩
            refine ⟨before, after ++ [x], by simp, hbefore, fun b hb => ?_⟩
            rcases List.mem_append.mp hb with hb | hb
            · exact hafter b hb
            · obtain rfl := List.mem_singleton.mp hb
              simpa using hx
          · rintro ⟨before, after, heq, hbefore, hafter⟩
            rcases append_singleton_eq_split heq with ⟨rfl, rfl, -⟩ | ⟨after', rfl, hl⟩
            · rcases hbefore with rfl | ha
              · exact absurd rfl hne
              · exact absurd ha hx
            · exact ⟨before, after', hl, hbefore, fun b hb => hafter b (List.mem_append_left _ hb)⟩

end

end Search
