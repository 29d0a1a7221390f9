import Mathlib.Data.List.Infix

/-!
# Splitting at a separator

Nothing here names a particular program. `components sep l` are the parts of
`l` between the matches of a separator, which are taken from the left and do not
overlap; a list without a match is its only component.

A separator is `Unbordered` if no part of it both begins and ends it. Then a
match cannot begin inside a component that is free of the separator and end
behind it (`not_prefix_of_unbordered`), and splitting undoes joining
(`components_intercalate`).
-/

namespace Split

variable {α : Type*} [DecidableEq α]

/-- The components from here on, once the first `skip` elements are passed: they
belong to a match. -/
def componentsFrom (sep : List α) : Nat → List α → List (List α)
  | _, [] => [[]]
  | skip + 1, _ :: l => componentsFrom sep skip l
  | 0, a :: l =>
      if sep <+: a :: l then [] :: componentsFrom sep (sep.length - 1) l
      else (componentsFrom sep 0 l).modifyHead (a :: ·)

/-- An empty separator separates nothing. -/
def components (sep l : List α) : List (List α) :=
  if sep = [] then [l] else componentsFrom sep 0 l

/-- Only nothing and the whole both begin and end the separator. -/
def Unbordered (sep : List α) : Prop := ∀ t, t <+: sep → t <:+ sep → t = [] ∨ t = sep

instance (sep : List α) : Decidable (Unbordered sep) :=
  decidable_of_iff (∀ t ∈ sep.inits, t <:+ sep → t = [] ∨ t = sep) (by simp [Unbordered])

section

variable {sep l rest : List α}

theorem componentsFrom_skip (pre : List α) :
    componentsFrom sep pre.length (pre ++ rest) = componentsFrom sep 0 rest := by
  induction pre with
  | nil => rfl
  | cons a pre ih => exact ih

theorem components_eq_singleton (h : ¬ sep <:+: l) : components sep l = [l] := by
  have hfrom : componentsFrom sep 0 l = [l] := by
    induction l with
    | nil => rfl
    | cons a l ih =>
        have hprefix : ¬ sep <+: a :: l := fun hp => h hp.isInfix
        rw [componentsFrom, if_neg hprefix, ih fun hi => h (List.infix_cons hi)]
        rfl
  rw [components, hfrom, ite_self]

omit [DecidableEq α] in
/-- A match that begins in `l` ends in `l`. -/
theorem not_prefix_of_unbordered (hsep : Unbordered sep) (hl : l ≠ []) (h : ¬ sep <:+: l)
    (rest : List α) : ¬ sep <+: l ++ (sep ++ rest) := by
  intro hp
  rcases List.prefix_or_prefix_of_prefix hp (List.prefix_append l (sep ++ rest)) with
    hinside | ⟨t, ht⟩
  · exact h hinside.isInfix
  · have hlength : l.length + t.length = sep.length := by
      rw [← ht, List.length_append]
    -- what of the separator is behind `l` begins the next one
    have htail : t <+: sep ++ rest := by
      rwa [← List.prefix_append_right_inj l, ht]
    have hbegins : t <+: sep :=
      List.prefix_of_prefix_length_le htail (List.prefix_append sep rest) (by omega)
    rcases hsep t hbegins ⟨l, ht⟩ with rfl | rfl
    · rw [List.append_nil] at ht
      exact h (ht ▸ List.infix_refl _)
    · exact hl (List.length_eq_zero_iff.mp (by omega))

theorem components_append (hne : sep ≠ []) (hsep : Unbordered sep) (h : ¬ sep <:+: l) :
    components sep (l ++ (sep ++ rest)) = l :: components sep rest := by
  have hfrom : componentsFrom sep 0 (l ++ (sep ++ rest)) = l :: componentsFrom sep 0 rest := by
    induction l with
    | nil =>
        cases sep with
        | nil => exact absurd rfl hne
        | cons s sep =>
            have hprefix : s :: sep <+: s :: (sep ++ rest) := List.prefix_append (s :: sep) rest
            rw [List.nil_append, List.cons_append, componentsFrom, if_pos hprefix]
            exact congrArg ([] :: ·) (componentsFrom_skip sep)
    | cons a l ih =>
        have hprefix := not_prefix_of_unbordered hsep (List.cons_ne_nil a l) h rest
        rw [List.cons_append] at hprefix ⊢
        rw [componentsFrom, if_neg hprefix, ih fun hi => h (List.infix_cons hi)]
        rfl
  rw [components, components, if_neg hne, if_neg hne, hfrom]

/-- Splitting undoes joining. -/
theorem components_intercalate (hne : sep ≠ []) (hsep : Unbordered sep) {ls : List (List α)}
    (hls : ls ≠ []) (h : ∀ l ∈ ls, ¬ sep <:+: l) : components sep (sep.intercalate ls) = ls := by
  induction ls with
  | nil => exact absurd rfl hls
  | cons l ls ih =>
      have hl := h l List.mem_cons_self
      cases ls with
      | nil =>
          rw [List.intercalate_singleton]
          exact components_eq_singleton hl
      | cons l' ls =>
          have hrest := ih (List.cons_ne_nil l' ls) fun x hx => h x (List.mem_cons_of_mem _ hx)
          rw [List.intercalate_cons_cons, List.append_assoc, components_append hne hsep hl, hrest]

/-! ## Where the separator cannot occur -/

omit [DecidableEq α] in
/-- An element that is not in the separator keeps its matches apart. -/
theorem not_infix_append_cons {c : α} {r : List α} (hc : c ∉ sep) (hne : sep ≠ [])
    (hl : ¬ sep <:+: l) (hr : ¬ sep <:+: r) : ¬ sep <:+: l ++ c :: r := by
  induction l with
  | nil =>
      intro h
      rcases List.infix_cons_iff.mp h with ⟨t, ht⟩ | hinfix
      · cases sep with
        | nil => exact hne rfl
        | cons s sep => exact hc ((List.cons.inj ht).1 ▸ List.mem_cons_self)
      · exact hr hinfix
  | cons a l ih =>
      intro h
      rcases List.infix_cons_iff.mp h with hprefix | hinfix
      · rcases List.prefix_or_prefix_of_prefix hprefix (List.prefix_append (a :: l) (c :: r)) with
          hinside | ⟨t, ht⟩
        · exact hl hinside.isInfix
        · have htail : t <+: c :: r := by
            rwa [← List.prefix_append_right_inj (a :: l), ht]
          cases t with
          | nil =>
              rw [List.append_nil] at ht
              exact hl (ht ▸ List.infix_refl _)
          | cons b t =>
              obtain ⟨rfl, -⟩ := List.cons_prefix_cons.mp htail
              exact hc (ht ▸ by simp)
      · exact ih (fun hi => hl (List.infix_cons hi)) hinfix

omit [DecidableEq α] in
theorem not_infix_intercalate {c : α} (hc : c ∉ sep) (hne : sep ≠ []) {ls : List (List α)}
    (h : ∀ l ∈ ls, ¬ sep <:+: l) : ¬ sep <:+: [c].intercalate ls := by
  induction ls with
  | nil => simpa using hne
  | cons l ls ih =>
      have hl := h l List.mem_cons_self
      cases ls with
      | nil => rwa [List.intercalate_singleton]
      | cons l' ls =>
          rw [List.intercalate_cons_cons, List.append_assoc, List.singleton_append]
          exact not_infix_append_cons hc hne hl (ih fun x hx => h x (List.mem_cons_of_mem _ hx))

/-! ## How many components there are -/

theorem componentsFrom_ne_nil (skip : Nat) (l : List α) : componentsFrom sep skip l ≠ [] := by
  induction l generalizing skip with
  | nil => cases skip <;> exact List.cons_ne_nil _ _
  | cons a l ih =>
      cases skip with
      | succ skip => exact ih skip
      | zero =>
          rw [componentsFrom]
          split
          · exact List.cons_ne_nil _ _
          · simpa using ih 0

/-- There is more than one component exactly if the separator occurs. -/
theorem exists_components_cons_cons_iff (hne : sep ≠ []) :
    (∃ a b ls, components sep l = a :: b :: ls) ↔ sep <:+: l := by
  constructor
  · rintro ⟨a, b, ls, hl⟩
    by_contra h
    rw [components_eq_singleton h] at hl
    cases hl
  · intro h
    rw [components, if_neg hne]
    induction l with
    | nil => exact absurd (List.infix_nil.mp h) hne
    | cons c l ih =>
        rw [componentsFrom]
        by_cases hp : sep <+: c :: l
        · rw [if_pos hp]
          cases hls : componentsFrom sep (sep.length - 1) l with
          | nil => exact absurd hls (componentsFrom_ne_nil _ l)
          | cons b ls => exact ⟨[], b, ls, rfl⟩
        · rw [if_neg hp]
          obtain ⟨a, b, ls, hls⟩ := ih ((List.infix_cons_iff.mp h).resolve_left hp)
          exact ⟨c :: a, b, ls, by rw [hls]; rfl⟩

end

end Split
