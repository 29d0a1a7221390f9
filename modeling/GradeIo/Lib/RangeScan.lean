import Mathlib.Data.List.Basic

/-!
# Range scans of sorted lists

Nothing here names a particular program. What lies together in a sorted list is
found by skipping to a start and reading until the first element that does not
belong: `scan_eq_filter` says when this finds exactly the elements that belong,
`filter_scan` when it does after a further choice.
-/

namespace RangeScan

variable {α : Type*} {R : α → α → Prop} {l : List α}

/-- Skip what is before the start, then read on as long as `p` holds. -/
def scan (before p : α → Bool) (l : List α) : List α := (l.dropWhile before).takeWhile p

/-- Reading until the first failure is enough if failures stay failures. -/
theorem takeWhile_eq_filter {p : α → Bool} (hsorted : l.Pairwise R)
    (hclosed : ∀ a ∈ l, ∀ b ∈ l, R a b → p b = true → p a = true) :
    l.takeWhile p = l.filter p := by
  induction l with
  | nil => rfl
  | cons a l ih =>
      obtain ⟨ha, hl⟩ := List.pairwise_cons.mp hsorted
      cases hp : p a with
      | true =>
          rw [List.takeWhile_cons_of_pos hp, List.filter_cons_of_pos hp, ih hl]
          intro b hb c hc
          exact hclosed b (List.mem_cons_of_mem _ hb) c (List.mem_cons_of_mem _ hc)
      | false =>
          have hnone : l.filter p = [] := by
            rw [List.filter_eq_nil_iff]
            intro b hb hpb
            have hpa := hclosed a List.mem_cons_self b (List.mem_cons_of_mem _ hb) (ha b hb) hpb
            rw [hp] at hpa
            cases hpa
          rw [List.takeWhile_cons_of_neg (by simp [hp]), List.filter_cons_of_neg (by simp [hp]),
            hnone]

/-- Nothing that belongs is skipped. -/
theorem filter_dropWhile {before p : α → Bool} (h : ∀ a ∈ l, before a = true → p a = false) :
    (l.dropWhile before).filter p = l.filter p := by
  induction l with
  | nil => rfl
  | cons a l ih =>
      cases hb : before a with
      | true =>
          have hp : p a = false := h a List.mem_cons_self hb
          rw [List.dropWhile_cons_of_pos hb, List.filter_cons_of_neg (by simp [hp]),
            ih fun b hb => h b (List.mem_cons_of_mem _ hb)]
      | false => rw [List.dropWhile_cons_of_neg (by simp [hb])]

/-- What is left begins behind the start, if the list is sorted. -/
theorem not_before_of_mem_dropWhile {before : α → Bool} (hsorted : l.Pairwise R)
    (hbefore : ∀ a ∈ l, ∀ b ∈ l, R a b → before b = true → before a = true) {a : α}
    (ha : a ∈ l.dropWhile before) : before a = false := by
  induction l with
  | nil => cases ha
  | cons b l ih =>
      obtain ⟨hb, hl⟩ := List.pairwise_cons.mp hsorted
      cases hbb : before b with
      | true =>
          rw [List.dropWhile_cons_of_pos hbb] at ha
          refine ih hl ?_ ha
          intro c hc d hd
          exact hbefore c (List.mem_cons_of_mem _ hc) d (List.mem_cons_of_mem _ hd)
      | false =>
          rw [List.dropWhile_cons_of_neg (by simp [hbb])] at ha
          rcases List.mem_cons.mp ha with rfl | ha
          · exact hbb
          · rw [← Bool.not_eq_true]
            intro hba
            have := hbefore b List.mem_cons_self a (List.mem_cons_of_mem _ ha) (hb a ha) hba
            rw [hbb] at this
            cases this

/-- What is read are the elements behind the start that belong, if between the
start and such an element there are only such elements. -/
theorem scan_eq_filter_dropWhile {before p : α → Bool} (hsorted : l.Pairwise R)
    (hbefore : ∀ a ∈ l, ∀ b ∈ l, R a b → before b = true → before a = true)
    (hconvex : ∀ a ∈ l, ∀ b ∈ l, before a = false → R a b → p b = true → p a = true) :
    scan before p l = (l.dropWhile before).filter p := by
  refine takeWhile_eq_filter (hsorted.sublist (List.dropWhile_sublist _)) ?_
  intro a ha b hb
  have hmem : ∀ c ∈ l.dropWhile before, c ∈ l := fun c hc => (List.dropWhile_sublist _).mem hc
  exact hconvex a (hmem a ha) b (hmem b hb) (not_before_of_mem_dropWhile hsorted hbefore ha)

/-- A choice among what is read finds all the elements it is for, if none of
them is before the start. -/
theorem filter_scan {before p choice : α → Bool} (hsorted : l.Pairwise R)
    (hbefore : ∀ a ∈ l, ∀ b ∈ l, R a b → before b = true → before a = true)
    (hconvex : ∀ a ∈ l, ∀ b ∈ l, before a = false → R a b → p b = true → p a = true)
    (hstart : ∀ a ∈ l, before a = true → (choice a && p a) = false) :
    (scan before p l).filter choice = l.filter fun a => choice a && p a := by
  rw [scan_eq_filter_dropWhile hsorted hbefore hconvex, List.filter_filter,
    filter_dropWhile hstart]

theorem scan_eq_filter {before p : α → Bool} (hsorted : l.Pairwise R)
    (hbefore : ∀ a ∈ l, ∀ b ∈ l, R a b → before b = true → before a = true)
    (hconvex : ∀ a ∈ l, ∀ b ∈ l, before a = false → R a b → p b = true → p a = true)
    (hstart : ∀ a ∈ l, before a = true → p a = false) : scan before p l = l.filter p := by
  rw [scan_eq_filter_dropWhile hsorted hbefore hconvex, filter_dropWhile hstart]

end RangeScan
