import Mathlib.Order.Basic
import GradeIo.Lib.DocStore

/-!
# Positions in a sorted list

In a list that is strictly sorted by a key, an element stands at the position
that is the number of the elements with smaller keys. `Store.rank` counts
them for the documents of a collection whose names are kept.
-/

section

variable {α β : Type*} [Preorder α] [DecidableLT α] {f : β → α}

/-- Before an element of a sorted list stand the smaller ones. -/
theorem List.getElem?_eq_some_iff_countP {l : List β} (hl : l.Pairwise fun a b => f a < f b)
    {i : Nat} {x : β} :
    l[i]? = some x ↔ x ∈ l ∧ l.countP (fun y => f y < f x) = i := by
  induction l generalizing i with
  | nil => simp
  | cons a l ih =>
      obtain ⟨hhead, htail⟩ := List.pairwise_cons.mp hl
      -- none is smaller than the head
      have hfirst : l.countP (fun y => f y < f a) = 0 := by
        rw [List.countP_eq_zero]
        exact fun b hb hlt => lt_asymm (hhead b hb) (of_decide_eq_true hlt)
      cases i with
      | zero =>
          rw [List.getElem?_cons_zero, Option.some.injEq]
          constructor
          · rintro rfl
            simp [hfirst]
          · rintro ⟨hmem, hcount⟩
            rcases List.mem_cons.mp hmem with rfl | hmem
            · rfl
            · simp [hhead x hmem] at hcount
      | succ i =>
          rw [List.getElem?_cons_succ, ih htail]
          constructor
          · rintro ⟨hmem, hcount⟩
            simp [hmem, hhead x hmem, hcount]
          · rintro ⟨hmem, hcount⟩
            rcases List.mem_cons.mp hmem with rfl | hmem
            · simp [hfirst] at hcount
            · simp only [List.countP_cons, hhead x hmem, decide_true, if_true] at hcount
              exact ⟨hmem, by omega⟩

end

namespace DocDb.Store

/-- The documents of a collection whose names are kept, in the order of the names. -/
def listed (s : Store) (c : String) (keeps : String → Bool) : List (String × Doc) :=
  (s.documents c).filter fun d => keeps d.1

/-- The number of documents whose names are kept and come before a name. -/
def rank (s : Store) (c : String) (keeps : String → Bool) (name : String) : Nat :=
  (s.documents c).countP fun d => d.1 < name && keeps d.1

variable {s : Store} {c name : String} {keeps : String → Bool}

theorem mem_listed {d : Doc} :
    (name, d) ∈ s.listed c keeps ↔ s.get? ⟨c, name⟩ = some d ∧ keeps name = true := by
  simp [listed, mem_documents]

theorem listed_pairwise : (s.listed c keeps).Pairwise fun a b => a.1 < b.1 :=
  (s.filter_documents_pairwise c _).imp fun h => compare_lt_iff_lt.mp h

theorem countP_listed : (s.listed c keeps).countP (fun d => d.1 < name) = s.rank c keeps name := by
  rw [listed, rank, List.countP_filter]

/-- Where a document stands among those listed. -/
theorem getElem?_listed {d : Doc} {i : Nat} :
    (s.listed c keeps)[i]? = some (name, d) ↔
      s.get? ⟨c, name⟩ = some d ∧ keeps name = true ∧ s.rank c keeps name = i := by
  rw [List.getElem?_eq_some_iff_countP (f := Prod.fst) listed_pairwise, mem_listed, countP_listed,
    and_assoc]

end DocDb.Store
