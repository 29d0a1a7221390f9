import Mathlib.Algebra.BigOperators.Group.Finset.Basic
import Mathlib.Algebra.Order.BigOperators.Group.List
import Mathlib.Algebra.Order.Field.Rat
import Mathlib.Data.Rat.Floor

/-!
# Averages as programs compute them

A loop that adds up values and counts them, where not every round has one; the
quotient at its end, which is not a number if there were none; and the text of
a number with two decimals.

Arithmetic is exact. Not-a-number (`nan`) compares false with everything.
-/

namespace Average

/-! ## The loop -/

section Tally

variable {R α : Type*} [AddMonoid R]

/-- One round over the total and the number of values. -/
def tally (acc : R × Nat) : Option R → R × Nat
  | some x => (acc.1 + x, acc.2 + 1)
  | none => acc

/-- The first of the rounds, and the others. -/
theorem tally_cons (value : α → Option R) (a : α) (l : List α) (acc : R × Nat) :
    ((tally acc (value a)).1 + (l.filterMap value).sum,
        (tally acc (value a)).2 + (l.filterMap value).length) =
      (acc.1 + ((a :: l).filterMap value).sum, acc.2 + ((a :: l).filterMap value).length) := by
  cases hv : value a with
  | none => rw [List.filterMap_cons_none hv, tally]
  | some x =>
      rw [List.filterMap_cons_some hv, List.sum_cons, List.length_cons, tally, add_assoc,
        Nat.add_right_comm, Nat.add_assoc]

/-- A loop of such rounds adds up the values that there are. -/
theorem foldlM_tally {m : Type _ → Type*} [Monad m] [LawfulMonad m] {f : R × Nat → α → m (R × Nat)}
    {value : α → Option R} {l : List α} (h : ∀ acc, ∀ a ∈ l, f acc a = pure (tally acc (value a)))
    (acc : R × Nat) :
    l.foldlM f acc =
      pure (acc.1 + (l.filterMap value).sum, acc.2 + (l.filterMap value).length) := by
  induction l generalizing acc with
  | nil => simp
  | cons a l ih =>
      obtain ⟨ha, hl⟩ := List.forall_mem_cons.mp fun a ha acc => h acc a ha
      rw [List.foldlM_cons, ha, pure_bind, ih fun acc a ha => hl a ha acc, tally_cons]

end Tally

/-! ## Rows

A row of `n` entries is given by a function of the position; assigning to an
entry is updating the function. -/

section Row

variable {R : Type*}

def row (n : Nat) (f : Nat → R) : List R := (List.range n).map f

variable {n i : Nat} {f : Nat → R}

@[simp] theorem length_row (n : Nat) (f : Nat → R) : (row n f).length = n := by simp [row]

@[simp] theorem getElem_row (hi : i < (row n f).length) : (row n f)[i] = f i := by simp [row]

theorem getElem?_row (hi : i < n) : (row n f)[i]? = some (f i) := by simp [row, hi]

theorem row_congr {g : Nat → R} (h : ∀ i < n, f i = g i) : row n f = row n g :=
  List.map_congr_left fun i hi => h i (List.mem_range.mp hi)

theorem replicate_eq_row (n : Nat) (x : R) : List.replicate n x = row n fun _ => x := by
  simp [row]

theorem set_row (n i : Nat) (f : Nat → R) (x : R) :
    (row n f).set i x = row n (Function.update f i x) := by
  refine List.ext_getElem (by simp) fun j hj hj' => ?_
  rw [getElem_row, List.getElem_set]
  by_cases hij : i = j
  · rw [if_pos hij, hij, Function.update_self]
  · rw [if_neg hij, getElem_row, Function.update_of_ne (Ne.symm hij)]

/-- A list is the row of its entries. -/
theorem row_getElem? (l : List R) (x : R) : row l.length (fun i => l[i]?.getD x) = l := by
  refine List.ext_getElem (by simp) fun i hi hi' => ?_
  rw [getElem_row, List.getElem?_eq_getElem hi', Option.getD_some]

theorem sum_row [AddCommMonoid R] (n : Nat) (f : Nat → R) :
    (row n f).sum = ∑ i ∈ Finset.range n, f i := rfl

/-- Adding up rows entry by entry, and the entries of all rows. -/
theorem sum_sum_comm {α : Type*} [AddCommMonoid R] (s : Finset α) {β : Type*} (l : List β)
    (f : β → α → R) :
    ∑ i ∈ s, (l.map fun b => f b i).sum = (l.map fun b => ∑ i ∈ s, f b i).sum := by
  induction l with
  | nil => simp
  | cons b l ih => simp only [List.map_cons, List.sum_cons, Finset.sum_add_distrib, ih]

end Row

/-! ## Numbers -/

inductive Number where
  | number (x : Rat)
  | nan
deriving DecidableEq, Repr

namespace Number

/-- A quotient; zero is only ever divided into zero. -/
def div (x y : Rat) : Number := if y = 0 then nan else number (x / y)

def scale (c : Rat) : Number → Number
  | number x => number (x * c)
  | nan => nan

def nonneg : Number → Bool
  | number x => 0 ≤ x
  | nan => false

def toOption : Number → Option Rat
  | number x => some x
  | nan => none

/-- The mean of a list. -/
def mean (l : List Rat) : Number := div l.sum l.length

@[simp] theorem mean_nil : mean [] = nan := rfl

theorem mean_of_ne_nil {l : List Rat} (h : l ≠ []) : mean l = number (l.sum / l.length) := by
  have hlen : (l.length : Rat) ≠ 0 := by simpa using h
  rw [mean, div, if_neg hlen]

/-- A mean of values that are not negative is one, unless there are none. -/
theorem nonneg_mean_iff {l : List Rat} (h : ∀ x ∈ l, 0 ≤ x) {c : Rat} (hc : 0 ≤ c) :
    ((mean l).scale c).nonneg = true ↔ l ≠ [] := by
  constructor
  · rintro hnonneg rfl
    cases hnonneg
  · intro hne
    rw [mean_of_ne_nil hne]
    exact decide_eq_true (mul_nonneg (div_nonneg (List.sum_nonneg h) (Nat.cast_nonneg _)) hc)

end Number

/-! ## Two decimals -/

/-- To the nearest integer, and to the even one of two. -/
def roundHalfEven (x : Rat) : Int :=
  let f := x.floor
  if x - f < 1 / 2 then f
  else if 1 / 2 < x - f then f + 1
  else if f % 2 = 0 then f
  else f + 1

/-- The format `%.2f`. -/
def Number.format2f : Number → String
  | nan => "nan"
  | number x =>
      let hundredths := (roundHalfEven (|x| * 100)).toNat
      let decimals := hundredths % 100
      (if x < 0 then "-" else "") ++ toString (hundredths / 100) ++ "."
        ++ (if decimals < 10 then "0" else "") ++ toString decimals

example : (Number.number (200 / 3)).format2f = "66.67" := by decide +kernel

end Average
