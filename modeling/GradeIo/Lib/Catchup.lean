import Mathlib.Data.List.Basic

/-!
# Readers that need only the last version

Nothing here names a particular program. A reader copies parts of a version
into an object, and may fail. Where a later version overwrites all that an
earlier one has left (`Absorbs`), it does not matter which of the versions
before the last an object has been given, or how often: it ends as if it had
been given the last one alone (`Absorbs.foldlM_eq_last`).
-/

namespace Catchup

variable {Obj Version : Type*} {read : Obj → Version → Option Obj}
  {older : Version → Version → Prop} {Fit : Obj → Prop}

/-- Versions that objects of a kind can read, each overwritten by newer ones. -/
structure Absorbs (read : Obj → Version → Option Obj) (older : Version → Version → Prop)
    (Fit : Obj → Prop) (vs : List Version) : Prop where
  reads : ∀ o, Fit o → ∀ v ∈ vs, ∃ o', read o v = some o' ∧ Fit o'
  absorb : ∀ o o', Fit o → ∀ v ∈ vs, ∀ v' ∈ vs, older v v' → read o v = some o' →
    read o' v' = read o v'

theorem Absorbs.tail {v : Version} {vs : List Version} (h : Absorbs read older Fit (v :: vs)) :
    Absorbs read older Fit vs where
  reads o ho w hw := h.reads o ho w (List.mem_cons_of_mem _ hw)
  absorb o o' ho w hw w' hw' :=
    h.absorb o o' ho w (List.mem_cons_of_mem _ hw) w' (List.mem_cons_of_mem _ hw')

/-- Versions in the order of their age, read one after another. -/
theorem Absorbs.foldlM_eq_last {vs : List Version} (h : Absorbs read older Fit vs)
    (hvs : vs.Pairwise older) {o : Obj} (ho : Fit o) :
    vs.foldlM read o = vs.getLast?.elim (some o) (read o) := by
  induction vs generalizing o with
  | nil => rfl
  | cons v vs ih =>
      obtain ⟨hv, hvs⟩ := List.pairwise_cons.mp hvs
      obtain ⟨o', hread, ho'⟩ := h.reads o ho v List.mem_cons_self
      rw [List.foldlM_cons, hread]
      have hrest : vs.foldlM read o' = vs.getLast?.elim (some o') (read o') := ih h.tail hvs ho'
      cases hlast : vs.getLast? with
      | none =>
          obtain rfl := List.getLast?_eq_none_iff.mp hlast
          exact hread.symm
      | some last =>
          have hmem : last ∈ vs := List.mem_of_getLast? hlast
          have hlast' : (v :: vs).getLast? = some last := by
            rw [List.getLast?_cons, hlast]
            rfl
          rw [hlast] at hrest
          rw [hlast']
          exact hrest.trans (h.absorb o o' ho v List.mem_cons_self last
            (List.mem_cons_of_mem _ hmem) (hv last hmem) hread)

end Catchup
