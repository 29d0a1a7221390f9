import Mathlib.Data.Set.Insert
import Mathlib.Logic.Function.Basic

/-!
# Links recorded twice

Nothing here names a particular program. A `Registry` records a link between a
member and a group on both sides: the group lists its members, the member names
its owner. `add` lists the member and overwrites the owner, and never takes a
member off a list.

So the two sides drift apart, in one way only: a group lists whoever it owns or
has owned before (`Recorded`, kept by `Recorded.add`).
-/

namespace Links

@[ext] structure Registry (α β : Type*) where
  members : β → Set α
  owner : α → Option β

variable {α β : Type*}

namespace Registry

section

variable [DecidableEq α]

def setOwner (r : Registry α β) (x : α) (g : β) : Registry α β :=
  { r with owner := Function.update r.owner x (some g) }

theorem setOwner_setOwner (r : Registry α β) (x : α) (g : β) :
    (r.setOwner x g).setOwner x g = r.setOwner x g := by
  simp [setOwner]

end

def enrol [DecidableEq β] (r : Registry α β) (x : α) (g : β) : Registry α β :=
  { r with members := Function.update r.members g (insert x (r.members g)) }

variable [DecidableEq α] [DecidableEq β]

def add (r : Registry α β) (x : α) (g : β) : Registry α β := (r.setOwner x g).enrol x g

theorem setOwner_enrol (r : Registry α β) (x : α) (g : β) :
    (r.enrol x g).setOwner x g = r.add x g := rfl

theorem mem_add {r : Registry α β} {x y : α} {g h : β} :
    y ∈ (r.add x g).members h ↔ y ∈ r.members h ∨ y = x ∧ h = g := by
  by_cases hg : h = g
  · subst hg
    simp [add, enrol, setOwner, or_comm]
  · simp [add, enrol, setOwner, hg]

theorem owner_add_self (r : Registry α β) (x : α) (g : β) : (r.add x g).owner x = some g := by
  simp [add, enrol, setOwner]

theorem owner_add_of_ne {r : Registry α β} {x y : α} (h : y ≠ x) (g : β) :
    (r.add x g).owner y = r.owner y := by
  simp [add, enrol, setOwner, h]

end Registry

/-! ## What a list tells about the past -/

/-- The member had the group for an owner in one of the registries. -/
def EverOwned (rs : List (Registry α β)) (x : α) (g : β) : Prop := ∃ r ∈ rs, r.owner x = some g

/-- The group lists the member if and only if it owns it or did before. -/
def Recorded (past : List (Registry α β)) (r : Registry α β) (x : α) (g : β) : Prop :=
  x ∈ r.members g ↔ EverOwned (past ++ [r]) x g

theorem everOwned_append_singleton {x : α} {g : β} (rs : List (Registry α β)) (r : Registry α β) :
    EverOwned (rs ++ [r]) x g ↔ EverOwned rs x g ∨ r.owner x = some g := by
  simp [EverOwned, or_and_right, exists_or]

variable {past : List (Registry α β)} {r : Registry α β} {x y : α} {g h : β}

theorem recorded_nil : Recorded [] r x g ↔ (x ∈ r.members g ↔ r.owner x = some g) := by
  simp [Recorded, EverOwned]

/-- An owner who is on record again changes nothing. -/
theorem everOwned_same {r' : Registry α β} (h : r'.owner x = r.owner x) :
    EverOwned (past ++ [r] ++ [r']) x g ↔ EverOwned (past ++ [r]) x g := by
  rw [everOwned_append_singleton, h]
  exact ⟨fun hor => hor.elim id fun ho => (everOwned_append_singleton past r).mpr (Or.inr ho),
    Or.inl⟩

theorem Recorded.same (hr : Recorded past r x g) : Recorded (past ++ [r]) r x g :=
  hr.trans (everOwned_same rfl).symm

theorem Recorded.add [DecidableEq α] [DecidableEq β] (hr : Recorded past r y h) (x : α) (g : β) :
    Recorded (past ++ [r]) (r.add x g) y h := by
  have hmem : y ∈ (r.add x g).members h ↔ EverOwned (past ++ [r]) y h ∨ y = x ∧ h = g :=
    Registry.mem_add.trans (or_congr_left hr)
  refine hmem.trans ?_
  by_cases hy : y = x
  · subst hy
    rw [everOwned_append_singleton (past ++ [r]), Registry.owner_add_self]
    simp [eq_comm]
  · -- the owner is the old one
    rw [everOwned_same (Registry.owner_add_of_ne hy g)]
    simp [hy]

end Links
