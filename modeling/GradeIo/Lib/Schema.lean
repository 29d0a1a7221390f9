import GradeIo.Lib.DocStore

/-!
# Typed documents

Nothing here names a particular program. A `Schema` says which values a field
of a collection may hold. A store fits it if every field of every document
does, and goes on fitting after writes that do (`Store.Fits.applyAll`).
-/

namespace DocDb

open Keyed

/-- By collection and field. -/
abbrev Schema := String → String → Value → Prop

variable {S : Schema}

def Doc.Fits (S : Schema) (c : String) (d : Doc) : Prop := ∀ k v, d[k]? = some v → S c k v

def Store.Fits (S : Schema) (s : Store) : Prop := ∀ c n d, s.get? ⟨c, n⟩ = some d → d.Fits S c

/-- The value set is allowed, and an array stays allowed with the new element. -/
def Write.Fits (S : Schema) : Write → Prop
  | .setMerge p k v => S p.collection k v
  | .unionMerge p k v => ∀ old, (∀ u ∈ old, S p.collection k u) →
      S p.collection k (.array (addIfAbsent (elements old) v))
  | .unionUpdate p k v => ∀ old, (∀ u ∈ old, S p.collection k u) →
      S p.collection k (.array (addIfAbsent (elements old) v))
  | .delete _ => True

theorem Doc.Fits.empty (S : Schema) (c : String) : Doc.Fits S c ∅ := by
  intro k v hv
  simp at hv

theorem Doc.Fits.insert {c k : String} {v : Value} {d : Doc} (h : d.Fits S c) (hv : S c k v) :
    Doc.Fits S c (d.insert k v) := by
  intro k' v' hv'
  rw [Std.ExtTreeMap.getElem?_insert] at hv'
  split at hv'
  · rename_i hk
    obtain rfl := Std.LawfulEqCmp.eq_of_compare hk
    exact Option.some.inj hv' ▸ hv
  · exact h k' v' hv'

theorem Doc.Fits.union {c k : String} {v : Value} {d : Doc} (h : d.Fits S c)
    (hv : ∀ old, (∀ u ∈ old, S c k u) → S c k (.array (addIfAbsent (elements old) v))) :
    Doc.Fits S c (d.union k v) := by
  intro k' v' hv'
  by_cases hk : k' = k
  · subst hk
    rw [Doc.union_self] at hv'
    exact Option.some.inj hv' ▸ hv _ fun u hu => h k' u hu
  · rw [Doc.union_of_ne d hk] at hv'
    exact h k' v' hv'

theorem Store.Fits.empty (S : Schema) : Store.Fits S fun _ => ∅ := by
  intro c n d hd
  simp [get?] at hd

theorem Store.Fits.apply {s : Store} {w : Write} (h : s.Fits S) (hw : w.Fits S) :
    (s.apply w).Fits S := by
  intro c n d hd
  rw [get?_apply] at hd
  split at hd
  · rename_i hp
    have hold : Doc.Fits S c ((s.get? ⟨c, n⟩).getD ∅) := by
      cases hget : s.get? ⟨c, n⟩ with
      | none => exact Doc.Fits.empty S c
      | some d' => exact h c n d' hget
    cases w with
    | setMerge p k v =>
        obtain rfl : (⟨c, n⟩ : DocPath) = p := hp
        exact Option.some.inj hd ▸ hold.insert hw
    | unionMerge p k v =>
        obtain rfl : (⟨c, n⟩ : DocPath) = p := hp
        exact Option.some.inj hd ▸ hold.union hw
    | unionUpdate p k v =>
        obtain rfl : (⟨c, n⟩ : DocPath) = p := hp
        obtain ⟨d', hget, rfl⟩ := Option.map_eq_some_iff.mp hd
        exact (h c n d' hget).union hw
    | delete p => cases hd
  · exact h c n d hd

theorem Store.Fits.applyAll {ws : List Write} :
    ∀ {s : Store}, s.Fits S → (∀ w ∈ ws, w.Fits S) → (s.applyAll ws).Fits S := by
  induction ws with
  | nil => exact fun h _ => h
  | cons w ws ih =>
      intro s h hws
      exact ih (h.apply (hws w List.mem_cons_self)) fun w' hw' => hws w' (List.mem_cons_of_mem _ hw')

end DocDb
