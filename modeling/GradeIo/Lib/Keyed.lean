import Mathlib.Data.List.Basic
import Mathlib.Data.List.Nodup

/-!
# Lists of keyed records

Facts about lists read as finite tables: adding an element unless it is
already there, lists with at most one record per key (`(l.map key).Nodup`),
and association lists.
-/

namespace Keyed

variable {α β κ : Type*}

/-! ## Adding an element unless it is present -/

section Add

variable [DecidableEq α]

/-- Append `x` unless `l` already contains it. -/
def addIfAbsent (l : List α) (x : α) : List α :=
  if x ∈ l then l else l ++ [x]

theorem addIfAbsent_of_mem {l : List α} {x : α} (h : x ∈ l) : addIfAbsent l x = l :=
  if_pos h

theorem addIfAbsent_of_not_mem {l : List α} {x : α} (h : x ∉ l) :
    addIfAbsent l x = l ++ [x] :=
  if_neg h

@[simp] theorem mem_addIfAbsent {l : List α} {x y : α} :
    y ∈ addIfAbsent l x ↔ y ∈ l ∨ y = x := by
  unfold addIfAbsent
  split
  · rename_i hx
    exact ⟨Or.inl, fun h => h.elim id (fun e => e ▸ hx)⟩
  · simp

/-- An injective encoding commutes with the addition. -/
theorem map_addIfAbsent [DecidableEq β] {f : α → β} (hf : Function.Injective f)
    (l : List α) (x : α) : (addIfAbsent l x).map f = addIfAbsent (l.map f) (f x) := by
  by_cases h : x ∈ l
  · rw [addIfAbsent_of_mem h, addIfAbsent_of_mem (List.mem_map_of_mem h)]
  · rw [addIfAbsent_of_not_mem h,
      addIfAbsent_of_not_mem (mt (List.mem_map_of_injective hf).mp h), List.map_append]
    rfl

/-- Elements that are new, one after another, are all appended. -/
theorem foldl_addIfAbsent_of_nodup {l acc : List α} (h : (acc ++ l).Nodup) :
    l.foldl addIfAbsent acc = acc ++ l := by
  induction l generalizing acc with
  | nil => exact (List.append_nil acc).symm
  | cons x l ih =>
      have hx : x ∉ acc := fun hmem =>
        (List.nodup_append.mp h).2.2 x hmem x List.mem_cons_self rfl
      rw [List.foldl_cons, addIfAbsent_of_not_mem hx, ih (by simpa using h)]
      simp

theorem nodup_foldl_addIfAbsent {l acc : List α} (h : acc.Nodup) :
    (l.foldl addIfAbsent acc).Nodup := by
  induction l generalizing acc with
  | nil => exact h
  | cons x l ih =>
      refine ih ?_
      by_cases hx : x ∈ acc
      · rwa [addIfAbsent_of_mem hx]
      · rw [addIfAbsent_of_not_mem hx, ← List.concat_eq_append]
        exact h.concat hx

/-- A list comes out of the additions as it was exactly if it has no repeats. -/
theorem foldl_addIfAbsent_nil_eq_self_iff {l : List α} :
    l.foldl addIfAbsent [] = l ↔ l.Nodup := by
  constructor
  · intro h
    rw [← h]
    exact nodup_foldl_addIfAbsent List.nodup_nil
  · intro h
    exact foldl_addIfAbsent_of_nodup h

/-- An injective encoding commutes with the additions. -/
theorem map_foldl_addIfAbsent [DecidableEq β] {f : α → β} (hf : Function.Injective f)
    (l acc : List α) :
    (l.foldl addIfAbsent acc).map f = (l.map f).foldl addIfAbsent (acc.map f) := by
  induction l generalizing acc with
  | nil => rfl
  | cons x l ih => rw [List.foldl_cons, ih, map_addIfAbsent hf, List.map_cons, List.foldl_cons]

end Add

/-! ## At most one record per key -/

theorem eq_of_key_eq {key : α → κ} {l : List α} (h : (l.map key).Nodup) {x y : α}
    (hx : x ∈ l) (hy : y ∈ l) (hk : key x = key y) : x = y :=
  List.inj_on_of_nodup_map h hx hy hk

/-- The addition keeps keys unique when the only record that may already
carry the new key is the new record itself. -/
theorem nodup_addIfAbsent [DecidableEq α] {key : α → κ} {l : List α} {x : α}
    (h : (l.map key).Nodup) (hx : ∀ y ∈ l, key y = key x → y = x) :
    ((addIfAbsent l x).map key).Nodup := by
  unfold addIfAbsent
  split
  · exact h
  · rename_i hmem
    rw [List.map_append, List.nodup_append]
    refine ⟨h, List.nodup_singleton _, ?_⟩
    intro k hk k' hk' heq
    obtain ⟨y, hy, rfl⟩ := List.mem_map.mp hk
    obtain rfl := List.mem_singleton.mp hk'
    exact hmem (hx y hy heq ▸ hy)

/-- Under unique keys the records of one key are at most one. -/
theorem filter_key_eq_singleton [DecidableEq κ] {key : α → κ} {l : List α}
    (h : (l.map key).Nodup) {x : α} (hx : x ∈ l) :
    l.filter (fun y => key y = key x) = [x] := by
  induction l with
  | nil => cases hx
  | cons y ys ih =>
      rw [List.map_cons, List.nodup_cons] at h
      rcases List.mem_cons.mp hx with rfl | hx'
      · have hys : ys.filter (fun z => decide (key z = key x)) = [] := by
          rw [List.filter_eq_nil_iff]
          intro z hz hk
          exact h.1 (List.mem_map.mpr ⟨z, hz, of_decide_eq_true hk⟩)
        rw [List.filter_cons_of_pos (by simp), hys]
      · have hne : key y ≠ key x := fun hk =>
          h.1 (hk ▸ List.mem_map_of_mem hx')
        rw [List.filter_cons_of_neg (by simpa using hne), ih h.2 hx']

/-- Looking up every one of a list of keys gives the records back, in the order
of the keys. -/
theorem filterMap_find?_perm [DecidableEq κ] {key : α → κ} {l : List α} {ks : List κ}
    (hl : (l.map key).Nodup) (hks : ks.Nodup) (hall : ∀ x ∈ l, key x ∈ ks) :
    (ks.filterMap fun k => l.find? fun x => key x = k).Perm l := by
  have hnodup : (ks.filterMap fun k => l.find? fun x => key x = k).Nodup := by
    refine hks.filterMap fun k k' x hk hk' => ?_
    have hx : key x = k := by simpa using List.find?_some hk
    have hx' : key x = k' := by simpa using List.find?_some hk'
    exact hx.symm.trans hx'
  rw [List.perm_ext_iff_of_nodup hnodup hl.of_map]
  intro x
  rw [List.mem_filterMap]
  constructor
  · rintro ⟨k, -, hk⟩
    exact List.mem_of_find?_eq_some hk
  · intro hx
    refine ⟨key x, hall x hx, ?_⟩
    cases hfind : l.find? fun y => key y = key x with
    | none => simpa using List.find?_eq_none.mp hfind x hx
    | some y =>
        have hy : key y = key x := by simpa using List.find?_some hfind
        rw [eq_of_key_eq hl (List.mem_of_find?_eq_some hfind) hx hy]

/-! ## Association lists -/

/-- Lookup in an association list with distinct keys is membership. -/
theorem lookup_eq_some_iff_mem [BEq κ] [LawfulBEq κ] {l : List (κ × β)}
    (h : (l.map Prod.fst).Nodup) {k : κ} {v : β} :
    l.lookup k = some v ↔ (k, v) ∈ l := by
  induction l with
  | nil => simp
  | cons p l ih =>
      obtain ⟨k', v'⟩ := p
      rw [List.map_cons, List.nodup_cons] at h
      rw [List.lookup_cons]
      by_cases hk : k = k'
      · subst hk
        have hnot : (k, v) ∉ l := fun hmem => h.1 (List.mem_map.mpr ⟨_, hmem, rfl⟩)
        simp [hnot, eq_comm]
      · have hb : (k == k') = false := by simpa using hk
        simp [hb, ih h.2, hk]

end Keyed
