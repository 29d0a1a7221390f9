import GradeIo.Lib.DocStore

/-!
# What writes can do to a document

Nothing here names a particular program. A `Growth` says how a document may
change, by its path. Where every write does so (`Write.Grows`), a preorder of
documents is followed by whatever is written, in any order (`Growth.Lawful.applyAll`).

Two such orders: `keepsFields` (what a document has it keeps) and `growsAt`
(the elements of one field stay, in order, and new ones come after them).
-/

namespace DocDb

open Keyed

/-- The document before and after. -/
abbrev Growth := DocPath → Option Doc → Option Doc → Prop

/-- Whatever it finds, the write makes the document grow. -/
def Write.Grows (R : Growth) (w : Write) : Prop := ∀ o, R w.path o (w.onDoc o)

namespace Growth

structure Lawful (R : Growth) : Prop where
  refl : ∀ p o, R p o o
  trans : ∀ {p o o' o''}, R p o o' → R p o' o'' → R p o o''

variable {R : Growth}

theorem Lawful.apply (hR : R.Lawful) {s : Store} {w : Write} (hw : w.Grows R) (p : DocPath) :
    R p (s.get? p) ((s.apply w).get? p) := by
  by_cases hp : p = w.path
  · subst hp
    rw [Store.get?_apply_self]
    exact hw _
  · rw [Store.get?_apply_of_ne s hp]
    exact hR.refl _ _

theorem Lawful.applyAll (hR : R.Lawful) (p : DocPath) :
    ∀ {ws : List Write} {s : Store}, (∀ w ∈ ws, w.Grows R) →
      R p (s.get? p) ((s.applyAll ws).get? p)
  | [], _, _ => hR.refl _ _
  | w :: _, _, h =>
      hR.trans (hR.apply (h w List.mem_cons_self) p)
        (hR.applyAll p fun w' hw' => h w' (List.mem_cons_of_mem _ hw'))

/-! ## Fields -/

/-- The fields that a document has; one that does not exist has none. -/
def Has (o : Option Doc) (k : String) : Prop := ∃ d ∈ o, (d[k]?).isSome

/-- Outside `lost`, a document stays, with all the fields that it has. -/
def keepsFields (lost : DocPath → Prop) : Growth := fun p o o' =>
  ¬ lost p → (o.isSome → o'.isSome) ∧ ∀ k, Has o k → Has o' k

theorem keepsFields_lawful (lost : DocPath → Prop) : (keepsFields lost).Lawful where
  refl _ _ _ := ⟨id, fun _ => id⟩
  trans h h' hp := ⟨(h' hp).1 ∘ (h hp).1, fun k => (h' hp).2 k ∘ (h hp).2 k⟩

variable {lost : DocPath → Prop} {d : Doc} {k key : String} {v : Value} {o : Option Doc}

theorem isSome_union (h : (d[k]?).isSome) : ((d.union key v)[k]?).isSome := by
  by_cases hk : k = key
  · subst hk
    rw [Doc.union_self]
    rfl
  · rwa [Doc.union_of_ne d hk]

/-- Merging a field or an element keeps what is there; so does anything that
happens to a document that may be lost. -/
theorem grows_keepsFields {w : Write} (h : ∀ p, w = .delete p → lost p) :
    w.Grows (keepsFields lost) := by
  intro o hp
  cases w with
  | setMerge p key v =>
      refine ⟨fun _ => rfl, ?_⟩
      rintro k ⟨d, rfl, hk⟩
      refine ⟨_, rfl, ?_⟩
      rw [Option.getD_some, Std.ExtTreeMap.getElem?_insert]
      split
      · rfl
      · exact hk
  | unionMerge p key v =>
      refine ⟨fun _ => rfl, ?_⟩
      rintro k ⟨d, rfl, hk⟩
      exact ⟨_, rfl, isSome_union hk⟩
  | unionUpdate p key v =>
      cases o with
      | none => exact ⟨id, fun _ => id⟩
      | some d =>
          refine ⟨fun _ => rfl, fun k ⟨d', hd, hk⟩ => ?_⟩
          obtain rfl := Option.some.inj hd
          exact ⟨_, rfl, isSome_union hk⟩
  | delete p => exact absurd (h p rfl) hp

/-! ## The elements of one field -/

/-- A field of a document that may not exist. -/
def fieldOf (o : Option Doc) (k : String) : Option Value := o.bind fun d => d[k]?

/-- In a document of `at`, the elements of `key` are the old ones followed by
new ones, and repeat none if they did not. -/
def growsAt (here : DocPath → Prop) (key : String) : Growth := fun p o o' =>
  here p → elements (fieldOf o key) <+: elements (fieldOf o' key)
    ∧ ((elements (fieldOf o key)).Nodup → (elements (fieldOf o' key)).Nodup)

theorem growsAt_lawful (here : DocPath → Prop) (key : String) : (growsAt here key).Lawful where
  refl _ _ _ := ⟨List.prefix_refl _, id⟩
  trans h h' hp := ⟨(h hp).1.trans (h' hp).1, (h' hp).2 ∘ (h hp).2⟩

theorem prefix_addIfAbsent (l : List Value) (v : Value) : l <+: addIfAbsent l v := by
  by_cases h : v ∈ l
  · rw [addIfAbsent_of_mem h]
  · rw [addIfAbsent_of_not_mem h]
    exact List.prefix_append _ _

theorem nodup_addIfAbsent {l : List Value} (h : l.Nodup) (v : Value) : (addIfAbsent l v).Nodup :=
  nodup_foldl_addIfAbsent (l := [v]) h

theorem elements_union (d : Doc) (k key : String) (v : Value) :
    elements (d[k]?) <+: elements ((d.union key v)[k]?)
      ∧ ((elements (d[k]?)).Nodup → (elements ((d.union key v)[k]?)).Nodup) := by
  by_cases hk : k = key
  · subst hk
    rw [Doc.union_self]
    exact ⟨prefix_addIfAbsent _ _, fun h => nodup_addIfAbsent h _⟩
  · rw [Doc.union_of_ne d hk]
    exact ⟨List.prefix_refl _, id⟩

/-- Only setting the field itself, or deleting the document, undoes it. -/
theorem grows_growsAt {here : DocPath → Prop} {w : Write}
    (hset : ∀ p k v, w = .setMerge p k v → here p → k ≠ key)
    (hdelete : ∀ p, w = .delete p → ¬ here p) : w.Grows (growsAt here key) := by
  intro o hp
  cases w with
  | setMerge p k v =>
      have hne : k ≠ key := hset p k v rfl hp
      have hsame : ((o.getD ∅).insert k v)[key]? = (o.getD ∅)[key]? := by
        simp [Std.ExtTreeMap.getElem?_insert, hne]
      have hfield : fieldOf ((Write.setMerge p k v).onDoc o) key = fieldOf o key := by
        cases o with
        | none => exact hsame
        | some d => exact hsame
      rw [hfield]
      exact ⟨List.prefix_refl _, id⟩
  | unionMerge p k v =>
      have hunion := elements_union (o.getD ∅) key k v
      cases o with
      | none => exact ⟨List.nil_prefix, fun h => hunion.2 (by simp [elements])⟩
      | some d => exact hunion
  | unionUpdate p k v =>
      cases o with
      | none => exact ⟨List.prefix_refl _, id⟩
      | some d => exact elements_union d key k v
  | delete p => exact absurd hp (hdelete p rfl)

end Growth

end DocDb
