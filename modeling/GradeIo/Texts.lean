import Mathlib.Logic.Basic

/-!
# Swift's texts

A Swift `Character` is a grapheme cluster, and `==` compares texts up to
canonical equivalence, while Firestore compares their bytes. What the app does
with the characters of a text is a parameter here, `TextOps`, with the laws of
Swift that the proofs need; `=` on `String` is the comparison of Firestore. It
also stands for `==` where the app compares texts of its own and Firestore does
not: the ids in a list of results, the answers of a quiz.
-/

namespace GradeIo

class TextOps where
  /-- `String.prefix`. -/
  takePrefix : Nat → String → String
  lowercased : String → String
  /-- `String.count`. -/
  count : String → Nat
  /-- `String.first`, a character in its normal form. -/
  first : String → Option String
  /-- The normal form of a text. -/
  canonical : String → String
  first_eq_none : ∀ {s : String}, first s = none ↔ s = ""
  /-- Two letters are two characters, whatever comes after them. -/
  first_letter : ∀ {c d : Char} (s : List Char), c.isAlpha → d.isAlpha ∨ d = '_' →
    first (String.ofList (c :: d :: s)) = some c.toString
  lowercased_letter : ∀ {c : Char}, c.isAlpha → lowercased c.toString = c.toLower.toString

namespace TextOps

/-- The operations on texts without combining characters. -/
@[reducible] def ascii : TextOps where
  takePrefix n s := String.ofList (s.toList.take n)
  lowercased s := String.ofList (s.toList.map Char.toLower)
  count s := s.length
  first s := s.toList.head?.map Char.toString
  canonical s := s
  first_eq_none := by simp
  first_letter := by simp
  lowercased_letter := by
    intro c _
    rw [Char.toString, String.toList_singleton]
    rfl

/-- An `e` and a combining acute accent make one character. -/
def compose : List Char → List Char
  | [] => []
  | [c] => [c]
  | c :: d :: s => if c = 'e' ∧ d = '\u0301' then 'é' :: compose s else c :: compose (d :: s)

theorem compose_eq_nil_iff (s : List Char) : compose s = [] ↔ s = [] := by
  fun_cases compose s <;> simp

/-- The operations on texts whose only combining character is an acute accent
on an `e`; what is cut off or lowercased is given in its normal form. -/
@[reducible] def accented : TextOps where
  takePrefix n s := String.ofList ((compose s.toList).take n)
  lowercased s := String.ofList ((compose s.toList).map Char.toLower)
  count s := (compose s.toList).length
  first s := (compose s.toList).head?.map Char.toString
  canonical s := String.ofList (compose s.toList)
  first_eq_none := by simp [compose_eq_nil_iff]
  first_letter := by
    intro c d s _ hd
    have hcombining : d ≠ '\u0301' := by
      rintro rfl
      exact absurd hd (by decide)
    simp [compose, hcombining]
  lowercased_letter := by
    intro c _
    rw [Char.toString, String.toList_singleton]
    rfl

variable [TextOps]

/-- The first character of a name with a prefix. -/
theorem first_prefixed {c : Char} (h : c.isAlpha) (s : String) :
    first (c.toString ++ "_" ++ s) = some c.toString := by
  have hlist : c.toString ++ "_" ++ s = String.ofList (c :: '_' :: s.toList) := by
    apply String.toList_injective
    simp [String.toList_append]
  rw [hlist, first_letter s.toList h (Or.inr rfl)]

/-- `==` on texts. -/
def Same (s t : String) : Prop := canonical s = canonical t

instance (s t : String) : Decidable (Same s t) := inferInstanceAs (Decidable (_ = _))

/-- `Array.contains`. -/
def contains (ids : List String) (id : String) : Bool := ids.any fun i => Same i id

/-- No other text is equal to this one. -/
def Alone (s : String) : Prop := ∀ t, Same t s → t = s

theorem Same.refl (s : String) : Same s s := rfl

theorem Same.symm {s t : String} (h : Same s t) : Same t s := Eq.symm h

theorem Same.trans {s t u : String} (h : Same s t) (h' : Same t u) : Same s u := Eq.trans h h'

@[simp] theorem contains_nil (id : String) : contains [] id = false := rfl

theorem contains_iff {ids : List String} {id : String} :
    contains ids id = true ↔ ∃ i ∈ ids, Same i id := by
  simp [contains]

theorem contains_of_mem {ids : List String} {id : String} (h : id ∈ ids) :
    contains ids id = true :=
  contains_iff.mpr ⟨id, h, Same.refl id⟩

theorem Alone.same_iff {s t : String} (h : Alone s) : Same t s ↔ t = s :=
  ⟨h t, fun heq => heq ▸ Same.refl t⟩

theorem Alone.contains_iff {ids : List String} {id : String} (h : Alone id) :
    contains ids id = true ↔ id ∈ ids := by
  rw [TextOps.contains_iff]
  simp only [h.same_iff, exists_eq_right]

end TextOps

/-- Without combining characters, equal texts are one. -/
theorem TextOps.alone_ascii (s : String) : @TextOps.Alone TextOps.ascii s := fun _ h => h

end GradeIo
