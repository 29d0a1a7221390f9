import Mathlib.Data.Rat.Defs
import Mathlib.Tactic.Common

/-!
# Field values of a document database

`Value` is what a document field can hold: a JSON tree extended with
timestamps, which a JSON bridge refuses (`Value.isJSON`). Numbers are exact.

The second half is the reading side of such a bridge: typed views of a value
(`asString`, `asNumber`, ...), each `none` where a decoder would throw, and
the two ways a keyed decoder asks for a field, `decodeKey` for a required and
`decodeIfPresent` for an optional one.
-/

namespace DocDb

/-- Integers and floating point numbers are one kind of number, so that 1 and 1.0
are equal. Bytes, places and references to documents are left out. -/
inductive Value where
  | null
  | bool (b : Bool)
  | number (q : Rat)
  | string (s : String)
  | timestamp (t : Rat)
  | array (vs : List Value)
  | map (fs : List (String × Value))
deriving Inhabited

/-- A dictionary of field names. -/
abbrev Dict := List (String × Value)

/-! ## Equality -/

mutual

def Value.beq : Value → Value → Bool
  | .null, .null => true
  | .bool a, .bool b => a == b
  | .number a, .number b => a == b
  | .string a, .string b => a == b
  | .timestamp a, .timestamp b => a == b
  | .array as, .array bs => Value.beqList as bs
  | .map as, .map bs => Value.beqFields as bs
  | _, _ => false

def Value.beqList : List Value → List Value → Bool
  | [], [] => true
  | a :: as, b :: bs => a.beq b && Value.beqList as bs
  | _, _ => false

def Value.beqFields : Dict → Dict → Bool
  | [], [] => true
  | (k, a) :: as, (l, b) :: bs => k == l && a.beq b && Value.beqFields as bs
  | _, _ => false

end

mutual

theorem Value.beq_iff : ∀ a b : Value, a.beq b = true ↔ a = b
  | .null, b => by cases b <;> simp [Value.beq]
  | .bool _, b => by cases b <;> simp [Value.beq]
  | .number _, b => by cases b <;> simp [Value.beq]
  | .string _, b => by cases b <;> simp [Value.beq]
  | .timestamp _, b => by cases b <;> simp [Value.beq]
  | .array as, b => by
      cases b with
      | array bs => simp [Value.beq, Value.beqList_iff as bs]
      | _ => simp [Value.beq]
  | .map as, b => by
      cases b with
      | map bs => simp [Value.beq, Value.beqFields_iff as bs]
      | _ => simp [Value.beq]

theorem Value.beqList_iff : ∀ as bs : List Value, Value.beqList as bs = true ↔ as = bs
  | [], bs => by cases bs <;> simp [Value.beqList]
  | a :: as, bs => by
      cases bs with
      | nil => simp [Value.beqList]
      | cons b bs => simp [Value.beqList, Value.beq_iff a b, Value.beqList_iff as bs]

theorem Value.beqFields_iff : ∀ as bs : Dict, Value.beqFields as bs = true ↔ as = bs
  | [], bs => by cases bs <;> simp [Value.beqFields]
  | (k, a) :: as, bs => by
      cases bs with
      | nil => simp [Value.beqFields]
      | cons b bs =>
          obtain ⟨l, b⟩ := b
          simp [Value.beqFields, Value.beq_iff a b, Value.beqFields_iff as bs]

end

instance : DecidableEq Value := fun a b => decidable_of_iff _ (Value.beq_iff a b)

/-! ## What a JSON bridge accepts -/

mutual

/-- No timestamp anywhere in the value. -/
def Value.isJSON : Value → Bool
  | .timestamp _ => false
  | .array vs => Value.isJSONList vs
  | .map fs => Value.isJSONFields fs
  | _ => true

def Value.isJSONList : List Value → Bool
  | [] => true
  | v :: vs => v.isJSON && Value.isJSONList vs

def Value.isJSONFields : Dict → Bool
  | [] => true
  | (_, v) :: fs => v.isJSON && Value.isJSONFields fs

end

/-- `JSONSerialization.isValidJSONObject`. -/
def isValidJSONObject (d : Dict) : Bool := Value.isJSONFields d

theorem isValidJSONObject_iff {d : Dict} :
    isValidJSONObject d = true ↔ ∀ p ∈ d, p.2.isJSON = true := by
  unfold isValidJSONObject
  induction d with
  | nil => simp [Value.isJSONFields]
  | cons p d ih => simp [Value.isJSONFields, ih]

/-- One field the bridge cannot carry spoils the whole dictionary. -/
theorem isValidJSONObject_eq_false {d : Dict} {p : String × Value} (hp : p ∈ d)
    (h : p.2.isJSON = false) : isValidJSONObject d = false := by
  rw [Bool.eq_false_iff]
  intro hd
  rw [isValidJSONObject_iff.mp hd p hp] at h
  cases h

/-! ## Typed views -/

def asBool : Value → Option Bool
  | .bool b => some b
  | _ => none

def asNumber : Value → Option Rat
  | .number q => some q
  | _ => none

def asString : Value → Option String
  | .string s => some s
  | _ => none

def asArray {α : Type*} (as : Value → Option α) : Value → Option (List α)
  | .array vs => vs.mapM as
  | _ => none

def asDict : Value → Option Dict
  | .map fs => some fs
  | _ => none

@[simp] theorem asNumber_string (s : String) : asNumber (.string s) = none := rfl

/-- Decoding undoes encoding, element by element. -/
theorem mapM_map_of_decode {α β : Type*} {decode : β → Option α} {enc : α → β}
    (h : ∀ x, decode (enc x) = some x) (xs : List α) : (xs.map enc).mapM decode = some xs := by
  induction xs with
  | nil => rfl
  | cons x xs ih => simp [h, ih]

/-- A list can be decoded exactly if each of its elements can. -/
theorem exists_mapM_eq_some_iff {α β : Type*} {decode : β → Option α} {l : List β} :
    (∃ xs, l.mapM decode = some xs) ↔ ∀ b ∈ l, ∃ x, decode b = some x := by
  induction l with
  | nil => simp
  | cons b l ih =>
      simp only [List.mapM_cons, Option.bind_eq_bind, Option.bind_eq_some_iff, List.forall_mem_cons,
        ← ih]
      constructor
      · rintro ⟨xs, x, hx, xs', hxs', -⟩
        exact ⟨⟨x, hx⟩, xs', hxs'⟩
      · rintro ⟨⟨x, hx⟩, xs', hxs'⟩
        exact ⟨_, x, hx, xs', hxs', rfl⟩

theorem filterMap_of_mapM {α β : Type*} {f : α → Option β} {l : List α}
    {bs : List β} (h : l.mapM f = some bs) : l.filterMap f = bs := by
  induction l generalizing bs with
  | nil => exact Option.some.inj h
  | cons a l ih =>
      simp only [List.mapM_cons, Option.bind_eq_bind, Option.bind_eq_some_iff] at h
      obtain ⟨b, hb, bs', hbs', h⟩ := h
      obtain rfl := Option.some.inj h
      rw [List.filterMap_cons_some hb, ih hbs']

/-- Encoding element by element and viewing the array back. -/
theorem asArray_map {α : Type*} {as : Value → Option α} {enc : α → Value}
    (h : ∀ x, as (enc x) = some x) (xs : List α) :
    asArray as (.array (xs.map enc)) = some xs :=
  mapM_map_of_decode h xs

theorem asArray_asDict_map {α : Type*} (enc : α → Dict) (xs : List α) :
    asArray asDict (.array (xs.map fun x => .map (enc x))) = some (xs.map enc) := by
  simp only [asArray]
  induction xs with
  | nil => rfl
  | cons x xs ih => simp [asDict, ih]

/-- A list of texts is stored as the array of them. -/
theorem asArray_asString_eq_some {v : Value} {l : List String} :
    asArray asString v = some l ↔ v = .array (l.map .string) := by
  have hstring : ∀ s : String, asString (.string s) = some s := fun _ => rfl
  constructor
  · cases v with
    | array vs =>
        intro h
        simp only [asArray] at h
        congr 1
        induction vs generalizing l with
        | nil =>
            obtain rfl := Option.some.inj h
            rfl
        | cons v vs ih =>
            simp only [List.mapM_cons, Option.bind_eq_bind, Option.bind_eq_some_iff] at h
            obtain ⟨s, hs, l', hl', hl⟩ := h
            obtain rfl := Option.some.inj hl
            cases v with
            | string t =>
                obtain rfl := Option.some.inj hs
                rw [ih hl', List.map_cons]
            | _ => cases hs
    | _ =>
        intro h
        cases h
  · rintro rfl
    exact asArray_map hstring l

/-- A required field: missing or of another type, the decoder throws. -/
def decodeKey {α : Type*} (as : Value → Option α) (d : Dict) (key : String) : Option α :=
  (d.lookup key).bind as

/-- An optional field: missing or null gives nil, another type throws. -/
def decodeIfPresent {α : Type*} (as : Value → Option α) (d : Dict) (key : String) :
    Option (Option α) :=
  match d.lookup key with
  | none => some none
  | some .null => some none
  | some v => (as v).map some

theorem decodeIfPresent_of_absent {α : Type*} {as : Value → Option α} {d : Dict} {key : String}
    (h : d.lookup key = none) : decodeIfPresent as d key = some none := by
  rw [decodeIfPresent, h]

/-! ## Writing an optional -/

/-- An optional in the place of a required value: nil is written as null. -/
def encodeOptional {α : Type*} (enc : α → Value) : Option α → Value
  | some x => enc x
  | none => .null

/-- What is written under a key is read back from it. -/
theorem decodeIfPresent_encodeOptional {α : Type*} {as : Value → Option α} {enc : α → Value}
    {d : Dict} {key : String} {o : Option α} (has : ∀ x, as (enc x) = some x)
    (hnull : as .null = none) (h : d.lookup key = some (encodeOptional enc o)) :
    decodeIfPresent as d key = some o := by
  cases o with
  | none => rw [decodeIfPresent, h, encodeOptional]
  | some x =>
      have hx : as (enc x) = some x := has x
      rw [decodeIfPresent, h, encodeOptional]
      cases hv : enc x with
      | null =>
          rw [hv, hnull] at hx
          cases hx
      | _ => simp [← hv, hx]

end DocDb
