import Mathlib.Data.String.Basic
import GradeIo.Lib.Value

/-!
# Nested dictionaries, addressed by paths

Nothing here names a particular program. A dictionary whose entries may be
dictionaries is read, set and cleared at a path of keys. Setting a path makes
dictionaries of the entries on the way; clearing one leaves them as they are.

Everything follows from what the three say of each other: at a path and below
it (`get_set_append`, `get_delete_append`), and at a path that has nothing to do
with it (`get_set_of_apart`, `get_delete_of_apart`).
-/

namespace DocDb

/-! ## One dictionary, in the order of its keys -/

namespace Dict

def put (k : String) (v : Value) : Dict → Dict
  | [] => [(k, v)]
  | (l, w) :: d =>
      match compare k l with
      | .lt => (k, v) :: (l, w) :: d
      | .eq => (k, v) :: d
      | .gt => (l, w) :: put k v d

def erase (k : String) (d : Dict) : Dict := d.filter fun f => f.1 ≠ k

theorem lookup_cons_self (k : String) (v : Value) (d : Dict) :
    List.lookup k ((k, v) :: d) = some v := by
  simp

theorem lookup_cons_of_ne {k l : String} (h : l ≠ k) (v : Value) (d : Dict) :
    List.lookup l ((k, v) :: d) = d.lookup l := by
  have hb : (l == k) = false := by simpa using h
  simp [List.lookup_cons, hb]

@[simp] theorem lookup_put_self (k : String) (v : Value) (d : Dict) :
    List.lookup k (put k v d) = some v := by
  induction d with
  | nil => exact lookup_cons_self k v []
  | cons f d ih =>
      obtain ⟨l, w⟩ := f
      unfold put
      cases hc : compare k l with
      | lt => exact lookup_cons_self k v _
      | eq => exact lookup_cons_self k v _
      | gt =>
          have hne : k ≠ l := by
            rintro rfl
            simp at hc
          exact (lookup_cons_of_ne hne w _).trans ih

theorem lookup_put_of_ne {k l : String} (h : l ≠ k) (v : Value) (d : Dict) :
    List.lookup l (put k v d) = d.lookup l := by
  induction d with
  | nil => exact lookup_cons_of_ne h v []
  | cons f d ih =>
      obtain ⟨m, w⟩ := f
      unfold put
      cases hc : compare k m with
      | lt => exact lookup_cons_of_ne h v _
      | eq =>
          obtain rfl := Std.LawfulEqCmp.eq_of_compare hc
          exact (lookup_cons_of_ne h v d).trans (lookup_cons_of_ne h w d).symm
      | gt =>
          show List.lookup l ((m, w) :: put k v d) = List.lookup l ((m, w) :: d)
          rw [List.lookup_cons, List.lookup_cons, ih]

theorem lookup_erase (k l : String) (d : Dict) :
    List.lookup l (erase k d) = if l = k then none else d.lookup l := by
  unfold erase
  induction d with
  | nil => simp
  | cons f d ih =>
      obtain ⟨m, w⟩ := f
      by_cases hm : m = k
      · subst hm
        rw [List.filter_cons_of_neg (by simp), ih]
        by_cases hl : l = m
        · rw [if_pos hl, if_pos hl]
        · rw [if_neg hl, if_neg hl, lookup_cons_of_ne hl]
      · rw [List.filter_cons_of_pos (by simpa using hm), List.lookup_cons, List.lookup_cons, ih]
        by_cases hl : l = m
        · subst hl
          simp [hm]
        · have hb : (l == m) = false := by simpa using hl
          rw [hb]

end Dict

/-! ## Paths -/

abbrev FieldPath := List String

/-- Neither path leads through the other. -/
def Apart (p q : FieldPath) : Prop := ¬ p <+: q ∧ ¬ q <+: p

theorem Apart.symm {p q : FieldPath} (h : Apart p q) : Apart q p := ⟨h.2, h.1⟩

theorem Apart.ne_nil {p q : FieldPath} (h : Apart p q) : p ≠ [] ∧ q ≠ [] :=
  ⟨fun hp => h.1 (hp ▸ List.nil_prefix), fun hq => h.2 (hq ▸ List.nil_prefix)⟩

theorem apart_cons {k : String} {p q : FieldPath} : Apart (k :: p) (k :: q) ↔ Apart p q := by
  simp [Apart, List.cons_prefix_cons]

/-- What is at a path in a value. -/
def Value.get : FieldPath → Value → Option Value
  | [], v => some v
  | k :: p, .map fs => (fs.lookup k).bind (Value.get p)
  | _ :: _, _ => none

/-- The dictionary at a path, `[]` for anything else. -/
def fieldsOf : Option Value → Dict
  | some (.map fs) => fs
  | _ => []

namespace ObjectValue

/-- Does not apply to the empty path. -/
def set : FieldPath → Value → Dict → Dict
  | [], _, d => d
  | [k], v, d => d.put k v
  | k :: p, v, d => d.put k (.map (set p v (fieldsOf (d.lookup k))))

/-- Does not apply to the empty path; a value that is no dictionary has
nothing at the rest of the path, and stays. -/
def delete : FieldPath → Dict → Dict
  | [], d => d
  | [k], d => d.erase k
  | k :: p, d =>
      match d.lookup k with
      | some (.map fs) => d.put k (.map (delete p fs))
      | _ => d

def get (p : FieldPath) (d : Dict) : Option Value := (Value.map d).get p

@[simp] theorem get_cons (k : String) (p : FieldPath) (d : Dict) :
    get (k :: p) d = (d.lookup k).bind (Value.get p) := rfl

theorem get_singleton (k : String) (d : Dict) : get [k] d = d.lookup k := by
  rw [get_cons]
  cases d.lookup k <;> rfl

/-- Below a dictionary's entry, if that is one. -/
theorem get_fieldsOf {p : FieldPath} (hp : p ≠ []) (o : Option Value) :
    get p (fieldsOf o) = o.bind (Value.get p) := by
  obtain ⟨k, p, rfl⟩ := List.exists_cons_of_ne_nil hp
  cases o with
  | none => rfl
  | some v => cases v <;> rfl

theorem get_set_append {p : FieldPath} (hp : p ≠ []) (q : FieldPath) (v : Value) (d : Dict) :
    get (p ++ q) (set p v d) = v.get q := by
  induction p generalizing d with
  | nil => exact absurd rfl hp
  | cons k p ih =>
      cases p with
      | nil =>
          show ((d.put k v).lookup k).bind (Value.get q) = _
          rw [Dict.lookup_put_self, Option.bind_some]
      | cons l p =>
          show ((d.put k _).lookup k).bind (Value.get (l :: p ++ q)) = _
          rw [Dict.lookup_put_self, Option.bind_some]
          exact ih (List.cons_ne_nil l p) _

theorem get_set_self {p : FieldPath} (hp : p ≠ []) (v : Value) (d : Dict) :
    get p (set p v d) = some v := by
  have h := get_set_append hp [] v d
  rwa [List.append_nil] at h

/-- Only the entry of the first key changes. -/
theorem lookup_set_of_ne {k l : String} (h : l ≠ k) (p : FieldPath) (v : Value) (d : Dict) :
    List.lookup l (set (k :: p) v d) = d.lookup l := by
  cases p with
  | nil => exact Dict.lookup_put_of_ne h v d
  | cons m p => exact Dict.lookup_put_of_ne h _ d

theorem get_set_of_apart {p q : FieldPath} (h : Apart p q) (v : Value) (d : Dict) :
    get q (set p v d) = get q d := by
  induction p generalizing q d with
  | nil => exact absurd rfl h.ne_nil.1
  | cons k p ih =>
      obtain ⟨l, q, rfl⟩ := List.exists_cons_of_ne_nil h.ne_nil.2
      by_cases hkl : l = k
      · subst hkl
        have hpq := apart_cons.mp h
        obtain ⟨m, p, rfl⟩ := List.exists_cons_of_ne_nil hpq.ne_nil.1
        show ((d.put l _).lookup l).bind (Value.get q) = _
        rw [Dict.lookup_put_self, Option.bind_some]
        exact (ih hpq _).trans (get_fieldsOf hpq.ne_nil.2 _)
      · rw [get_cons, get_cons, lookup_set_of_ne hkl]

theorem get_delete_append {p : FieldPath} (hp : p ≠ []) (q : FieldPath) (d : Dict) :
    get (p ++ q) (delete p d) = none := by
  induction p generalizing d with
  | nil => exact absurd rfl hp
  | cons k p ih =>
      cases p with
      | nil =>
          show ((d.erase k).lookup k).bind (Value.get q) = none
          rw [Dict.lookup_erase, if_pos rfl, Option.bind_none]
      | cons l p =>
          rw [List.cons_append, get_cons]
          unfold delete
          cases hk : d.lookup k with
          | none => simp [hk]
          | some w =>
              cases w with
              | map fs =>
                  show ((d.put k _).lookup k).bind _ = none
                  rw [Dict.lookup_put_self, Option.bind_some]
                  exact ih (List.cons_ne_nil l p) fs
              | _ =>
                  simp only [hk, Option.bind_some]
                  rfl

theorem lookup_delete_of_ne {k l : String} (h : l ≠ k) (p : FieldPath) (d : Dict) :
    List.lookup l (delete (k :: p) d) = d.lookup l := by
  cases p with
  | nil => exact (Dict.lookup_erase k l d).trans (if_neg h)
  | cons m p =>
      unfold delete
      cases hk : d.lookup k with
      | none => rfl
      | some w =>
          cases w with
          | map fs => exact Dict.lookup_put_of_ne h _ d
          | _ => rfl

theorem get_delete_of_apart {p q : FieldPath} (h : Apart p q) (d : Dict) :
    get q (delete p d) = get q d := by
  induction p generalizing q d with
  | nil => exact absurd rfl h.ne_nil.1
  | cons k p ih =>
      obtain ⟨l, q, rfl⟩ := List.exists_cons_of_ne_nil h.ne_nil.2
      by_cases hkl : l = k
      · subst hkl
        have hpq := apart_cons.mp h
        obtain ⟨m, p, rfl⟩ := List.exists_cons_of_ne_nil hpq.ne_nil.1
        unfold delete
        cases hk : d.lookup l with
        | none => rfl
        | some w =>
            cases w with
            | map fs =>
                show ((d.put l _).lookup l).bind (Value.get q) = (d.lookup l).bind _
                rw [Dict.lookup_put_self, hk, Option.bind_some, Option.bind_some]
                exact ih hpq fs
            | _ => rfl
      · rw [get_cons, get_cons, lookup_delete_of_ne hkl]

end ObjectValue

end DocDb
