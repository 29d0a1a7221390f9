import GradeIo.User

/-!
# Looking users up

`UserHelper.swift`. The lookups query the `id` field of a collection, not the
document's name, and force the decoded object. `GetUserByID` picks the
collection by the first character of the id; for any other character it
answers at once, with an empty `BaseUser`.
-/

namespace GradeIo

open DocDb

namespace UserHelper

/-- Decode the first document found; no answer when there is none. -/
def firstOf {α : Type} (ofDictionary : Dict → Option α) : List (String × Doc) → Answer α
  | [] => .error .noAnswer
  | (_, d) :: _ => unwrap (ofDictionary (Doc.data d))

def getStudentByID (s : Store) (id : String) : Answer Student :=
  firstOf Student.ofDictionary (DatabaseHelper.getDocsFromKeyValues s Strings.student Strings.id id)

def getParentByID (s : Store) (id : String) : Answer Parent :=
  firstOf Parent.ofDictionary (DatabaseHelper.getDocsFromKeyValues s Strings.parent Strings.id id)

def getTeacherByID (s : Store) (id : String) : Answer Teacher :=
  firstOf Teacher.ofDictionary (DatabaseHelper.getDocsFromKeyValues s Strings.teacher Strings.id id)

/-- The collections `GetUserByID` queries. -/
inductive Kind where
  | student
  | teacher
  | parent
deriving DecidableEq, Repr

/-- The switch on `id.first`. -/
def kindOf [TextOps] (id : String) : Option Kind :=
  match TextOps.first id with
  | some "p" => some .parent
  | some "s" => some .student
  | some "x" => some .student
  | some "t" => some .teacher
  | _ => none

def getUserByID [TextOps] (s : Store) (id : String) : Answer IUser :=
  match kindOf id with
  | some .parent => (getParentByID s id).map .parent
  | some .student => (getStudentByID s id).map .student
  | some .teacher => (getTeacherByID s id).map .teacher
  | none => .ok (.base BaseUser.init)

/-! ## What a lookup answers -/

/-- The collection of a class. -/
def Kind.collection : Kind → String
  | .student => Strings.student
  | .teacher => Strings.teacher
  | .parent => Strings.parent

/-- The decoder of a class. -/
def Kind.ofDictionary : Kind → Dict → Option IUser
  | .student, d => (Student.ofDictionary d).map .student
  | .teacher, d => (Teacher.ofDictionary d).map .teacher
  | .parent, d => (Parent.ofDictionary d).map .parent

theorem map_firstOf {α β : Type} (f : α → β) (dec : Dict → Option α) (docs : List (String × Doc)) :
    (firstOf dec docs).map f = firstOf (fun d => (dec d).map f) docs := by
  cases docs with
  | nil => rfl
  | cons p rest =>
      simp only [firstOf]
      cases dec (Doc.data p.2) <;> rfl

theorem getUserByID_of_kind [TextOps] {s : Store} {id : String} {k : Kind} (hk : kindOf id = some k) :
    getUserByID s id =
      firstOf k.ofDictionary
        (DatabaseHelper.getDocsFromKeyValues s k.collection Strings.id id) := by
  unfold getUserByID
  rw [hk]
  cases k with
  | student => exact map_firstOf _ _ _
  | teacher => exact map_firstOf _ _ _
  | parent => exact map_firstOf _ _ _

theorem firstOf_eq_ok_iff {α : Type} {dec : Dict → Option α} {s : Store}
    {collection key value : String} {a : α} :
    firstOf dec (DatabaseHelper.getDocsFromKeyValues s collection key value) = .ok a ↔
      ∃ m d, s.Found collection key (.string value) m d ∧ dec (Doc.data d) = some a := by
  simp only [← Store.whereField_eq_cons_iff, DatabaseHelper.getDocsFromKeyValues]
  cases hdocs : s.whereField collection key (.string value) with
  | nil => simp [firstOf]
  | cons p rest =>
      obtain ⟨m, d⟩ := p
      constructor
      · intro h
        refine ⟨m, d, ⟨rest, rfl⟩, ?_⟩
        simp only [firstOf] at h
        cases hdec : dec (Doc.data d) with
        | none =>
            rw [hdec] at h
            cases h
        | some b =>
            rw [hdec] at h
            rw [Except.ok.inj h]
      · rintro ⟨m', d', ⟨rest', heq⟩, hdec⟩
        obtain ⟨hhead, -⟩ := List.cons.inj heq
        obtain ⟨rfl, rfl⟩ := Prod.mk.inj hhead
        simp [firstOf, hdec, unwrap]

end UserHelper

theorem ofDictionary_eq_some {α : Type} {decode : Dict → Option α} {d : Dict} {a : α}
    (h : initDictionary decode d = some a) : decode d = some a := by
  unfold initDictionary at h
  split at h
  · exact h
  · cases h

theorem decodeIfPresent_string {d : Doc} {key s : String} (h : d[key]? = some (.string s)) :
    decodeIfPresent asString (Doc.data d) key = some (some s) := by
  simp [decodeIfPresent, h, asString]

theorem getElem?_of_decodeIfPresent {d : Doc} {key s : String}
    (h : decodeIfPresent asString (Doc.data d) key = some (some s)) :
    d[key]? = some (.string s) := by
  unfold decodeIfPresent at h
  rw [Doc.lookup_data] at h
  split at h
  · cases h
  · cases h
  · rename_i v hv hget
    cases v <;> simp_all [asString]

theorem BaseUser.decode_fields {d : Dict} {u : BaseUser} (h : BaseUser.decode d = some u) :
    decodeIfPresent asString d Strings.id = some u.id
      ∧ decodeIfPresent asString d Strings.firstName = some u.firstName
      ∧ decodeIfPresent asString d Strings.lastName = some u.lastName := by
  simp only [BaseUser.decode, Option.bind_eq_bind, Option.bind_eq_some_iff] at h
  obtain ⟨id, hid, first, hfirst, last, hlast, _, -, _, -, _, -, _, -, _, -, hu⟩ := h
  obtain rfl := Option.some.inj hu
  exact ⟨hid, hfirst, hlast⟩

theorem BaseAdult.decode_base {d : Dict} {u : BaseAdult} (h : BaseAdult.decode d = some u) :
    BaseUser.decode d = some u.toBaseUser := by
  simp only [BaseAdult.decode, Option.bind_eq_bind, Option.bind_eq_some_iff] at h
  obtain ⟨_, -, base, hbase, hu⟩ := h
  obtain rfl := Option.some.inj hu
  exact hbase

namespace UserHelper

/-- Every class decodes the fields of `BaseUser` in the same way. -/
theorem Kind.decode_base {k : Kind} {d : Dict} {u : IUser} (h : k.ofDictionary d = some u) :
    BaseUser.decode d = some u.toBaseUser := by
  cases k with
  | student =>
      obtain ⟨s, hs, rfl⟩ := Option.map_eq_some_iff.mp h
      have hs := ofDictionary_eq_some hs
      simp only [Student.decode, Option.bind_eq_bind, Option.bind_eq_some_iff] at hs
      obtain ⟨_, -, _, -, _, -, base, hbase, hs⟩ := hs
      obtain rfl := Option.some.inj hs
      exact hbase
  | teacher =>
      obtain ⟨t, ht, rfl⟩ := Option.map_eq_some_iff.mp h
      have ht := ofDictionary_eq_some ht
      simp only [Teacher.decode, Option.bind_eq_bind, Option.bind_eq_some_iff] at ht
      obtain ⟨_, -, adult, hadult, ht⟩ := ht
      obtain rfl := Option.some.inj ht
      exact BaseAdult.decode_base hadult
  | parent =>
      obtain ⟨p, hp, rfl⟩ := Option.map_eq_some_iff.mp h
      have hp := ofDictionary_eq_some hp
      simp only [Parent.decode, Option.bind_eq_bind, Option.bind_eq_some_iff] at hp
      obtain ⟨_, -, adult, hadult, hp⟩ := hp
      obtain rfl := Option.some.inj hp
      exact BaseAdult.decode_base hadult

theorem Kind.className_of_ofDictionary {k : Kind} {d : Dict} {u : IUser}
    (h : k.ofDictionary d = some u) : u.className = k.collection := by
  cases k with
  | student =>
      obtain ⟨s, -, rfl⟩ := Option.map_eq_some_iff.mp h
      rfl
  | teacher =>
      obtain ⟨t, -, rfl⟩ := Option.map_eq_some_iff.mp h
      rfl
  | parent =>
      obtain ⟨p, -, rfl⟩ := Option.map_eq_some_iff.mp h
      rfl

theorem Kind.collection_inj {k k' : Kind} : k.collection = k'.collection ↔ k = k' := by
  cases k <;> cases k' <;> decide

/-- A decoded user has the id that the document holds. -/
theorem Kind.id_of_ofDictionary {k : Kind} {d : Doc} {u : IUser} {id : String}
    (h : k.ofDictionary (Doc.data d) = some u) (hid : d[Strings.id]? = some (.string id)) :
    u.id = some id := by
  have hu := (BaseUser.decode_fields (k.decode_base h)).1
  rw [decodeIfPresent_string hid] at hu
  exact (Option.some.inj hu).symm

/-- A decoded user has the names that the document holds. -/
theorem Kind.names_of_ofDictionary {k : Kind} {d : Doc} {u : IUser} {first last : String}
    (h : k.ofDictionary (Doc.data d) = some u)
    (hfirst : d[Strings.firstName]? = some (.string first))
    (hlast : d[Strings.lastName]? = some (.string last)) :
    u.firstName = some first ∧ u.lastName = some last := by
  obtain ⟨-, hf, hl⟩ := BaseUser.decode_fields (k.decode_base h)
  rw [decodeIfPresent_string hfirst] at hf
  rw [decodeIfPresent_string hlast] at hl
  exact ⟨(Option.some.inj hf).symm, (Option.some.inj hl).symm⟩

/-- A user that a lookup finds carries the id that was looked up. -/
theorem id_of_getUserByID [TextOps] {s : Store} {id : String} {u : IUser} (hkind : kindOf id ≠ none)
    (h : getUserByID s id = .ok u) : u.id = some id := by
  obtain ⟨k, hk⟩ := Option.ne_none_iff_exists'.mp hkind
  rw [getUserByID_of_kind hk, firstOf_eq_ok_iff] at h
  obtain ⟨m, d, hfound, hdec⟩ := h
  exact Kind.id_of_ofDictionary hdec hfound.field

/-- `GetType` and `GetUserByID` switch on the same characters. -/
theorem getType_of_kindOf [TextOps] {u : IUser} {id : String} {k : Kind} (hid : u.id = some id)
    (hk : kindOf id = some k) : u.getType = k.collection := by
  unfold IUser.getType
  unfold kindOf at hk
  rw [hid, Option.bind_some]
  split at hk
  · rename_i hc
    rw [hc, ← Option.some.inj hk]
    rfl
  · rename_i hc
    rw [hc, ← Option.some.inj hk]
    rfl
  · rename_i hc
    rw [hc, ← Option.some.inj hk]
    rfl
  · rename_i hc
    rw [hc, ← Option.some.inj hk]
    rfl
  · cases hk

/-- Only a query of the students' collection finds a student. -/
theorem getUserByID_eq_student_iff [TextOps] {s : Store} {id : String} {res : Student} :
    getUserByID s id = .ok (.student res) ↔ kindOf id = some .student ∧ ∃ m d,
      s.Found Strings.student Strings.id (.string id) m d
        ∧ Student.ofDictionary (Doc.data d) = some res := by
  constructor
  · intro h
    cases hk : kindOf id with
    | none =>
        rw [getUserByID, hk] at h
        cases h
    | some k =>
        rw [getUserByID_of_kind hk, firstOf_eq_ok_iff] at h
        obtain ⟨m, d, hfound, hdec⟩ := h
        have hclass : Kind.student.collection = k.collection := Kind.className_of_ofDictionary hdec
        obtain rfl := Kind.collection_inj.mp hclass
        obtain ⟨res', hres, hu⟩ := Option.map_eq_some_iff.mp hdec
        obtain rfl : res' = res := by injection hu
        exact ⟨rfl, m, d, hfound, hres⟩
  · rintro ⟨hk, m, d, hfound, hdec⟩
    rw [getUserByID_of_kind hk, firstOf_eq_ok_iff]
    exact ⟨m, d, hfound, congrArg (Option.map IUser.student) hdec⟩

theorem ne_empty_of_kindOf [TextOps] {id : String} (h : kindOf id ≠ none) : id ≠ "" := by
  rintro rfl
  refine h ?_
  rw [kindOf, TextOps.first_eq_none.mpr rfl]

/-! ### A document with an id and nothing else -/

def idDoc (id : String) : Doc := (∅ : Doc).insert Strings.id (.string id)

theorem getElem?_idDoc (id k : String) :
    (idDoc id)[k]? = if k = Strings.id then some (.string id) else none := by
  rw [idDoc, Std.ExtTreeMap.getElem?_insert]
  by_cases h : k = Strings.id
  · simp [h]
  · simp [h, Ne.symm h]

theorem isValid_idDoc (id : String) : isValidJSONObject (Doc.data (idDoc id)) = true := by
  rw [isValidJSONObject_iff]
  rintro ⟨k, v⟩ hp
  rw [Doc.mem_data, getElem?_idDoc] at hp
  split at hp
  · obtain rfl := Option.some.inj hp
    rfl
  · cases hp

theorem decodeIfPresent_idDoc {α : Type} (as : Value → Option α) (id : String) {key : String}
    (hkey : key ≠ Strings.id) :
    decodeIfPresent as (Doc.data (idDoc id)) key = some none := by
  simp [decodeIfPresent, getElem?_idDoc, hkey]

/-- With one such document in a collection, a query by the id finds it. -/
theorem firstOf_idDoc {α : Type} {ofDictionary : Dict → Option α} {a : α} (collection id : String)
    (hdec : ofDictionary (Doc.data (idDoc id)) = some a) :
    firstOf ofDictionary (DatabaseHelper.getDocsFromKeyValues
      (fun _ => (∅ : Collection).insert "doc" (idDoc id)) collection Strings.id id) = .ok a := by
  refine firstOf_eq_ok_iff.mpr ⟨"doc", idDoc id, ⟨by simp [Store.get?], by simp [getElem?_idDoc],
    fun m d hget _ => Or.inl ?_⟩, hdec⟩
  by_contra hne
  simp [Store.get?, Ne.symm hne] at hget

/-- It decodes as a user of every class. -/
theorem exists_ofDictionary_idDoc (k : Kind) (id : String) :
    ∃ u, k.ofDictionary (Doc.data (idDoc id)) = some u := by
  have hbase : BaseUser.decode (Doc.data (idDoc id)) =
      some ⟨some id, none, none, none, none, none, none, none⟩ := by
    have hid : decodeIfPresent asString (Doc.data (idDoc id)) Strings.id = some (some id) := by
      simp [decodeIfPresent, getElem?_idDoc, asString]
    simp (disch := decide) [BaseUser.decode, hid, decodeIfPresent_idDoc]
  have hadult : BaseAdult.decode (Doc.data (idDoc id)) =
      some { id := some id, firstName := none, lastName := none, email := none, bio := none,
             photoPath := none, pronouns := none, userType := none, phone := none } := by
    simp (disch := decide) [BaseAdult.decode, hbase, decodeIfPresent_idDoc]
  cases k with
  | student =>
      simp (disch := decide) [Kind.ofDictionary, Student.ofDictionary, initDictionary,
        isValid_idDoc, Student.decode, hbase, decodeIfPresent_idDoc]
  | teacher =>
      simp (disch := decide) [Kind.ofDictionary, Teacher.ofDictionary, initDictionary,
        isValid_idDoc, Teacher.decode, hadult, decodeIfPresent_idDoc]
  | parent =>
      simp (disch := decide) [Kind.ofDictionary, Parent.ofDictionary, initDictionary,
        isValid_idDoc, Parent.decode, hadult, decodeIfPresent_idDoc]

/-- Every id that is looked up can be found, in some store. -/
theorem exists_getUserByID [TextOps] {id : String} (hkind : kindOf id ≠ none) :
    ∃ store u, getUserByID store id = .ok u ∧ u.id = some id := by
  obtain ⟨k, hk⟩ := Option.ne_none_iff_exists'.mp hkind
  obtain ⟨u, hdec⟩ := exists_ofDictionary_idDoc k id
  refine ⟨fun _ => (∅ : Collection).insert "doc" (idDoc id), u, ?_,
    Kind.id_of_ofDictionary hdec (by simp [getElem?_idDoc])⟩
  rw [getUserByID_of_kind hk]
  exact firstOf_idDoc _ _ hdec

end UserHelper

end GradeIo
