import GradeIo.User

/-!
# Encoding users

`encode(to:)` of `BaseUser`, which all classes inherit, against the decoders
that each class has of its own. The encoder writes seven of the eight
properties of the base class and none of a subclass; what it writes is read
back from the same keys (`BaseUser.decode_encode`). A user comes through exactly
if everything else is nil (`roundTrips_iff`).
-/

namespace GradeIo

open DocDb

/-! ## The encoder -/

/-- `JSONSerialization.jsonObject` of what an encoder wrote. -/
def jsonObject (d : Dict) : Option Dict := if isValidJSONObject d then some d else none

namespace BaseUser

/-- The user type has a key and is not written. -/
def encode (u : BaseUser) : Dict :=
  [(Strings.id, encodeOptional .string u.id),
   (Strings.firstName, encodeOptional .string u.firstName),
   (Strings.lastName, encodeOptional .string u.lastName),
   (Strings.email, encodeOptional .string u.email),
   (Strings.bio, encodeOptional .string u.bio),
   (Strings.photoPath, encodeOptional .string u.photoPath),
   (Strings.pronouns, encodeOptional .string u.pronouns)]

def getDictionary (u : BaseUser) : Option Dict := jsonObject u.encode

end BaseUser

/-- The subclasses do not override the encoder. -/
def Student.getDictionary (s : Student) : Option Dict := s.toBaseUser.getDictionary

def Teacher.getDictionary (t : Teacher) : Option Dict := t.toBaseUser.getDictionary

def Parent.getDictionary (p : Parent) : Option Dict := p.toBaseUser.getDictionary

/-! ## What the decoders make of it -/

namespace BaseUser

variable (u : BaseUser)

theorem isJSON_encodeOptional (o : Option String) :
    (encodeOptional Value.string o).isJSON = true := by
  cases o <;> rfl

theorem isValid_encode : isValidJSONObject u.encode = true := by
  simp [isValidJSONObject, encode, Value.isJSONFields, isJSON_encodeOptional]

theorem getDictionary_eq : u.getDictionary = some u.encode := by
  rw [getDictionary, jsonObject, if_pos u.isValid_encode]

/-- A key that is written. -/
theorem decode_key (key : String) {o : Option String}
    (h : u.encode.lookup key = some (encodeOptional .string o)) :
    decodeIfPresent asString u.encode key = some o :=
  decodeIfPresent_encodeOptional (fun _ => rfl) rfl h

/-- The user type is lost, everything else comes back. -/
theorem decode_encode : decode u.encode = some { u with userType := none } := by
  have htype : decodeIfPresent asString u.encode "userType" = some none :=
    decodeIfPresent_of_absent rfl
  rw [decode, u.decode_key Strings.id rfl, u.decode_key Strings.firstName rfl,
    u.decode_key Strings.lastName rfl, u.decode_key Strings.email rfl,
    u.decode_key Strings.bio rfl, u.decode_key Strings.photoPath rfl,
    u.decode_key Strings.pronouns rfl, htype]
  rfl

end BaseUser

theorem Student.ofDictionary_encode (s : Student) : Student.ofDictionary s.toBaseUser.encode =
    some { toBaseUser := { s.toBaseUser with userType := none }
           gpa := none, classID := none, parentID := none } := by
  rw [ofDictionary, initDictionary, if_pos s.toBaseUser.isValid_encode, Student.decode,
    s.toBaseUser.decode_encode, decodeIfPresent_of_absent rfl, decodeIfPresent_of_absent rfl,
    decodeIfPresent_of_absent rfl]
  rfl

theorem BaseAdult.decode_encode (u : BaseUser) : BaseAdult.decode u.encode =
    some { toBaseUser := { u with userType := none }, phone := none } := by
  rw [BaseAdult.decode, u.decode_encode, decodeIfPresent_of_absent rfl]
  rfl

theorem Teacher.ofDictionary_encode (t : Teacher) : Teacher.ofDictionary t.toBaseUser.encode =
    some { toBaseUser := { t.toBaseUser with userType := none }
           phone := none, classID := none } := by
  rw [ofDictionary, initDictionary, if_pos t.toBaseUser.isValid_encode, Teacher.decode,
    BaseAdult.decode_encode, decodeIfPresent_of_absent rfl]
  rfl

theorem Parent.ofDictionary_encode (p : Parent) : Parent.ofDictionary p.toBaseUser.encode =
    some { toBaseUser := { p.toBaseUser with userType := none }
           phone := none, students := none } := by
  rw [ofDictionary, initDictionary, if_pos p.toBaseUser.isValid_encode, Parent.decode,
    BaseAdult.decode_encode, decodeIfPresent_of_absent rfl]
  rfl

/-! ## Round trips -/

namespace UserCoding

/-- Encoding succeeds, and decoding gives the object back. -/
def RoundTrips {α : Type} (getDictionary : α → Option Dict) (ofDictionary : Dict → Option α)
    (x : α) : Prop :=
  ∃ d, getDictionary x = some d ∧ ofDictionary d = some x

theorem roundTrips_iff_of_eq {α : Type} {getDictionary : α → Option Dict}
    {ofDictionary : Dict → Option α} {x y : α} {d : Dict} (hget : getDictionary x = some d)
    (hof : ofDictionary d = some y) : RoundTrips getDictionary ofDictionary x ↔ y = x := by
  constructor
  · rintro ⟨d', hget', hof'⟩
    obtain rfl := Option.some.inj (hget.symm.trans hget')
    exact Option.some.inj (hof.symm.trans hof')
  · rintro rfl
    exact ⟨d, hget, hof⟩

theorem student_roundTrips_iff (s : Student) :
    RoundTrips Student.getDictionary Student.ofDictionary s ↔
      s.userType = none ∧ s.gpa = none ∧ s.classID = none ∧ s.parentID = none := by
  have hget : s.getDictionary = some s.toBaseUser.encode := s.toBaseUser.getDictionary_eq
  rw [roundTrips_iff_of_eq hget s.ofDictionary_encode]
  obtain ⟨⟨id, firstName, lastName, email, bio, photoPath, pronouns, userType⟩, gpa, classID,
    parentID⟩ := s
  simp [eq_comm]

theorem teacher_roundTrips_iff (t : Teacher) :
    RoundTrips Teacher.getDictionary Teacher.ofDictionary t ↔
      t.userType = none ∧ t.phone = none ∧ t.classID = none := by
  have hget : t.getDictionary = some t.toBaseUser.encode := t.toBaseUser.getDictionary_eq
  rw [roundTrips_iff_of_eq hget t.ofDictionary_encode]
  obtain ⟨⟨⟨id, firstName, lastName, email, bio, photoPath, pronouns, userType⟩, phone⟩,
    classID⟩ := t
  simp [eq_comm, and_assoc]

theorem parent_roundTrips_iff (p : Parent) :
    RoundTrips Parent.getDictionary Parent.ofDictionary p ↔
      p.userType = none ∧ p.phone = none ∧ p.students = none := by
  have hget : p.getDictionary = some p.toBaseUser.encode := p.toBaseUser.getDictionary_eq
  rw [roundTrips_iff_of_eq hget p.ofDictionary_encode]
  obtain ⟨⟨⟨id, firstName, lastName, email, bio, photoPath, pronouns, userType⟩, phone⟩,
    students⟩ := p
  simp [eq_comm, and_assoc]

/-- What the encoder does not write has to be nil. -/
theorem roundTrips_iff (s : Student) (t : Teacher) (p : Parent) :
    (RoundTrips Student.getDictionary Student.ofDictionary s ↔
      s.userType = none ∧ s.gpa = none ∧ s.classID = none ∧ s.parentID = none)
      ∧ (RoundTrips Teacher.getDictionary Teacher.ofDictionary t ↔
        t.userType = none ∧ t.phone = none ∧ t.classID = none)
      ∧ (RoundTrips Parent.getDictionary Parent.ofDictionary p ↔
        p.userType = none ∧ p.phone = none ∧ p.students = none) :=
  ⟨student_roundTrips_iff s, teacher_roundTrips_iff t, parent_roundTrips_iff p⟩

/-- A new student comes back without type, average and class. -/
theorem not_roundTrips :
    ¬ ((∀ s, RoundTrips Student.getDictionary Student.ofDictionary s)
      ∧ (∀ t, RoundTrips Teacher.getDictionary Teacher.ofDictionary t)
      ∧ ∀ p, RoundTrips Parent.getDictionary Parent.ofDictionary p) := by
  rintro ⟨h, -, -⟩
  obtain ⟨htype, -⟩ := (student_roundTrips_iff _).mp (h (Student.new "s_ann"))
  cases htype

end UserCoding

end GradeIo
