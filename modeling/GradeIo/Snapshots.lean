import GradeIo.Assignment
import GradeIo.Classroom

/-!
# Snapshots

`SetPropertiesFromDoc` of the users and of the classroom, and the classroom's
remaining setters. A field that the document has is force-cast into its
property (`castField`); one that it lacks leaves the property as it was. Each
method gives `none` where a cast traps.

What a method reads is said once per class, as an equivalence field by field
(`setPropertiesFromDoc_eq_some`); that reading twice is reading once
(`setPropertiesFromDoc_idem`) follows from it.
-/

namespace GradeIo

open DocDb

/-- A field that is force-cast when it is present. -/
def castField {α : Type} (as : Value → Option α) (doc : Doc) (key : String) (old : Option α) :
    Option (Option α) :=
  match doc[key]? with
  | some v => (as v).map some
  | none => some old

/-- `(temp as? NSNumber)?.floatValue`: a truth value is a number as well. -/
def floatValue : Value → Option Rat
  | .number q => some q
  | .bool b => some (if b then 1 else 0)
  | _ => none

namespace BaseUser

def setPropertiesFromDoc (u : BaseUser) (doc : Doc) : Option BaseUser := do
  let firstName ← castField asString doc Strings.firstName u.firstName
  let lastName ← castField asString doc Strings.lastName u.lastName
  let email ← castField asString doc Strings.email u.email
  let bio ← castField asString doc Strings.bio u.bio
  let photoPath ← castField asString doc Strings.photoPath u.photoPath
  let pronouns ← castField asString doc Strings.pronouns u.pronouns
  some { u with firstName, lastName, email, bio, photoPath, pronouns }

end BaseUser

/-- The average is read without force: text in its place makes it nil. -/
def Student.setPropertiesFromDoc (s : Student) (doc : Doc) : Option Student := do
  let base ← s.toBaseUser.setPropertiesFromDoc doc
  let gpa := match doc[Strings.gpa]? with
    | some temp => floatValue temp
    | none => s.gpa
  let classID ← castField asString doc Strings.classID s.classID
  some { s with toBaseUser := base, gpa, classID }

def Teacher.setPropertiesFromDoc (t : Teacher) (doc : Doc) : Option Teacher := do
  let base ← t.toBaseUser.setPropertiesFromDoc doc
  let classID ← castField asString doc Strings.classID t.classID
  some { t with toBaseUser := base, classID }

def Parent.setPropertiesFromDoc (p : Parent) (doc : Doc) : Option Parent := do
  let base ← p.toBaseUser.setPropertiesFromDoc doc
  let students ← castField (asArray asString) doc Strings.students p.students
  some { p with toBaseUser := base, students }

/-- By the dynamic class. -/
def IUser.setPropertiesFromDoc (u : IUser) (doc : Doc) : Option IUser :=
  match u with
  | .base u => (u.setPropertiesFromDoc doc).map .base
  | .student u => (u.setPropertiesFromDoc doc).map .student
  | .teacher u => (u.setPropertiesFromDoc doc).map .teacher
  | .parent u => (u.setPropertiesFromDoc doc).map .parent

namespace Classroom

/-- The write of `SetID`, which `Classroom(newID:)` ends with. -/
def setID (newID : String) : Option Write :=
  DatabaseHelper.savePropertyToDatabase Strings.class newID Strings.id (.string newID)

def setTeacherID (newTeacherID : String) : Option Write :=
  DatabaseHelper.savePropertyToDatabase Strings.class Strings.teacherID Strings.teacherID
    (.string newTeacherID)

def setAssignments (newAssignments : List String) : Option Write :=
  DatabaseHelper.savePropertyToDatabase Strings.class Strings.assignmentIDs Strings.assignment
    (.array (newAssignments.map .string))

/-- Traps without an id. -/
def setName (c : Classroom) (newName : String) : Option Write :=
  c.id.bind fun id =>
    DatabaseHelper.savePropertyToDatabase Strings.class id Strings.name (.string newName)

def setMeetingInfo (newMeetingInfo : List String) : Option Write :=
  DatabaseHelper.savePropertyToDatabase Strings.class Strings.meetingInfo Strings.teacherID
    (.array (newMeetingInfo.map .string))

/-- The name is read twice. -/
def setPropertiesFromDoc (c : Classroom) (doc : Doc) : Option Classroom := do
  let teacherID ← castField asString doc Strings.teacherID c.teacherID
  let studentIDs ← castField (asArray asString) doc Strings.studentIDs c.studentIDs
  let assignmentIDs ← castField (asArray asString) doc Strings.assignmentIDs c.assignmentIDs
  let name ← castField asString doc Strings.name c.name
  let name ← castField asString doc Strings.name name
  let meetingInfo ← castField asStringDict doc Strings.meetingInfo c.meetingInfo
  some { c with teacherID, studentIDs, assignmentIDs, name, meetingInfo }

end Classroom

/-! ## One field -/

section

variable {α : Type} {as : Value → Option α} {doc : Doc} {key k : String} {old new : Option α}
  {v : Value}

theorem castField_of_some {x : α} (hv : doc[key]? = some v) (hx : as v = some x)
    (old : Option α) : castField as doc key old = some (some x) := by
  simp [castField, hv, hx]

theorem castField_of_none (h : doc[key]? = none) (old : Option α) :
    castField as doc key old = some old := by
  simp [castField, h]

theorem castField_insert_self {x : α} (hx : as v = some x) (old : Option α) :
    castField as (doc.insert key v) key old = some (some x) :=
  castField_of_some (by simp) hx old

/-- Only the one field is read. -/
theorem castField_congr {doc' : Doc} (h : doc'[key]? = doc[key]?) (old : Option α) :
    castField as doc' key old = castField as doc key old := by
  rw [castField, castField, h]

theorem castField_insert_of_ne (h : k ≠ key) (old : Option α) :
    castField as (doc.insert key v) k old = castField as doc k old :=
  castField_congr (by simp [Std.ExtTreeMap.getElem?_insert, Ne.symm h]) old

theorem castField_idem (h : castField as doc key old = some new) :
    castField as doc key new = some new := by
  unfold castField at h ⊢
  cases hv : doc[key]? with
  | none => rfl
  | some v =>
      rw [hv] at h
      exact h

end

/-! ## Fields that can be read -/

/-- What a field holds for a reader of this type. -/
def valueAt {α : Type} (as : Value → Option α) (d : Doc) (k : String) : Option α := d[k]?.bind as

/-- The field is missing or can be read. -/
def Holds {α : Type} (as : Value → Option α) (d : Doc) (k : String) : Prop :=
  ∀ v, d[k]? = some v → v ≠ .null ∧ ∃ x, as v = some x

section

variable {α : Type} {as : Value → Option α} {d : Doc} {k : String}

theorem Holds.decode (h : Holds as d k) :
    decodeIfPresent as (Doc.data d) k = some (valueAt as d k) := by
  unfold decodeIfPresent valueAt
  rw [Doc.lookup_data]
  cases hv : d[k]? with
  | none => rfl
  | some v =>
      obtain ⟨hne, x, hx⟩ := h v hv
      cases v with
      | null => exact absurd rfl hne
      | _ => simp [hx]

theorem Holds.cast (h : Holds as d k) (old : Option α) :
    castField as d k old = some ((valueAt as d k).or old) := by
  unfold castField valueAt
  cases hv : d[k]? with
  | none => rfl
  | some v =>
      obtain ⟨-, x, hx⟩ := h v hv
      simp [hx]

/-- A present field is what is read. -/
theorem Holds.or_eq (h : Holds as d k) (hk : d[k]? ≠ none) (old : Option α) :
    valueAt as d k = (valueAt as d k).or old := by
  obtain ⟨v, hv⟩ := Option.ne_none_iff_exists'.mp hk
  obtain ⟨-, x, hx⟩ := h v hv
  simp [valueAt, hv, hx]

theorem holds_of_none (h : d[k]? = none) : Holds as d k := by
  intro v hv
  rw [h] at hv
  cases hv

theorem valueAt_eq_none_iff (h : Holds as d k) : valueAt as d k = none ↔ d[k]? = none := by
  constructor
  · intro hnone
    by_contra hk
    obtain ⟨v, hv⟩ := Option.ne_none_iff_exists'.mp hk
    obtain ⟨-, x, hx⟩ := h v hv
    simp [valueAt, hv, hx] at hnone
  · intro hnone
    rw [valueAt, hnone, Option.bind_none]

end

/-! ## Reading a document, field by field -/

section

variable {doc : Doc}

theorem BaseUser.setPropertiesFromDoc_eq_some {u u' : BaseUser} :
    u.setPropertiesFromDoc doc = some u' ↔
      castField asString doc Strings.firstName u.firstName = some u'.firstName
      ∧ castField asString doc Strings.lastName u.lastName = some u'.lastName
      ∧ castField asString doc Strings.email u.email = some u'.email
      ∧ castField asString doc Strings.bio u.bio = some u'.bio
      ∧ castField asString doc Strings.photoPath u.photoPath = some u'.photoPath
      ∧ castField asString doc Strings.pronouns u.pronouns = some u'.pronouns
      ∧ u'.id = u.id ∧ u'.userType = u.userType := by
  simp only [setPropertiesFromDoc, Option.bind_eq_bind, Option.bind_eq_some_iff]
  constructor
  · rintro ⟨_, h₁, _, h₂, _, h₃, _, h₄, _, h₅, _, h₆, h⟩
    obtain rfl := Option.some.inj h
    exact ⟨h₁, h₂, h₃, h₄, h₅, h₆, rfl, rfl⟩
  · obtain ⟨id, firstName, lastName, email, bio, photoPath, pronouns, userType⟩ := u'
    rintro ⟨h₁, h₂, h₃, h₄, h₅, h₆, rfl, rfl⟩
    exact ⟨_, h₁, _, h₂, _, h₃, _, h₄, _, h₅, _, h₆, rfl⟩

theorem BaseUser.setPropertiesFromDoc_idem {u u' : BaseUser}
    (h : u.setPropertiesFromDoc doc = some u') : u'.setPropertiesFromDoc doc = some u' := by
  rw [setPropertiesFromDoc_eq_some] at h ⊢
  obtain ⟨h₁, h₂, h₃, h₄, h₅, h₆, -, -⟩ := h
  exact ⟨castField_idem h₁, castField_idem h₂, castField_idem h₃, castField_idem h₄,
    castField_idem h₅, castField_idem h₆, rfl, rfl⟩

theorem BaseUser.id_of_setPropertiesFromDoc {u u' : BaseUser}
    (h : u.setPropertiesFromDoc doc = some u') : u'.id = u.id := by
  obtain ⟨-, -, -, -, -, -, hid, -⟩ := setPropertiesFromDoc_eq_some.mp h
  exact hid

/-- What the document makes of the average. -/
def gpaField (doc : Doc) (old : Option Rat) : Option Rat :=
  match doc[Strings.gpa]? with
  | some temp => floatValue temp
  | none => old

theorem Student.setPropertiesFromDoc_eq_some {s s' : Student} :
    s.setPropertiesFromDoc doc = some s' ↔
      s.toBaseUser.setPropertiesFromDoc doc = some s'.toBaseUser
      ∧ s'.gpa = gpaField doc s.gpa
      ∧ castField asString doc Strings.classID s.classID = some s'.classID
      ∧ s'.parentID = s.parentID := by
  simp only [setPropertiesFromDoc, Option.bind_eq_bind, Option.bind_eq_some_iff]
  constructor
  · rintro ⟨_, h₁, _, h₂, h⟩
    obtain rfl := Option.some.inj h
    exact ⟨h₁, rfl, h₂, rfl⟩
  · obtain ⟨base, gpa, classID, parentID⟩ := s'
    rintro ⟨h₁, rfl, h₂, rfl⟩
    exact ⟨_, h₁, _, h₂, rfl⟩

theorem Teacher.setPropertiesFromDoc_eq_some {t t' : Teacher} :
    t.setPropertiesFromDoc doc = some t' ↔
      t.toBaseUser.setPropertiesFromDoc doc = some t'.toBaseUser
      ∧ castField asString doc Strings.classID t.classID = some t'.classID
      ∧ t'.phone = t.phone := by
  simp only [setPropertiesFromDoc, Option.bind_eq_bind, Option.bind_eq_some_iff]
  constructor
  · rintro ⟨_, h₁, _, h₂, h⟩
    obtain rfl := Option.some.inj h
    exact ⟨h₁, h₂, rfl⟩
  · obtain ⟨⟨base, phone⟩, classID⟩ := t'
    rintro ⟨h₁, h₂, rfl⟩
    exact ⟨_, h₁, _, h₂, rfl⟩

theorem Parent.setPropertiesFromDoc_eq_some {p p' : Parent} :
    p.setPropertiesFromDoc doc = some p' ↔
      p.toBaseUser.setPropertiesFromDoc doc = some p'.toBaseUser
      ∧ castField (asArray asString) doc Strings.students p.students = some p'.students
      ∧ p'.phone = p.phone := by
  simp only [setPropertiesFromDoc, Option.bind_eq_bind, Option.bind_eq_some_iff]
  constructor
  · rintro ⟨_, h₁, _, h₂, h⟩
    obtain rfl := Option.some.inj h
    exact ⟨h₁, h₂, rfl⟩
  · obtain ⟨⟨base, phone⟩, students⟩ := p'
    rintro ⟨h₁, h₂, rfl⟩
    exact ⟨_, h₁, _, h₂, rfl⟩

theorem gpaField_idem (old : Option Rat) : gpaField doc (gpaField doc old) = gpaField doc old := by
  unfold gpaField
  cases doc[Strings.gpa]? <;> rfl

theorem gpaField_insert_of_ne {key : String} {v : Value} (h : key ≠ Strings.gpa)
    (old : Option Rat) : gpaField (doc.insert key v) old = gpaField doc old := by
  have hne : (doc.insert key v)[Strings.gpa]? = doc[Strings.gpa]? := by
    simp [Std.ExtTreeMap.getElem?_insert, h]
  rw [gpaField, gpaField, hne]

theorem IUser.setPropertiesFromDoc_idem {u u' : IUser} (h : u.setPropertiesFromDoc doc = some u') :
    u'.setPropertiesFromDoc doc = some u' := by
  cases u with
  | base u =>
      obtain ⟨v, hv, rfl⟩ := Option.map_eq_some_iff.mp h
      exact congrArg (Option.map IUser.base) (BaseUser.setPropertiesFromDoc_idem hv)
  | student u =>
      obtain ⟨v, hv, rfl⟩ := Option.map_eq_some_iff.mp h
      have hidem : v.setPropertiesFromDoc doc = some v := by
        rw [Student.setPropertiesFromDoc_eq_some] at hv ⊢
        obtain ⟨hbase, hgpa, hclass, -⟩ := hv
        exact ⟨BaseUser.setPropertiesFromDoc_idem hbase, by rw [hgpa, gpaField_idem],
          castField_idem hclass, rfl⟩
      exact congrArg (Option.map IUser.student) hidem
  | teacher u =>
      obtain ⟨v, hv, rfl⟩ := Option.map_eq_some_iff.mp h
      have hidem : v.setPropertiesFromDoc doc = some v := by
        rw [Teacher.setPropertiesFromDoc_eq_some] at hv ⊢
        obtain ⟨hbase, hclass, -⟩ := hv
        exact ⟨BaseUser.setPropertiesFromDoc_idem hbase, castField_idem hclass, rfl⟩
      exact congrArg (Option.map IUser.teacher) hidem
  | parent u =>
      obtain ⟨v, hv, rfl⟩ := Option.map_eq_some_iff.mp h
      have hidem : v.setPropertiesFromDoc doc = some v := by
        rw [Parent.setPropertiesFromDoc_eq_some] at hv ⊢
        obtain ⟨hbase, hstudents, -⟩ := hv
        exact ⟨BaseUser.setPropertiesFromDoc_idem hbase, castField_idem hstudents, rfl⟩
      exact congrArg (Option.map IUser.parent) hidem

/-- A snapshot does not touch the id. -/
theorem IUser.id_of_setPropertiesFromDoc {u u' : IUser} (h : u.setPropertiesFromDoc doc = some u') :
    u'.id = u.id ∧ u'.className = u.className := by
  cases u with
  | base u =>
      obtain ⟨v, hv, rfl⟩ := Option.map_eq_some_iff.mp h
      exact ⟨BaseUser.id_of_setPropertiesFromDoc hv, rfl⟩
  | student u =>
      obtain ⟨v, hv, rfl⟩ := Option.map_eq_some_iff.mp h
      have hbase := (Student.setPropertiesFromDoc_eq_some.mp hv).1
      exact ⟨BaseUser.id_of_setPropertiesFromDoc hbase, rfl⟩
  | teacher u =>
      obtain ⟨v, hv, rfl⟩ := Option.map_eq_some_iff.mp h
      have hbase := (Teacher.setPropertiesFromDoc_eq_some.mp hv).1
      exact ⟨BaseUser.id_of_setPropertiesFromDoc hbase, rfl⟩
  | parent u =>
      obtain ⟨v, hv, rfl⟩ := Option.map_eq_some_iff.mp h
      have hbase := (Parent.setPropertiesFromDoc_eq_some.mp hv).1
      exact ⟨BaseUser.id_of_setPropertiesFromDoc hbase, rfl⟩

theorem Classroom.setPropertiesFromDoc_eq_some {c c' : Classroom} :
    c.setPropertiesFromDoc doc = some c' ↔
      castField asString doc Strings.teacherID c.teacherID = some c'.teacherID
      ∧ castField (asArray asString) doc Strings.studentIDs c.studentIDs = some c'.studentIDs
      ∧ castField (asArray asString) doc Strings.assignmentIDs c.assignmentIDs =
          some c'.assignmentIDs
      ∧ castField asString doc Strings.name c.name = some c'.name
      ∧ castField asStringDict doc Strings.meetingInfo c.meetingInfo = some c'.meetingInfo
      ∧ c'.id = c.id := by
  simp only [setPropertiesFromDoc, Option.bind_eq_bind, Option.bind_eq_some_iff]
  constructor
  · rintro ⟨_, h₁, _, h₂, _, h₃, _, h₄, _, h₄', _, h₅, h⟩
    rw [castField_idem h₄] at h₄'
    obtain rfl := Option.some.inj h₄'
    obtain rfl := Option.some.inj h
    exact ⟨h₁, h₂, h₃, h₄, h₅, rfl⟩
  · obtain ⟨id, teacherID, studentIDs, assignmentIDs, name, meetingInfo⟩ := c'
    rintro ⟨h₁, h₂, h₃, h₄, h₅, rfl⟩
    exact ⟨_, h₁, _, h₂, _, h₃, _, h₄, _, castField_idem h₄, _, h₅, rfl⟩

end

/-! ## Assignments -/

namespace Assignment

section

variable {doc : Doc} {key k : String} {v : Value}

theorem castString_eq (doc : Doc) (key : String) (old : Option String) :
    castString doc key old = castField asString doc key old := rfl

/-- A field of the type of dates. -/
def asDate : Value → Option Rat
  | .timestamp date => some date
  | _ => none

theorem castTimestamp_eq (doc : Doc) (key : String) (old : Option Rat) :
    castTimestamp doc key old = castField asDate doc key old := by
  unfold castTimestamp castField
  rcases doc[key]? with _ | v
  · rfl
  · cases v <;> rfl

theorem castList_idem {α : Type} {ofDictionary : Dict → Option α} {old new : Option (List α)}
    (h : castList ofDictionary doc key old = some new) :
    castList ofDictionary doc key new = some new := by
  unfold castList at h ⊢
  cases hv : doc[key]?.bind (asArray asDict) with
  | none => rfl
  | some ds =>
      rw [hv] at h
      exact h

theorem castList_congr {α : Type} {ofDictionary : Dict → Option α} {doc' : Doc}
    (h : doc'[key]? = doc[key]?) (old : Option (List α)) :
    castList ofDictionary doc' key old = castList ofDictionary doc key old := by
  rw [castList, castList, h]

/-- A list of encoded elements is read element by element. -/
theorem castList_map {α : Type} {enc : α → Dict} {ofDictionary : Dict → Option α} {xs : List α}
    (h : ∀ x, ofDictionary (enc x) = some x)
    (hdoc : doc[key]? = some (.array (xs.map fun x => .map (enc x)))) (old : Option (List α)) :
    castList ofDictionary doc key old = some (some xs) := by
  rw [castList, hdoc, Option.bind_some, asArray_asDict_map]
  exact congrArg (Option.map some) (mapM_map_of_decode h xs)

theorem castList_insert_of_ne {α : Type} {ofDictionary : Dict → Option α} (h : k ≠ key)
    (old : Option (List α)) :
    castList ofDictionary (doc.insert key v) k old = castList ofDictionary doc k old :=
  castList_congr (by simp [Std.ExtTreeMap.getElem?_insert, Ne.symm h]) old

theorem setPropertiesFromDoc_eq_some {a a' : Assignment} :
    a.setPropertiesFromDoc doc = some a' ↔
      castList Problem.ofDictionary doc Strings.problems a.problems = some a'.problems
      ∧ castList Result.ofDictionary doc Strings.results a.results = some a'.results
      ∧ castField asDate doc Strings.dueDate a.dueDate = some a'.dueDate
      ∧ castField asString doc Strings.classID a.classID = some a'.classID
      ∧ castField asString doc Strings.filePath a.filePath = some a'.filePath
      ∧ castField asString doc Strings.description a.description = some a'.description
      ∧ a'.id = a.id ∧ a'.name = a.name := by
  simp only [setPropertiesFromDoc, Option.bind_eq_bind, Option.bind_eq_some_iff, castString_eq,
    castTimestamp_eq]
  constructor
  · rintro ⟨_, h₁, _, h₂, _, h₃, _, h₄, _, h₅, _, h₆, h⟩
    obtain rfl := Option.some.inj h
    exact ⟨h₁, h₂, h₃, h₄, h₅, h₆, rfl, rfl⟩
  · obtain ⟨results, problems, dueDate, id, classID, filePath, description, name⟩ := a'
    rintro ⟨h₁, h₂, h₃, h₄, h₅, h₆, rfl, rfl⟩
    exact ⟨_, h₁, _, h₂, _, h₃, _, h₄, _, h₅, _, h₆, rfl⟩

theorem setPropertiesFromDoc_idem {a a' : Assignment}
    (h : a.setPropertiesFromDoc doc = some a') : a'.setPropertiesFromDoc doc = some a' := by
  rw [setPropertiesFromDoc_eq_some] at h ⊢
  obtain ⟨h₁, h₂, h₃, h₄, h₅, h₆, -, -⟩ := h
  exact ⟨castList_idem h₁, castList_idem h₂, castField_idem h₃, castField_idem h₄,
    castField_idem h₅, castField_idem h₆, rfl, rfl⟩

/-- A document that differs in its problems leaves the rest of the object alike. -/
theorem setPropertiesFromDoc_problems {a a' : Assignment} {doc' : Doc}
    {problems : Option (List Problem)} (h : a.setPropertiesFromDoc doc = some a')
    (hother : ∀ k, k ≠ Strings.problems → doc'[k]? = doc[k]?)
    (hproblems : castList Problem.ofDictionary doc' Strings.problems a.problems = some problems) :
    a.setPropertiesFromDoc doc' = some { a' with problems } := by
  rw [setPropertiesFromDoc_eq_some] at h ⊢
  obtain ⟨-, h₂, h₃, h₄, h₅, h₆, hid, hname⟩ := h
  exact ⟨hproblems, (castList_congr (hother _ (by decide)) _).trans h₂,
    (castField_congr (hother _ (by decide)) _).trans h₃,
    (castField_congr (hother _ (by decide)) _).trans h₄,
    (castField_congr (hother _ (by decide)) _).trans h₅,
    (castField_congr (hother _ (by decide)) _).trans h₆, hid, hname⟩

end

end Assignment

end GradeIo
