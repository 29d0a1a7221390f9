import GradeIo.Lib.Transition
import GradeIo.Snapshots

/-!
# Listener callbacks

The closures that `Listen` passes to `addSnapshotListener`, in all classes, on
whatever they are called with: an error, which comes without a snapshot, or a
document with any fields.

`updated` is what a listener is for: every property takes over a field that has
its type and is left alone by any other. The closures do that for the documents
that they can read and that have nothing new for a property they do not read
(`callback_eq_iff`), and so along any sequence of callbacks (`follows_iff_safe`).
-/

namespace GradeIo

open DocDb Transition

/-! ## What a listener is for -/

/-- A list of dictionaries that can all be decoded. -/
def asRecords {α : Type} (ofDictionary : Dict → Option α) (v : Value) : Option (List α) :=
  (asArray asDict v).bind fun ds => ds.mapM ofDictionary

/-- A field of the right type is taken over, any other leaves the property. -/
def takeOver {α : Type} (as : Value → Option α) (doc : Doc) (key : String) (old : Option α) :
    Option α :=
  (valueAt as doc key).or old

def Assignment.updated (a : Assignment) (doc : Doc) : Assignment :=
  { problems := takeOver (asRecords Problem.ofDictionary) doc Strings.problems a.problems
    results := takeOver (asRecords Result.ofDictionary) doc Strings.results a.results
    dueDate := takeOver Assignment.asDate doc Strings.dueDate a.dueDate
    classID := takeOver asString doc Strings.classID a.classID
    filePath := takeOver asString doc Strings.filePath a.filePath
    description := takeOver asString doc Strings.description a.description
    id := takeOver asString doc Strings.id a.id
    name := takeOver asString doc Strings.name a.name }

def Classroom.updated (c : Classroom) (doc : Doc) : Classroom :=
  { id := takeOver asString doc Strings.id c.id
    teacherID := takeOver asString doc Strings.teacherID c.teacherID
    studentIDs := takeOver (asArray asString) doc Strings.studentIDs c.studentIDs
    assignmentIDs := takeOver (asArray asString) doc Strings.assignmentIDs c.assignmentIDs
    name := takeOver asString doc Strings.name c.name
    meetingInfo := takeOver asStringDict doc Strings.meetingInfo c.meetingInfo }

def BaseUser.updated (u : BaseUser) (doc : Doc) : BaseUser :=
  { id := takeOver asString doc Strings.id u.id
    firstName := takeOver asString doc Strings.firstName u.firstName
    lastName := takeOver asString doc Strings.lastName u.lastName
    email := takeOver asString doc Strings.email u.email
    bio := takeOver asString doc Strings.bio u.bio
    photoPath := takeOver asString doc Strings.photoPath u.photoPath
    pronouns := takeOver asString doc Strings.pronouns u.pronouns
    userType := takeOver asString doc "userType" u.userType }

def Student.updated (s : Student) (doc : Doc) : Student :=
  { toBaseUser := s.toBaseUser.updated doc
    gpa := takeOver asNumber doc Strings.gpa s.gpa
    classID := takeOver asString doc Strings.classID s.classID
    parentID := takeOver asString doc Strings.parentID s.parentID }

def Teacher.updated (t : Teacher) (doc : Doc) : Teacher :=
  { toBaseUser := t.toBaseUser.updated doc
    phone := takeOver asString doc Strings.phone t.phone
    classID := takeOver asString doc Strings.classID t.classID }

def Parent.updated (p : Parent) (doc : Doc) : Parent :=
  { toBaseUser := p.toBaseUser.updated doc
    phone := takeOver asString doc Strings.phone p.phone
    students := takeOver (asArray asString) doc Strings.students p.students }

/-! ## The listening objects -/

/-- The classes with a listener. -/
inductive IListenable where
  | assignment (a : Assignment)
  | classroom (c : Classroom)
  | user (u : IUser)

def IUser.updated (u : IUser) (doc : Doc) : IUser :=
  match u with
  | .base u => .base (u.updated doc)
  | .student u => .student (u.updated doc)
  | .teacher u => .teacher (u.updated doc)
  | .parent u => .parent (u.updated doc)

namespace IListenable

def setPropertiesFromDoc (o : IListenable) (doc : Doc) : Option IListenable :=
  match o with
  | assignment a => (a.setPropertiesFromDoc doc).map assignment
  | classroom c => (c.setPropertiesFromDoc doc).map classroom
  | user u => (u.setPropertiesFromDoc doc).map user

/-- The error is not looked at: `snapshot!` traps. -/
def callback (o : IListenable) (snapshot : Option Doc) : Option IListenable :=
  snapshot.bind o.setPropertiesFromDoc

/-- An error changes nothing. -/
def updated (o : IListenable) (snapshot : Option Doc) : IListenable :=
  match snapshot, o with
  | none, o => o
  | some doc, assignment a => assignment (a.updated doc)
  | some doc, classroom c => classroom (c.updated doc)
  | some doc, user u => user (u.updated doc)

end IListenable

/-! ## Documents that can be read -/

/-- The field is missing or no list of dictionaries, or all of these decode. -/
def RecordsDecode {α : Type} (ofDictionary : Dict → Option α) (doc : Doc) (key : String) : Prop :=
  ∀ ds, doc[key]?.bind (asArray asDict) = some ds → ∀ d ∈ ds, ∃ x, ofDictionary d = some x

/-- The average is missing or a number; text or a truth value in its place makes
it what it is already. -/
def KeepsGPA (doc : Doc) (gpa : Option Rat) : Prop :=
  ∀ v, doc[Strings.gpa]? = some v → (∃ q, v = .number q) ∨ floatValue v = gpa

/-- Nothing new for a property that is not read. -/
def NothingNew {α : Type} (as : Value → Option α) (doc : Doc) (key : String) (old : Option α) :
    Prop :=
  ∀ x, valueAt as doc key = some x → old = some x

def Assignment.SafeDoc (a : Assignment) (doc : Doc) : Prop :=
  RecordsDecode Problem.ofDictionary doc Strings.problems
    ∧ RecordsDecode Result.ofDictionary doc Strings.results
    ∧ Holds Assignment.asDate doc Strings.dueDate
    ∧ Holds asString doc Strings.classID
    ∧ Holds asString doc Strings.filePath
    ∧ Holds asString doc Strings.description
    ∧ NothingNew asString doc Strings.id a.id
    ∧ NothingNew asString doc Strings.name a.name

def Classroom.SafeDoc (c : Classroom) (doc : Doc) : Prop :=
  Holds asString doc Strings.teacherID
    ∧ Holds (asArray asString) doc Strings.studentIDs
    ∧ Holds (asArray asString) doc Strings.assignmentIDs
    ∧ Holds asString doc Strings.name
    ∧ Holds asStringDict doc Strings.meetingInfo
    ∧ NothingNew asString doc Strings.id c.id

def BaseUser.SafeDoc (u : BaseUser) (doc : Doc) : Prop :=
  Holds asString doc Strings.firstName
    ∧ Holds asString doc Strings.lastName
    ∧ Holds asString doc Strings.email
    ∧ Holds asString doc Strings.bio
    ∧ Holds asString doc Strings.photoPath
    ∧ Holds asString doc Strings.pronouns
    ∧ NothingNew asString doc Strings.id u.id
    ∧ NothingNew asString doc "userType" u.userType

def Student.SafeDoc (s : Student) (doc : Doc) : Prop :=
  s.toBaseUser.SafeDoc doc ∧ KeepsGPA doc s.gpa ∧ Holds asString doc Strings.classID
    ∧ NothingNew asString doc Strings.parentID s.parentID

def Teacher.SafeDoc (t : Teacher) (doc : Doc) : Prop :=
  t.toBaseUser.SafeDoc doc ∧ Holds asString doc Strings.classID
    ∧ NothingNew asString doc Strings.phone t.phone

def Parent.SafeDoc (p : Parent) (doc : Doc) : Prop :=
  p.toBaseUser.SafeDoc doc ∧ Holds (asArray asString) doc Strings.students
    ∧ NothingNew asString doc Strings.phone p.phone

/-- A snapshot that the object can follow. -/
def IListenable.Safe (o : IListenable) (snapshot : Option Doc) : Prop :=
  match snapshot, o with
  | none, _ => False
  | some doc, assignment a => a.SafeDoc doc
  | some doc, classroom c => c.SafeDoc doc
  | some doc, user (.base u) => u.SafeDoc doc
  | some doc, user (.student s) => s.SafeDoc doc
  | some doc, user (.teacher t) => t.SafeDoc doc
  | some doc, user (.parent p) => p.SafeDoc doc

/-! ## One field -/

section

variable {α : Type} {as : Value → Option α} {doc : Doc} {key : String}

/-- A forced cast does no harm to a field that holds what it is cast to. -/
theorem castField_eq_takeOver_iff (hnull : as .null = none) (old : Option α) :
    castField as doc key old = some (takeOver as doc key old) ↔ Holds as doc key := by
  constructor
  · intro h v hv
    rw [castField, hv] at h
    obtain ⟨x, hx, -⟩ := Option.map_eq_some_iff.mp h
    refine ⟨?_, x, hx⟩
    rintro rfl
    rw [hnull] at hx
    cases hx
  · exact fun h => h.cast old

theorem castList_eq_takeOver_iff {ofDictionary : Dict → Option α} (old : Option (List α)) :
    Assignment.castList ofDictionary doc key old =
        some (takeOver (asRecords ofDictionary) doc key old) ↔
      RecordsDecode ofDictionary doc key := by
  have hvalue : valueAt (asRecords ofDictionary) doc key =
      (doc[key]?.bind (asArray asDict)).bind fun ds => ds.mapM ofDictionary := by
    rw [valueAt, Option.bind_assoc]
    rfl
  unfold Assignment.castList takeOver RecordsDecode
  rw [hvalue]
  cases doc[key]?.bind (asArray asDict) with
  | none => simp
  | some ds =>
      simp only [Option.bind_some, Option.some.injEq, forall_eq', ← exists_mapM_eq_some_iff]
      cases ds.mapM ofDictionary <;> simp

theorem gpaField_eq_takeOver_iff (gpa : Option Rat) :
    takeOver asNumber doc Strings.gpa gpa = gpaField doc gpa ↔ KeepsGPA doc gpa := by
  unfold takeOver valueAt gpaField KeepsGPA
  cases doc[Strings.gpa]? with
  | none => simp
  | some v => cases v <;> simp [asNumber, floatValue, eq_comm]

theorem takeOver_eq_self_iff {old : Option α} :
    takeOver as doc key old = old ↔ NothingNew as doc key old := by
  unfold takeOver NothingNew
  cases valueAt as doc key <;> simp [eq_comm]

end

/-! ## One snapshot -/

section

variable {doc : Doc}

theorem Assignment.setPropertiesFromDoc_eq_updated_iff (a : Assignment) :
    a.setPropertiesFromDoc doc = some (a.updated doc) ↔ a.SafeDoc doc := by
  rw [setPropertiesFromDoc_eq_some, SafeDoc]
  exact and_congr (castList_eq_takeOver_iff _) (and_congr (castList_eq_takeOver_iff _)
    (and_congr (castField_eq_takeOver_iff rfl _) (and_congr (castField_eq_takeOver_iff rfl _)
    (and_congr (castField_eq_takeOver_iff rfl _) (and_congr (castField_eq_takeOver_iff rfl _)
    (and_congr takeOver_eq_self_iff takeOver_eq_self_iff))))))

theorem Classroom.setPropertiesFromDoc_eq_updated_iff (c : Classroom) :
    c.setPropertiesFromDoc doc = some (c.updated doc) ↔ c.SafeDoc doc := by
  rw [setPropertiesFromDoc_eq_some, SafeDoc]
  exact and_congr (castField_eq_takeOver_iff rfl _) (and_congr (castField_eq_takeOver_iff rfl _)
    (and_congr (castField_eq_takeOver_iff rfl _) (and_congr (castField_eq_takeOver_iff rfl _)
    (and_congr (castField_eq_takeOver_iff rfl _) takeOver_eq_self_iff))))

theorem BaseUser.setPropertiesFromDoc_eq_updated_iff (u : BaseUser) :
    u.setPropertiesFromDoc doc = some (u.updated doc) ↔ u.SafeDoc doc := by
  rw [setPropertiesFromDoc_eq_some, SafeDoc]
  exact and_congr (castField_eq_takeOver_iff rfl _) (and_congr (castField_eq_takeOver_iff rfl _)
    (and_congr (castField_eq_takeOver_iff rfl _) (and_congr (castField_eq_takeOver_iff rfl _)
    (and_congr (castField_eq_takeOver_iff rfl _) (and_congr (castField_eq_takeOver_iff rfl _)
    (and_congr takeOver_eq_self_iff takeOver_eq_self_iff))))))

theorem Student.setPropertiesFromDoc_eq_updated_iff (s : Student) :
    s.setPropertiesFromDoc doc = some (s.updated doc) ↔ s.SafeDoc doc := by
  rw [setPropertiesFromDoc_eq_some, SafeDoc]
  exact and_congr s.toBaseUser.setPropertiesFromDoc_eq_updated_iff
    (and_congr (gpaField_eq_takeOver_iff _)
    (and_congr (castField_eq_takeOver_iff rfl _) takeOver_eq_self_iff))

theorem Teacher.setPropertiesFromDoc_eq_updated_iff (t : Teacher) :
    t.setPropertiesFromDoc doc = some (t.updated doc) ↔ t.SafeDoc doc := by
  rw [setPropertiesFromDoc_eq_some, SafeDoc]
  exact and_congr t.toBaseUser.setPropertiesFromDoc_eq_updated_iff
    (and_congr (castField_eq_takeOver_iff rfl _) takeOver_eq_self_iff)

theorem Parent.setPropertiesFromDoc_eq_updated_iff (p : Parent) :
    p.setPropertiesFromDoc doc = some (p.updated doc) ↔ p.SafeDoc doc := by
  rw [setPropertiesFromDoc_eq_some, SafeDoc]
  exact and_congr p.toBaseUser.setPropertiesFromDoc_eq_updated_iff
    (and_congr (castField_eq_takeOver_iff rfl _) takeOver_eq_self_iff)

theorem IUser.setPropertiesFromDoc_eq_updated_iff (u : IUser) :
    u.setPropertiesFromDoc doc = some (u.updated doc) ↔ (IListenable.user u).Safe (some doc) := by
  cases u with
  | base u =>
      have hinj : Function.Injective IUser.base := fun _ _ => IUser.base.inj
      exact (Option.mem_map_of_injective hinj).trans u.setPropertiesFromDoc_eq_updated_iff
  | student u =>
      have hinj : Function.Injective IUser.student := fun _ _ => IUser.student.inj
      exact (Option.mem_map_of_injective hinj).trans u.setPropertiesFromDoc_eq_updated_iff
  | teacher u =>
      have hinj : Function.Injective IUser.teacher := fun _ _ => IUser.teacher.inj
      exact (Option.mem_map_of_injective hinj).trans u.setPropertiesFromDoc_eq_updated_iff
  | parent u =>
      have hinj : Function.Injective IUser.parent := fun _ _ => IUser.parent.inj
      exact (Option.mem_map_of_injective hinj).trans u.setPropertiesFromDoc_eq_updated_iff

end

/-! ## Callbacks -/

namespace IListenable

/-- One callback. -/
theorem callback_eq_iff (o : IListenable) (snapshot : Option Doc) :
    o.callback snapshot = some (o.updated snapshot) ↔ o.Safe snapshot := by
  cases snapshot with
  | none =>
      constructor
      · intro h
        cases h
      · exact False.elim
  | some doc =>
      cases o with
      | assignment a =>
          have hinj : Function.Injective assignment := fun _ _ => assignment.inj
          exact (Option.mem_map_of_injective hinj).trans a.setPropertiesFromDoc_eq_updated_iff
      | classroom c =>
          have hinj : Function.Injective classroom := fun _ _ => classroom.inj
          exact (Option.mem_map_of_injective hinj).trans c.setPropertiesFromDoc_eq_updated_iff
      | user u =>
          have hinj : Function.Injective user := fun _ _ => user.inj
          exact (Option.mem_map_of_injective hinj).trans u.setPropertiesFromDoc_eq_updated_iff

/-- Along any sequence of callbacks. -/
theorem follows_iff_safe (o : IListenable) (snapshots : List (Option Doc)) :
    Follows callback updated o snapshots ↔
      ∀ l snapshot, l ++ [snapshot] <+: snapshots → (l.foldl updated o).Safe snapshot :=
  follows_iff callback_eq_iff

/-- The first error ends the application. -/
theorem not_follows : ¬ ∀ o snapshots, Follows callback updated o snapshots := by
  intro h
  have hsafe := (follows_iff callback_eq_iff).mp (h (assignment (Assignment.new "q1" 0)) [none])
  exact hsafe [] none (List.prefix_refl _)

end IListenable

end GradeIo
