import GradeIo.Database

/-!
# Users

The class hierarchy under `User/`: `BaseUser`, `Student`, `BaseAdult`,
`Teacher` and `Parent`, with their decoders, setters and listening addresses.
`IUser` is a reference of the protocol's type, tagged with the dynamic class;
a forced cast is a match on the tag.

A setter writes one string field to the document named by the user's id, in
the collection named by the dynamic class (`saveUserPropertyToDoc`), and does
not touch the object; `SetID` is the only one that does.
-/

namespace GradeIo

open DocDb

structure BaseUser where
  id : Option String
  firstName : Option String
  lastName : Option String
  email : Option String
  bio : Option String
  photoPath : Option String
  pronouns : Option String
  userType : Option String
deriving DecidableEq, Repr

structure Student extends BaseUser where
  gpa : Option Rat
  classID : Option String
  parentID : Option String
deriving DecidableEq, Repr

structure BaseAdult extends BaseUser where
  phone : Option String
deriving DecidableEq, Repr

structure Teacher extends BaseAdult where
  classID : Option String
deriving DecidableEq, Repr

structure Parent extends BaseAdult where
  students : Option (List String)
deriving DecidableEq, Repr

/-- `BaseUser()`. -/
def BaseUser.init : BaseUser where
  id := some ""
  firstName := some ""
  lastName := some ""
  email := some ""
  bio := some ""
  photoPath := some ""
  pronouns := some ""
  userType := some ""

/-! ## Decoding -/

def BaseUser.decode (d : Dict) : Option BaseUser := do
  let id ← decodeIfPresent asString d Strings.id
  let firstName ← decodeIfPresent asString d Strings.firstName
  let lastName ← decodeIfPresent asString d Strings.lastName
  let email ← decodeIfPresent asString d Strings.email
  let bio ← decodeIfPresent asString d Strings.bio
  let photoPath ← decodeIfPresent asString d Strings.photoPath
  let pronouns ← decodeIfPresent asString d Strings.pronouns
  let userType ← decodeIfPresent asString d "userType"
  some { id, firstName, lastName, email, bio, photoPath, pronouns, userType }

def Student.decode (d : Dict) : Option Student := do
  let gpa ← decodeIfPresent asNumber d Strings.gpa
  let classID ← decodeIfPresent asString d Strings.classID
  let parentID ← decodeIfPresent asString d Strings.parentID
  let base ← BaseUser.decode d
  some { toBaseUser := base, gpa, classID, parentID }

def BaseAdult.decode (d : Dict) : Option BaseAdult := do
  let phone ← decodeIfPresent asString d Strings.phone
  let base ← BaseUser.decode d
  some { toBaseUser := base, phone }

def Teacher.decode (d : Dict) : Option Teacher := do
  let classID ← decodeIfPresent asString d Strings.classID
  let adult ← BaseAdult.decode d
  some { toBaseAdult := adult, classID }

def Parent.decode (d : Dict) : Option Parent := do
  let students ← decodeIfPresent (asArray asString) d Strings.students
  let adult ← BaseAdult.decode d
  some { toBaseAdult := adult, students }

/-- `Student(dictionary:)`. -/
def Student.ofDictionary : Dict → Option Student := initDictionary Student.decode

/-- `Teacher(dictionary:)`. -/
def Teacher.ofDictionary : Dict → Option Teacher := initDictionary Teacher.decode

/-- `Parent(dictionary:)`. -/
def Parent.ofDictionary : Dict → Option Parent := initDictionary Parent.decode

/-! ## References -/

inductive IUser where
  | base (u : BaseUser)
  | student (u : Student)
  | teacher (u : Teacher)
  | parent (u : Parent)
deriving DecidableEq, Repr

namespace IUser

def toBaseUser : IUser → BaseUser
  | .base u => u
  | .student u => u.toBaseUser
  | .teacher u => u.toBaseUser
  | .parent u => u.toBaseUser

def id (u : IUser) : Option String := u.toBaseUser.id

def firstName (u : IUser) : Option String := u.toBaseUser.firstName

def lastName (u : IUser) : Option String := u.toBaseUser.lastName

def withID (newID : String) : IUser → IUser
  | .base u => .base { u with id := some newID }
  | .student u => .student { u with id := some newID }
  | .teacher u => .teacher { u with id := some newID }
  | .parent u => .parent { u with id := some newID }

/-- The dynamic class, as `String(describing:)` names it after the module. -/
def className : IUser → String
  | .base _ => "BaseUser"
  | .student _ => "Student"
  | .teacher _ => "Teacher"
  | .parent _ => "Parent"

def asStudent : IUser → Option Student
  | .student u => some u
  | _ => none

def asTeacher : IUser → Option Teacher
  | .teacher u => some u
  | _ => none

def asParent : IUser → Option Parent
  | .parent u => some u
  | _ => none

/-- The document that the setters write to. -/
def ref (u : IUser) : Option DocPath := documentPath u.className (u.id.getD "")

end IUser

/-! ## Setters -/

def DatabaseHelper.saveUserPropertyToDoc (user : IUser) (key value : String) : Option Write :=
  user.ref.map fun p => .setMerge p key (.string value)

namespace IUser

open DatabaseHelper

/-- The write of `SetID`, after it has set the property. -/
def setID (u : IUser) (newID : String) : Option Write :=
  saveUserPropertyToDoc (u.withID newID) Strings.id newID

def setFirstName (u : IUser) (newFirstName : String) : Option Write :=
  saveUserPropertyToDoc u Strings.firstName newFirstName

def setLastName (u : IUser) (newLastName : String) : Option Write :=
  saveUserPropertyToDoc u Strings.lastName newLastName

def setEmail (u : IUser) (newEmail : String) : Option Write :=
  saveUserPropertyToDoc u Strings.email newEmail

def setBio (u : IUser) (newBio : String) : Option Write :=
  saveUserPropertyToDoc u Strings.bio newBio

def setPhotoPath (u : IUser) (newPhotoPath : String) : Option Write :=
  saveUserPropertyToDoc u Strings.photoPath newPhotoPath

def setPronouns (u : IUser) (newPronouns : String) : Option Write :=
  saveUserPropertyToDoc u Strings.pronouns newPronouns

/-- The collection the object listens to, by the first character of its id. -/
def getType [TextOps] (u : IUser) : String :=
  match u.id.bind TextOps.first with
  | some "x" => "Student"
  | some "s" => "Student"
  | some "t" => "Teacher"
  | some "p" => "Parent"
  | _ => "ERROR"

/-- Where `Listen` attaches: traps without an id. -/
def listen [TextOps] (u : IUser) : Option DocPath :=
  u.id.bind (documentPath u.getType)

end IUser

namespace Student

/-- `description` stands for `Float.description`, whose text is not modelled. -/
def setGPA (s : Student) (description : Rat → String) (newGPA : Rat) : Option Write :=
  DatabaseHelper.saveUserPropertyToDoc (.student s) Strings.gpa (description newGPA)

def setClassroom (s : Student) (newClass : String) : Option Write :=
  DatabaseHelper.saveUserPropertyToDoc (.student s) Strings.classID newClass

def setParentID (s : Student) (newParentID : String) : Option Write :=
  DatabaseHelper.saveUserPropertyToDoc (.student s) Strings.parentID newParentID

/-- The object `Student(id:)` leaves; it ends with `SetID`. -/
def new (id : String) : Student where
  toBaseUser := { BaseUser.init with id := some id, userType := some Strings.student }
  gpa := some 0
  classID := some ""
  parentID := none

end Student

def BaseAdult.setPhoneNumber (u : IUser) (newNumber : String) : Option Write :=
  DatabaseHelper.saveUserPropertyToDoc u Strings.phone newNumber

/-- The object `Teacher(id:)` leaves; it ends with `SetID`. -/
def Teacher.new (id : String) : Teacher where
  toBaseUser := { BaseUser.init with id := some id, userType := some Strings.teacher }
  phone := none
  classID := some ""

/-- The object `Parent(id:)` leaves; it ends with `SetID`. -/
def Parent.new (id : String) : Parent where
  toBaseUser := { BaseUser.init with id := some id, userType := some Strings.parent }
  phone := none
  students := none

end GradeIo
