import GradeIo.Lib.DocStore
import GradeIo.Texts

/-!
# Field names and the database helper

`Strings` and the part of `DatabaseHelper` that needs no user object. A call
that takes a completion handler either hands it a value, never calls it
(`Halt.noAnswer`) or traps (`Halt.trap`: a nil force-unwrapped, a failed
forced cast, an index out of range, a document name Firestore rejects).

Reads are functions of the store at the time the answer arrives; writes are
values of `Write`, `none` where forming the document reference traps.
-/

namespace GradeIo

open DocDb

namespace Strings

/-! ## Collection names -/

abbrev student : String := "Student"
abbrev parent : String := "Parent"
abbrev teacher : String := "Teacher"
abbrev assignment : String := "Assignment"
abbrev «class» : String := "Class"

/-! ## Fields -/

abbrev firstName : String := "firstName"
abbrev lastName : String := "lastName"
abbrev email : String := "email"
abbrev name : String := "name"
abbrev id : String := "id"
abbrev phone : String := "phone"
abbrev studentIDs : String := "studentIDs"
abbrev classID : String := "classID"
abbrev teacherID : String := "teacherID"
abbrev parentID : String := "parentID"
abbrev gpa : String := "gpa"
abbrev bio : String := "bio"
abbrev photoPath : String := "photoPath"
abbrev pronouns : String := "pronouns"
abbrev assignmentIDs : String := "assignmentIDs"
abbrev meetingInfo : String := "MeetingInfo"
abbrev results : String := "results"
abbrev problems : String := "problems"
abbrev dueDate : String := "dueDate"
abbrev filePath : String := "filePath"
abbrev description : String := "description"
abbrev students : String := "students"

abbrev arbitraryEmail : String := "@ArbitraryEmail.com"

end Strings

/-- Why the code after a call does not run. -/
inductive Halt where
  | trap
  | noAnswer
deriving DecidableEq, Repr

/-- What a completion handler is given, if anything. -/
abbrev Answer := Except Halt

/-- `x!`. -/
def unwrap {α : Type} : Option α → Answer α
  | some a => .ok a
  | none => .error .trap

namespace DatabaseHelper

def savePropertyToDatabase (collection document key : String) (value : Value) : Option Write :=
  (documentPath collection document).map fun p => .setMerge p key value

/-- The documents of the collection whose id is in the list, by Swift's `==`. -/
def getDocumentsFromIDs [TextOps] (s : Store) (collection : String) (ids : List String) :
    List (String × Doc) :=
  (s.documents collection).filter fun d => TextOps.contains ids d.1

def getDocsFromKeyValues (s : Store) (collection key : String) (value : String) :
    List (String × Doc) :=
  s.whereField collection key (.string value)

def deleteDocument (collection document : String) : Option Write :=
  (documentPath collection document).map .delete

end DatabaseHelper

/-- `Decodable.init?(dictionary:)`: nil unless the dictionary survives the JSON
bridge and the decoder accepts it. -/
def initDictionary {α : Type} (decode : Dict → Option α) (value : Dict) : Option α :=
  if isValidJSONObject value then decode value else none

theorem initDictionary_of_invalid {α : Type} {decode : Dict → Option α} {d : Dict}
    (h : isValidJSONObject d = false) : initDictionary decode d = none := by
  simp [initDictionary, h]

end GradeIo
