import GradeIo.User

/-!
# Classrooms

`Classroom.swift` less the methods that fetch other objects, which are in
`GradeIo.App`. Three setters address a document named by a field name instead
of the classroom's own (`setStudents` writes to `Class/studentIDs`).
-/

namespace GradeIo

open DocDb

structure Classroom where
  id : Option String
  teacherID : Option String
  studentIDs : Option (List String)
  assignmentIDs : Option (List String)
  name : Option String
  meetingInfo : Option (List (String × String))
deriving DecidableEq, Repr

/-- A dictionary of strings. -/
def asStringDict (v : Value) : Option (List (String × String)) := do
  let d ← asDict v
  d.mapM fun (k, v) => (asString v).map fun s => (k, s)

namespace Classroom

/-- The synthesized decoder. -/
def decode (d : Dict) : Option Classroom := do
  let id ← decodeIfPresent asString d Strings.id
  let teacherID ← decodeIfPresent asString d Strings.teacherID
  let studentIDs ← decodeIfPresent (asArray asString) d Strings.studentIDs
  let assignmentIDs ← decodeIfPresent (asArray asString) d Strings.assignmentIDs
  let name ← decodeIfPresent asString d Strings.name
  let meetingInfo ← decodeIfPresent asStringDict d "meetingInfo"
  some { id, teacherID, studentIDs, assignmentIDs, name, meetingInfo }

/-- `Classroom(dictionary:)`. -/
def ofDictionary : Dict → Option Classroom := initDictionary decode

/-- The object `Classroom(newID:)` leaves; it ends with `SetID`. -/
def new (newID : String) : Classroom where
  id := some newID
  teacherID := some ""
  studentIDs := some []
  assignmentIDs := some []
  name := some ""
  meetingInfo := some []

def setStudents (newStudents : List String) : Option Write :=
  DatabaseHelper.savePropertyToDatabase Strings.class Strings.studentIDs Strings.students
    (.array (newStudents.map .string))

/-- The classroom's document, which the `Add` methods address through `id!`. -/
def ref (c : Classroom) : Option DocPath :=
  c.id.bind (documentPath Strings.class)

/-- The object and the write after `AddAssignment`. -/
def addAssignment (c : Classroom) (newAssignment : String) : Option (Classroom × Write) := do
  let assignmentIDs ← c.assignmentIDs
  let p ← c.ref
  some ({ c with assignmentIDs := some (assignmentIDs ++ [newAssignment]) },
    .unionMerge p Strings.assignmentIDs (.string newAssignment))

/-- What adding an assignment writes. -/
theorem addAssignment_eq_some {c c' : Classroom} {newAssignment : String} {w : Write}
    (h : c.addAssignment newAssignment = some (c', w)) :
    ∃ id p, documentPath Strings.class id = some p
      ∧ w = .unionMerge p Strings.assignmentIDs (.string newAssignment) := by
  simp only [addAssignment, Option.bind_eq_bind, Option.bind_eq_some_iff] at h
  obtain ⟨ids, -, p, hp, h⟩ := h
  obtain ⟨-, rfl⟩ := Prod.mk.inj (Option.some.inj h)
  obtain ⟨id, -, hp⟩ := Option.bind_eq_some_iff.mp hp
  exact ⟨id, p, hp, rfl⟩

end Classroom

end GradeIo
