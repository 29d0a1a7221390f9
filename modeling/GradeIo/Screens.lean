import GradeIo.Home

/-!
# Screens

The `viewDidLoad` of the list and overview screens: what is fetched, and what
the completion makes of it. Populating a screen stops at a nil or at an index
out of range, which `Stop` tells apart; a fetch halts as in `GradeIo.Objects`.
A handler that comes to populating its screen ends with what is shown there,
or with the `Stop`.

Colours stand for whether a result is submitted, and a text made from a number
for the number; `N/A` and the text of a NaN are `none`.
-/

namespace GradeIo

open DocDb UserHelper

variable [TextOps]

/-- Why populating a screen stops. -/
inductive Stop where
  /-- A nil is force-unwrapped. -/
  | nil
  /-- An index is out of range. -/
  | index
deriving DecidableEq, Repr

abbrev Screen := Except Stop

namespace Screen

/-- `x!`. -/
def unwrap {α : Type} : Option α → Screen α
  | some a => .ok a
  | none => .error .nil

/-- `l[i]`. -/
def item {α : Type} (l : List α) (i : Int) : Screen α :=
  if i < 0 then .error .index
  else
    match l[i.toNat]? with
    | some a => .ok a
    | none => .error .index

end Screen

/-! ## Results on a screen -/

namespace Assignment

/-- `results![i]`. -/
def resultAt (a : Assignment) (i : Int) : Screen Result := do
  let results ← Screen.unwrap a.results
  Screen.item results i

/-- The result of a student: the search for its index, the comparison with -1
and the access, which the screens repeat. -/
def resultOf (a : Assignment) (id : Option String) : Screen (Option Result) := do
  let id ← Screen.unwrap id
  let resultIndex := a.getResultIndexByID id
  if resultIndex = -1 then pure none
  else
    let studentResult ← a.resultAt resultIndex
    pure (some studentResult)

end Assignment

/-- Whether the background is green. -/
def submittedBy (id : Option String) (a : Assignment) : Screen Bool := do
  let studentResult ← a.resultOf id
  pure (studentResult.any Result.isSubmitted)

def gradeLabel (id : Option String) (a : Assignment) : Screen (Option Rat) := do
  let studentResult ← a.resultOf id
  pure (studentResult.map fun r => r.grade * 100)

/-- One round of the loop of `findGrade`, over the total and the number taken. -/
def addGrade (id : Option String) (taken : Rat × Nat) (i : Assignment) : Screen (Rat × Nat) := do
  match ← i.resultOf id with
  | some studentResult => pure (taken.1 + studentResult.grade, taken.2 + 1)
  | none => pure taken

/-- The average in percent. -/
def findGrade (id : Option String) (assigns : List Assignment) : Screen (Option Rat) := do
  let (totalGrade, numAssignsTaken) ← assigns.foldlM (addGrade id) (0, 0)
  pure (if numAssignsTaken = 0 then none else some (totalGrade / numAssignsTaken * 100))

/-- One round of the loop of `getAvgTime`, over the total and the number timed. -/
def addTime (assignment : Assignment) (timed : Rat × Nat) (i : Student) : Screen (Rat × Nat) := do
  match ← assignment.resultOf i.id with
  | some result =>
      let questMetrics ← Screen.unwrap result.timeTakenPerQuestion
      pure (timed.1 + questMetrics.sum, timed.2 + 1)
  | none => pure timed

def getAvgTime (assignment : Assignment) (studentList : List Student) : Screen (Option Rat) := do
  let (totalTime, hasTime) ← studentList.foldlM (addTime assignment) (0, 0)
  pure (if hasTime = 0 then none else some (totalTime / hasTime))

/-! ## Lists of assignments -/

structure AssignmentList where
  listAssignments : List Assignment
  /-- `N/A` below zero. -/
  grade : Option Rat
  green : List Bool

/-- `StudentAssignmentsView` shows the grades one by one as well. -/
def StudentAssignmentsView.makeScrollView (id : Option String) (assigns : List Assignment) :
    Screen (AssignmentList × List (Option Rat)) := do
  let grade ← findGrade id assigns
  let green ← assigns.mapM (submittedBy id)
  let grades ← assigns.mapM (gradeLabel id)
  pure (⟨assigns, grade.filter (0 ≤ ·), green⟩, grades)

def StudentAssignmentsView.viewDidLoad (now : Rat) :
    App (Screen (AssignmentList × List (Option Rat))) := do
  let res ← (← get).currentClassroom.getAssignmentObjects now
  pure (makeScrollView (← get).currentUser.id res)

def ParentStudentOverview.makeScrollView (studentID : String) (assigns : List Assignment) :
    Screen AssignmentList := do
  let grade ← findGrade (some studentID) assigns
  let green ← assigns.mapM (submittedBy (some studentID))
  pure ⟨assigns, grade.filter (0 ≤ ·), green⟩

def ParentStudentOverview.viewDidLoad (now : Rat) (studentID : String) :
    App (Screen AssignmentList) := do
  let student ← App.ask fun s => getStudentByID s studentID
  let _ ← App.unwrap student.firstName
  let _ ← App.unwrap student.lastName
  let classID ← App.unwrap student.classID
  let classroom ← App.ask fun s => DatabaseHelper.getClassroomFromID s classID
  let res ← classroom.getAssignmentObjects now
  pure (makeScrollView studentID res)

def TeacherAssignmentPage.viewDidLoad (now : Rat) : App (List Assignment) := do
  (← get).currentClassroom.getAssignmentObjects now

/-- The file paths listed. -/
def TeacherFiles.viewDidLoad (now : Rat) : App (Screen (List String)) := do
  let res ← (← get).currentClassroom.getAssignmentObjects now
  pure (res.mapM fun a => Screen.unwrap a.filePath)

def TeacherStudentListPage.viewDidLoad : App (List Student) := do
  (← get).currentClassroom.getStudentObjects

/-- The position of the last assignment of the same name, which the next screen
is opened at. `caseInsensitiveCompare` says whether two names are the same. -/
def QuizResults.giveSubmitGesture (caseInsensitiveCompare : String → String → Bool)
    (currentAssignment : Assignment) (listAssignments : List Assignment) : Screen Nat :=
  listAssignments.zipIdx.foldlM (fun assignNum i => do
    let name ← Screen.unwrap i.1.name
    let current ← Screen.unwrap currentAssignment.name
    pure (if caseInsensitiveCompare name current then i.2 else assignNum)) 0

/-- `finalQuizGrade` is the text of the last grade, parsed. -/
def QuizResults.viewDidLoad (caseInsensitiveCompare : String → String → Bool)
    (currentAssignment : Assignment) (finalQuizGrade : Option Rat) (now : Rat) :
    App (Screen Nat) := do
  let _ ← App.unwrap finalQuizGrade
  let _ ← App.unwrap currentAssignment.name
  let res ← (← get).currentClassroom.getAssignmentObjects now
  pure (giveSubmitGesture caseInsensitiveCompare currentAssignment res)

/-! ## One assignment -/

structure QuestionRow where
  question : String
  studentAnswer : String
  answer : String
  time : Rat

/-- What is shown of a submitted result. -/
structure SubmissionShown where
  percentGrade : Rat
  totalTime : Rat
  /-- The average of the class, for a parent. -/
  classAvgTime : Option Rat
  questions : List QuestionRow

structure AssignmentShown where
  assignment : Assignment
  submission : Option SubmissionShown

/-- The assignment at the position, whose name is printed. -/
def getAssignment (assignArray : List Assignment) (assignIndex : Nat) : Screen Assignment := do
  let assignment ← Screen.item assignArray assignIndex
  let _ ← Screen.unwrap assignment.name
  pure assignment

/-- The rows of `makeScrollView`, one for each problem. -/
def questionRows (listQuestions : List Problem) (studentAns : List String)
    (questMetrics : List Rat) : Screen (List QuestionRow) :=
  listQuestions.zipIdx.mapM fun p => do
    let studentAnswer ← Screen.item studentAns p.2
    let time ← Screen.item questMetrics p.2
    pure { question := p.1.question, studentAnswer, answer := p.1.answer, time }

/-- `populateAssignPageLabels` of the overviews of one student's assignment.
`getAvgTime` is what the parent's computes first of a submitted result. -/
def populateAssignPageLabels (studentID : Option String) (getAvgTime : Screen (Option Rat))
    (assignment : Assignment) : Screen AssignmentShown := do
  match ← assignment.resultOf studentID with
  | none => pure ⟨assignment, none⟩
  | some studentResult =>
      if studentResult.isSubmitted then
        let classAvgTime ← getAvgTime
        let listQuestions ← Screen.unwrap assignment.problems
        let studentAns ← Screen.unwrap studentResult.studentAnswers
        let questMetrics ← Screen.unwrap studentResult.timeTakenPerQuestion
        let questions ← questionRows listQuestions studentAns questMetrics
        pure ⟨assignment, some
          { percentGrade := studentResult.grade * 100, totalTime := questMetrics.sum
            classAvgTime, questions }⟩
      else pure ⟨assignment, none⟩

namespace StudentAssignmentOverview

def populate (id : Option String) (assignIndex : Nat) (res : List Assignment) :
    Screen AssignmentShown := do
  let assignment ← getAssignment res assignIndex
  populateAssignPageLabels id (pure none) assignment

def viewDidLoad (now : Rat) (assignIndex : Nat) : App (Screen AssignmentShown) := do
  let res ← (← get).currentClassroom.getAssignmentObjects now
  pure (populate (← get).currentUser.id assignIndex res)

end StudentAssignmentOverview

namespace TeacherStudentAnswers

def populate (studentID : String) (assignIndex : Nat) (res : List Assignment) :
    Screen AssignmentShown := do
  let assignment ← getAssignment res assignIndex
  populateAssignPageLabels (some studentID) (pure none) assignment

def viewDidLoad (now : Rat) (studentID : String) (assignIndex : Nat) :
    App (Screen AssignmentShown) := do
  let student ← App.ask fun s => getStudentByID s studentID
  let classID ← App.unwrap student.classID
  let classroom ← App.ask fun s => DatabaseHelper.getClassroomFromID s classID
  let res ← classroom.getAssignmentObjects now
  pure (populate studentID assignIndex res)

end TeacherStudentAnswers

namespace ParentStudentAssignmentOverview

/-- Every student's id is printed. -/
def getStudentList (students : List Student) : Screen (List Student) :=
  students.mapM fun i => do
    let _ ← Screen.unwrap i.id
    pure i

def populate (studentID : String) (assignIndex : Nat) (students : List Student)
    (res : List Assignment) : Screen AssignmentShown := do
  let assignment ← getAssignment res assignIndex
  let studentList ← getStudentList students
  populateAssignPageLabels (some studentID) (getAvgTime assignment studentList) assignment

def viewDidLoad (now : Rat) (studentID : String) (assignIndex : Nat) :
    App (Screen AssignmentShown) := do
  let student ← App.ask fun s => getStudentByID s studentID
  let classID ← App.unwrap student.classID
  let classroom ← App.ask fun s => DatabaseHelper.getClassroomFromID s classID
  let students ← classroom.getStudentObjects
  let res ← classroom.getAssignmentObjects now
  pure (populate studentID assignIndex students res)

end ParentStudentAssignmentOverview

namespace TeacherAssignmentOverview

structure StudentRow where
  studentID : String
  firstName : String
  lastName : String
  /-- The grade in percent and the total time of a submitted result. -/
  submission : Option (Rat × Rat)

structure Shown where
  assignment : Assignment
  avgTime : Option Rat
  rows : List StudentRow

def studentRow (assignment : Assignment) (student : Student) : Screen StudentRow := do
  let studentID ← Screen.unwrap student.id
  let firstName ← Screen.unwrap student.firstName
  let lastName ← Screen.unwrap student.lastName
  match ← assignment.resultOf (some studentID) with
  | none => pure { studentID, firstName, lastName, submission := none }
  | some studentResult =>
      if studentResult.isSubmitted then
        let questMetrics ← Screen.unwrap studentResult.timeTakenPerQuestion
        pure { studentID, firstName, lastName,
               submission := some (studentResult.grade * 100, questMetrics.sum) }
      else pure { studentID, firstName, lastName, submission := none }

/-- The result that `populateAssignPageLabels` grabs before anything else: the
first student's, without looking whether there is one. The index is evaluated
before the list of results is unwrapped. -/
def ranResult (assignment : Assignment) (studentList : List Student) : Screen Result := do
  let first ← Screen.item studentList 0
  let id ← Screen.unwrap first.id
  let ranResult ← assignment.resultAt (assignment.getResultIndexByID id)
  let found ← studentList.findSomeM? fun j => assignment.resultOf j.id
  pure (found.getD ranResult)

def populate (assignIndex : Nat) (studentList : List Student) (res : List Assignment) :
    Screen Shown := do
  let assignment ← getAssignment res assignIndex
  let _ ← ranResult assignment studentList
  let avgTime ← getAvgTime assignment studentList
  let rows ← studentList.mapM (studentRow assignment)
  pure { assignment, avgTime, rows }

def viewDidLoad (now : Rat) (assignIndex : Nat) : App (Screen Shown) := do
  let students ← (← get).currentClassroom.getStudentObjects
  let res ← (← get).currentClassroom.getAssignmentObjects now
  pure (populate assignIndex students res)

end TeacherAssignmentOverview

/-! ## One student -/

namespace TeacherOverviewStudentList

structure Shown where
  student : Student
  gradePercent : Option Rat
  green : List Bool
  grades : List (Option Rat)

def populate (studentIndex : Nat) (listAssignments : List Assignment) (res : List Student) :
    Screen Shown := do
  let student ← Screen.item res studentIndex
  let gradePercent ← findGrade student.id listAssignments
  let green ← listAssignments.mapM (submittedBy student.id)
  let grades ← listAssignments.mapM (gradeLabel student.id)
  pure { student, gradePercent, green, grades }

/-- The contact is looked up once the student is shown. -/
def popStudentParent (student : Student) : App Unit :=
  match student.parentID with
  | none => pure ()
  | some parentID => App.detach do
      let res ← App.ask fun s => getUserByID s parentID
      let parent ← App.unwrap res.asParent
      let _ ← App.unwrap parent.firstName
      let _ ← App.unwrap parent.lastName

def viewDidLoad (now : Rat) (studentIndex : Nat) : App (Screen Shown) := do
  let assigns ← (← get).currentClassroom.getAssignmentObjects now
  let res ← (← get).currentClassroom.getStudentObjects
  match populate studentIndex assigns res with
  | .error stop => pure (.error stop)
  | .ok shown =>
      popStudentParent shown.student
      pure (.ok shown)

end TeacherOverviewStudentList

/-! ## The teacher of a class -/

/-- In the place of a user that is not a teacher a new one is put, with the id
`NULL`. -/
def Classroom.getTeacherObject (c : Classroom) : App Teacher := do
  let teacherID ← App.unwrap c.teacherID
  let res ← App.ask fun s => getUserByID s teacherID
  match res.asTeacher with
  | some teacher => pure teacher
  | none =>
      App.perform ((IUser.teacher (Teacher.new "NULL")).setID "NULL")
      pure (Teacher.new "NULL")

/-! ## Accounts -/

def StudentAccount.viewDidLoad : App (Student × Parent) := do
  let id ← App.unwrap (← get).currentUser.id
  let stu ← App.ask fun s => getStudentByID s id
  let parentID ← App.unwrap stu.parentID
  let par ← App.ask fun s => getParentByID s parentID
  let _ ← App.unwrap par.firstName
  let _ ← App.unwrap par.lastName
  pure (stu, par)

def TeacherAccount.viewDidLoad : App Teacher := do
  let id ← App.unwrap (← get).currentUser.id
  App.ask fun s => getTeacherByID s id

/-- The user that is shown is the current one, not the one looked up. -/
def ParentAccount.viewDidLoad : App IUser := do
  let id ← App.unwrap (← get).currentUser.id
  let _ ← App.ask fun s => getUserByID s id
  pure (← get).currentUser

/-- `confirmBioChange`, of the student's and of the teacher's screen. -/
def confirmBioChange (newBio : String) : App Unit := do
  App.perform ((← get).currentUser.setBio newBio)

end GradeIo
