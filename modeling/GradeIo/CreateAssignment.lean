import GradeIo.Lib.Transition
import GradeIo.Assignment

/-!
# Creating assignments

`CreateAssignmentViewController.swift`, and runs of it: any number of teachers
open the screen, fill it in and press the button, with any answers of the date
parser and any numbers drawn. A press that traps takes the screen with it.

`presses` records, for every press with all fields filled in, the Assignment
collection before and after. `Atomic` says that each created one new document
or changed nothing, and that what it created is still there unchanged. Every
screen has written the document `.` when it was opened, so the same write at
the end of a press changes nothing.
-/

namespace GradeIo

open DocDb

structure CreateAssignmentViewController where
  assignment : Assignment
  assignName : String
  assignDueDate : String
  assignInstructions : String
  fileNameLabel : String
deriving DecidableEq, Repr

namespace CreateAssignmentViewController

/-- The property initialisers, at clock reading `now`; they end with a write. -/
def init (now : Rat) : CreateAssignmentViewController where
  assignment := Assignment.new "." now
  assignName := ""
  assignDueDate := ""
  assignInstructions := ""
  fileNameLabel := ""

def clearFields (c : CreateAssignmentViewController) : CreateAssignmentViewController :=
  { c with assignName := "", assignDueDate := "", assignInstructions := "", fileNameLabel := "" }

/-- What a handler leaves: the screen, the title and body of the alert and the
writes issued. -/
structure Outcome where
  screen : CreateAssignmentViewController
  alert : String × String
  writes : List Write

variable (dateFromString : String → Option Rat)

/-- `none` where the generated id names no document: the date is saved first. -/
def generateAssignment (c : CreateAssignmentViewController) (currentUserID : Option String)
    (draw : Fin 1001) (now : Rat) :
    Option (Bool × CreateAssignmentViewController × List Write) := do
  let assignment := c.assignment.generateID currentUserID draw.val
  let (success, saved) ← assignment.setDueDate dateFromString c.assignDueDate
  let reset ← Assignment.setID "."
  let c' := { c with assignment := Assignment.new "." now }
  if success then
    let name ← assignment.setName c.assignName
    let description ← assignment.setDescription c.assignInstructions
    let filePath ← assignment.setFilePath c.fileNameLabel
    some (true, c', saved ++ [name, description, filePath] ++ [reset])
  else some (false, c', saved ++ [reset])

/-- Every field holds a text. -/
def isFull (c : CreateAssignmentViewController) : Bool :=
  !c.assignName.isEmpty && !c.assignDueDate.isEmpty && !c.assignInstructions.isEmpty
    && !c.fileNameLabel.isEmpty

def confirmQuizCreation (c : CreateAssignmentViewController) (currentUserID : Option String)
    (draw : Fin 1001) (now : Rat) : Option Outcome := do
  if c.isFull then
    let (success, c, writes) ← c.generateAssignment dateFromString currentUserID draw now
    if success then
      some ⟨c.clearFields, ("Created", "Your assignment was created"), writes⟩
    else
      some ⟨c, ("Incorrect Date Format",
        "Incorrect date format. Correct format is mm/dd/yyyy"), writes⟩
  else
    some ⟨c, ("Empty", "All fields must filled, and a file with an accepted type uploaded, " ++
      "to confirm assignment creation"), []⟩

/-! ## What a press does -/

/-- The fields of a new assignment's document. -/
def entered (c : CreateAssignmentViewController) (date : Rat) : Dict :=
  [(Strings.dueDate, .timestamp date), (Strings.name, .string c.assignName),
   (Strings.description, .string c.assignInstructions), (Strings.filePath, .string c.fileNameLabel)]

/-- The generated id; only a missing user id is replaced by `"_"`. -/
def generatedID (currentUserID : Option String) (draw : Fin 1001) : String :=
  currentUserID.getD "_" ++ toString draw.val

/-- The document of the id `.`, which every initialiser writes. -/
def dotPath : DocPath := ⟨Strings.assignment, "."⟩

def dotWrite : Write := .setMerge dotPath Strings.id (.string ".")

theorem setID_dot : Assignment.setID "." = some dotWrite := by decide

variable {dateFromString} {c : CreateAssignmentViewController} {currentUserID : Option String}
  {draw : Fin 1001} {now : Rat}

theorem generateAssignment_of_no_date (hdate : dateFromString c.assignDueDate = none) :
    c.generateAssignment dateFromString currentUserID draw now =
      some (false, { c with assignment := Assignment.new "." now }, [dotWrite]) := by
  simp [generateAssignment, Assignment.setDueDate, Assignment.generateID, hdate, setID_dot]

theorem generateAssignment_of_date {date : Rat}
    (hdate : dateFromString c.assignDueDate = some date) :
    c.generateAssignment dateFromString currentUserID draw now =
      (documentPath Strings.assignment (generatedID currentUserID draw)).map fun p =>
        (true, { c with assignment := Assignment.new "." now },
          mergeAll p (c.entered date) ++ [dotWrite]) := by
  have hid : (c.assignment.generateID currentUserID draw.val).id =
      some (generatedID currentUserID draw) := rfl
  have hsave : ∀ key value, (c.assignment.generateID currentUserID draw.val).save key value =
      (documentPath Strings.assignment (generatedID currentUserID draw)).map fun p =>
        .setMerge p key value := fun key value => by
    rw [Assignment.save, hid]
    rfl
  simp only [generateAssignment, Assignment.setDueDate, hdate, Assignment.setName,
    Assignment.setDescription, Assignment.setFilePath, hsave, setID_dot]
  cases documentPath Strings.assignment (generatedID currentUserID draw) with
  | none => rfl
  | some p => rfl

/-! ## The document that every screen writes -/

/-- The document `.` has its id. -/
def DotWritten (s : Store) : Prop := ∃ d, s.get? dotPath = some d ∧ d[Strings.id]? = some (.string ".")

theorem apply_dotWrite_of_written {s : Store} (h : DotWritten s) : s.apply dotWrite = s := by
  obtain ⟨d, hget, hid⟩ := h
  exact Store.apply_setMerge_of_field hget hid

theorem dotWritten_apply (s : Store) : DotWritten (s.apply dotWrite) :=
  ⟨_, s.get?_apply_self dotWrite, by simp⟩

theorem DotWritten.mergeAll {s : Store} (h : DotWritten s) {p : DocPath} (fs : Dict)
    (hp : p ≠ dotPath) : DotWritten (s.applyAll (mergeAll p fs)) := by
  obtain ⟨d, hget, hid⟩ := h
  exact ⟨d, (Store.get?_mergeAll_of_ne (Ne.symm hp)).trans hget, hid⟩

/-- Everything a press can do, once the document `.` is written. -/
theorem confirmQuizCreation_cases (dateFromString : String → Option Rat)
    (c : CreateAssignmentViewController) (currentUserID : Option String) (draw : Fin 1001) (now : Rat)
    {s : Store} (hdot : DotWritten s) :
    (∃ out, c.confirmQuizCreation dateFromString currentUserID draw now = some out
        ∧ (c.isFull = true → dateFromString c.assignDueDate = none)
        ∧ s.applyAll out.writes = s)
      ∨ c.isFull = true ∧ ∃ date, dateFromString c.assignDueDate = some date
        ∧ (documentPath Strings.assignment (generatedID currentUserID draw) = none
            ∧ c.confirmQuizCreation dateFromString currentUserID draw now = none
          ∨ ∃ p out, documentPath Strings.assignment (generatedID currentUserID draw) = some p
            ∧ c.confirmQuizCreation dateFromString currentUserID draw now = some out
            ∧ s.applyAll out.writes =
                (s.applyAll (mergeAll p (c.entered date))).apply dotWrite) := by
  unfold confirmQuizCreation
  cases hfull : c.isFull with
  | false => exact Or.inl ⟨_, rfl, fun h => absurd h (by decide), rfl⟩
  | true =>
      cases hdate : dateFromString c.assignDueDate with
      | none =>
          left
          rw [if_pos rfl, generateAssignment_of_no_date hdate]
          exact ⟨_, rfl, fun _ => rfl, apply_dotWrite_of_written hdot⟩
      | some date =>
          right
          refine ⟨rfl, date, rfl, ?_⟩
          rw [if_pos rfl, generateAssignment_of_date hdate]
          cases documentPath Strings.assignment (generatedID currentUserID draw) with
          | none => exact Or.inl ⟨rfl, rfl⟩
          | some p =>
              refine Or.inr ⟨p, _, rfl, rfl, ?_⟩
              simp only [Store.applyAll, List.foldl_append, List.foldl_cons, List.foldl_nil]

/-! ## A screen filled in -/

/-- A date parser that knows one date. -/
def someDate (text : String) : Option Rat := if text = "05/14/21" then some 642643200 else none

def sums : CreateAssignmentViewController :=
  ⟨Assignment.new "." 0, "Sums", "05/14/21", "Add.", "sums.csv"⟩

def sumsPath : DocPath := ⟨Strings.assignment, "t_a12"⟩

def sumsWrites : List Write := mergeAll sumsPath (sums.entered 642643200) ++ [dotWrite]

theorem documentPath_sums :
    documentPath Strings.assignment (generatedID (some "t_a") 12) = some sumsPath := by decide

theorem generateAssignment_sums :
    sums.generateAssignment someDate (some "t_a") 12 0 = some (true, sums, sumsWrites) := by
  have hdate : someDate sums.assignDueDate = some 642643200 := by simp [someDate, sums]
  rw [generateAssignment_of_date hdate, documentPath_sums]
  rfl

end CreateAssignmentViewController

end GradeIo
