import GradeIo.Database

/-!
# Results, problems and assignments

`Result.swift` and `Assignment.swift`. Dates are seconds since the reference
date and times are seconds, all exact. Object properties are fields; a method
that writes to the database gives the write (`none` where it traps), so that
the same method serves a single handler and an interleaving of many clients.

The stored form of a result is `Result.getDictionary`; `Result.ofDictionary`
reads it back (`ofDictionary_getDictionary`), so two results are stored
equal only if they are equal.
-/

namespace GradeIo

open DocDb Keyed

/-! ## Results -/

structure Result where
  studentAnswers : Option (List String)
  startTime : Rat
  individualStartTime : Rat
  timeTaken : Rat
  timeTakenPerQuestion : Option (List Rat)
  studentID : String
  assignmentID : String
  grade : Rat
  isSubmitted : Bool
deriving DecidableEq, Repr

namespace Result

/-- `Result()`, at clock reading `now`. -/
def init (now : Rat) : Result where
  grade := 0
  isSubmitted := false
  studentID := ""
  assignmentID := ""
  timeTaken := 0
  startTime := now
  studentAnswers := some []
  timeTakenPerQuestion := some []
  individualStartTime := now

def startTimer (r : Result) (now : Rat) : Result := { r with startTime := now }

def startIndividualQuestionTimer (r : Result) (now : Rat) : Result :=
  { r with individualStartTime := now }

def stopTime (r : Result) (now : Rat) : Result :=
  { r with timeTaken := r.timeTaken + (now - r.startTime), startTime := now }

/-- Traps without per-question times and on an index out of range. -/
def stopIndividualTime (r : Result) (now : Rat) (ind : Nat) : Option Result := do
  let times ← r.timeTakenPerQuestion
  let t ← times[ind]?
  some { r with
    timeTakenPerQuestion := some (times.set ind (t + (now - r.individualStartTime)))
    individualStartTime := now }

/-- The synthesized encoder: a nil optional is left out. -/
def getDictionary (r : Result) : Dict :=
  (r.studentAnswers.map fun l => ("StudentAnswers", Value.array (l.map .string))).toList ++
  [("StartTime", .number r.startTime),
   ("IndividualStartTime", .number r.individualStartTime),
   ("TimeTaken", .number r.timeTaken)] ++
  (r.timeTakenPerQuestion.map fun l =>
    ("TimeTakenPerQuestion", Value.array (l.map .number))).toList ++
  [("StudentID", .string r.studentID),
   ("AssignmentID", .string r.assignmentID),
   ("Grade", .number r.grade),
   ("IsSubmitted", .bool r.isSubmitted)]

/-- The synthesized decoder. -/
def decode (d : Dict) : Option Result := do
  let studentAnswers ← decodeIfPresent (asArray asString) d "StudentAnswers"
  let startTime ← decodeKey asNumber d "StartTime"
  let individualStartTime ← decodeKey asNumber d "IndividualStartTime"
  let timeTaken ← decodeKey asNumber d "TimeTaken"
  let timeTakenPerQuestion ← decodeIfPresent (asArray asNumber) d "TimeTakenPerQuestion"
  let studentID ← decodeKey asString d "StudentID"
  let assignmentID ← decodeKey asString d "AssignmentID"
  let grade ← decodeKey asNumber d "Grade"
  let isSubmitted ← decodeKey asBool d "IsSubmitted"
  some { studentAnswers, startTime, individualStartTime, timeTaken, timeTakenPerQuestion,
         studentID, assignmentID, grade, isSubmitted }

/-- `Result(dictionary:)`. -/
def ofDictionary : Dict → Option Result := initDictionary decode

theorem isJSONList_map {α : Type} (f : α → Value) (h : ∀ x, (f x).isJSON = true) (l : List α) :
    Value.isJSONList (l.map f) = true := by
  induction l with
  | nil => rfl
  | cons x xs ih => simp [Value.isJSONList, h, ih]

theorem isValid_getDictionary (r : Result) : isValidJSONObject r.getDictionary = true := by
  have hs : ∀ l : List String, Value.isJSONList (l.map .string) = true :=
    isJSONList_map _ fun _ => rfl
  have hn : ∀ l : List Rat, Value.isJSONList (l.map .number) = true :=
    isJSONList_map _ fun _ => rfl
  obtain ⟨answers, _, _, _, times, _, _, _, _⟩ := r
  cases answers <;> cases times <;>
    simp [isValidJSONObject, getDictionary, Value.isJSONFields, Value.isJSON, hs, hn]

theorem decode_getDictionary (r : Result) : decode r.getDictionary = some r := by
  have hs : ∀ l : List String, asArray asString (.array (l.map .string)) = some l :=
    asArray_map fun _ => rfl
  have hn : ∀ l : List Rat, asArray asNumber (.array (l.map .number)) = some l :=
    asArray_map fun _ => rfl
  obtain ⟨answers, _, _, _, times, _, _, _, _⟩ := r
  cases answers <;> cases times <;>
    simp [decode, getDictionary, decodeKey, decodeIfPresent, List.lookup, hs, hn,
      asNumber, asString, asBool]

theorem ofDictionary_getDictionary (r : Result) : ofDictionary r.getDictionary = some r := by
  rw [ofDictionary, initDictionary, if_pos r.isValid_getDictionary, decode_getDictionary]

/-- The element that is stored for a result. -/
def toValue (r : Result) : Value := .map r.getDictionary

theorem toValue_injective : Function.Injective toValue := by
  intro r r' h
  have hd : r.getDictionary = r'.getDictionary := by
    simpa [toValue] using h
  have := r.ofDictionary_getDictionary
  rw [hd, r'.ofDictionary_getDictionary] at this
  exact (Option.some.inj this).symm

end Result

/-! ## Problems -/

structure Problem where
  question : String
  answer : String
deriving DecidableEq, Repr

namespace Problem

/-- The synthesized decoder requires both keys, in spite of the defaults. -/
def decode (d : Dict) : Option Problem := do
  let question ← decodeKey asString d "Question"
  let answer ← decodeKey asString d "Answer"
  some { question, answer }

/-- `Problem(dictionary:)`. -/
def ofDictionary : Dict → Option Problem := initDictionary decode

/-- The synthesized encoder. -/
def getDictionary (p : Problem) : Dict :=
  [("Question", .string p.question), ("Answer", .string p.answer)]

theorem isValid_getDictionary (p : Problem) : isValidJSONObject p.getDictionary = true := rfl

theorem decode_getDictionary (p : Problem) : decode p.getDictionary = some p := by
  simp [decode, getDictionary, decodeKey, List.lookup, asString]

theorem ofDictionary_getDictionary (p : Problem) : ofDictionary p.getDictionary = some p := by
  rw [ofDictionary, initDictionary, if_pos p.isValid_getDictionary, decode_getDictionary]

/-- The element that is stored for a problem. -/
def toValue (p : Problem) : Value := .map p.getDictionary

theorem toValue_injective : Function.Injective toValue := by
  intro p p' h
  have hd : p.getDictionary = p'.getDictionary := by
    simpa [toValue] using h
  have := p.ofDictionary_getDictionary
  rw [hd, p'.ofDictionary_getDictionary] at this
  exact (Option.some.inj this).symm

end Problem

/-! ## Assignments -/

structure Assignment where
  results : Option (List Result)
  problems : Option (List Problem)
  dueDate : Option Rat
  id : Option String
  classID : Option String
  filePath : Option String
  description : Option String
  name : Option String
deriving DecidableEq, Repr

/-- The JSON form of a Firestore timestamp. -/
def asTimestamp : Value → Option Rat
  | .map d => do
      let seconds ← decodeKey asNumber d "seconds"
      let nanoseconds ← decodeKey asNumber d "nanoseconds"
      if seconds.isInt ∧ nanoseconds.isInt then some (seconds + nanoseconds / 1000000000) else none
  | _ => none

namespace Assignment

/-- The synthesized decoder. -/
def decode (d : Dict) : Option Assignment := do
  let results ← decodeIfPresent (asArray fun v => (asDict v).bind Result.decode) d Strings.results
  let problems ← decodeIfPresent (asArray fun v => (asDict v).bind Problem.decode) d Strings.problems
  let dueDate ← decodeIfPresent asTimestamp d Strings.dueDate
  let id ← decodeIfPresent asString d Strings.id
  let classID ← decodeIfPresent asString d Strings.classID
  let filePath ← decodeIfPresent asString d Strings.filePath
  let description ← decodeIfPresent asString d Strings.description
  let name ← decodeIfPresent asString d Strings.name
  some { results, problems, dueDate, id, classID, filePath, description, name }

/-- `Assignment(dictionary:)`. -/
def ofDictionary : Dict → Option Assignment := initDictionary decode

/-! ### Setters -/

/-- One field of the assignment's own document; traps without an id. -/
def save (a : Assignment) (key : String) (value : Value) : Option Write :=
  a.id.bind fun id => DatabaseHelper.savePropertyToDatabase Strings.assignment id key value

/-- The object `Assignment(newID:)` leaves, at clock reading `now`. -/
def new (newID : String) (now : Rat) : Assignment where
  results := some []
  problems := some []
  dueDate := some now
  id := some newID
  classID := some ""
  filePath := some ""
  description := some ""
  name := some ""

/-- The write of `SetID`, which `Assignment(newID:)` ends with. -/
def setID (newID : String) : Option Write :=
  DatabaseHelper.savePropertyToDatabase Strings.assignment newID Strings.id (.string newID)

/-- `dateFromString` stands for the `DateFormatter` of format `MM/dd/yy`, whose
answers depend on the device's calendar and time zone. The id is read only
once the date has parsed. -/
def setDueDate (dateFromString : String → Option Rat) (a : Assignment) (newDate : String) :
    Option (Bool × List Write) :=
  match dateFromString newDate with
  | some result => (a.save Strings.dueDate (.timestamp result)).map fun w => (true, [w])
  | none => some (false, [])

/-- `??` binds weaker than `+`: only a missing user id is replaced by `"_"`. -/
def generateID (currentUserID : Option String) (draw : Nat) (a : Assignment) : Assignment :=
  { a with id := some (currentUserID.getD ("" ++ "_") ++ toString draw) }

def setClassID (a : Assignment) (newClassID : String) : Option Write :=
  a.save Strings.classID (.string newClassID)

def setDescription (a : Assignment) (newDescription : String) : Option Write :=
  a.save Strings.description (.string newDescription)

def setName (a : Assignment) (newName : String) : Option Write :=
  a.save Strings.name (.string newName)

def setFilePath (a : Assignment) (newPath : String) : Option Write :=
  a.save Strings.filePath (.string newPath)

def clearResults (a : Assignment) : Option Write :=
  a.save Strings.results (.array [])

def addResult (a : Assignment) (newResult : Result) : Option Write :=
  a.id.bind fun id =>
    (documentPath Strings.assignment id).map fun p => .unionUpdate p Strings.results newResult.toValue

/-- The database takes dictionaries and refuses structures with an exception:
only an empty list is written. -/
def setProblems (a : Assignment) (newProblems : List Problem) : Option Write :=
  if newProblems = [] then a.save Strings.problems (.array []) else none

def addProblem (a : Assignment) (question answer : String) : Option Write :=
  a.id.bind fun id => (documentPath Strings.assignment id).map fun p =>
    .unionMerge p Strings.problems (Problem.toValue ⟨question, answer⟩)

/-! ### The search loop -/

/-- The loop of `GetResultIndexByID`, from position `count` on. -/
def resultIndexFrom (id : String) : List Result → Int → Int
  | [], _ => -1
  | r :: rs, count => if r.studentID = id then count else resultIndexFrom id rs (count + 1)

def getResultIndexByID (a : Assignment) (id : String) : Int :=
  resultIndexFrom id (a.results.getD []) 0

/-- The loop finds the first result of the student. -/
theorem resultIndexFrom_eq (id : String) (rs : List Result) (count : Int) :
    resultIndexFrom id rs count =
      match rs.findIdx? (fun r => r.studentID = id) with
      | some i => count + i
      | none => -1 := by
  induction rs generalizing count with
  | nil => rfl
  | cons r rs ih =>
      rw [resultIndexFrom, List.findIdx?_cons]
      by_cases h : r.studentID = id
      · simp [h]
      · rw [if_neg h, ih, if_neg (by simpa using h)]
        cases rs.findIdx? fun r => decide (r.studentID = id) with
        | none => rfl
        | some i =>
            show count + 1 + (i : Int) = count + ((i + 1 : Nat) : Int)
            omega

theorem getResultIndexByID_eq {a : Assignment} {id : String} {rs : List Result} {i : Nat}
    (hrs : a.results = some rs) (hi : rs.findIdx? (fun r => r.studentID = id) = some i) :
    a.getResultIndexByID id = i := by
  simp [getResultIndexByID, resultIndexFrom_eq, hrs, hi]

/-- Everything the search can come to: no result of the student, or the position
of the first one. -/
theorem getResultIndexByID_cases (a : Assignment) (id : String) :
    (a.getResultIndexByID id = -1
        ∧ (a.results.getD []).find? (fun r => r.studentID = id) = none)
      ∨ ∃ rs i r, a.results = some rs ∧ a.getResultIndexByID id = (i : Nat) ∧ rs[i]? = some r
          ∧ rs.find? (fun r => r.studentID = id) = some r := by
  cases hfind : (a.results.getD []).findIdx? fun r => decide (r.studentID = id) with
  | none =>
      refine Or.inl ⟨by rw [getResultIndexByID, resultIndexFrom_eq, hfind], ?_⟩
      rw [List.find?_eq_none]
      intro r hr
      simpa using List.findIdx?_eq_none_iff.mp hfind r hr
  | some i =>
      obtain ⟨hlt, hhit, hbefore⟩ := List.findIdx?_eq_some_iff_getElem.mp hfind
      cases hrs : a.results with
      | none => simp [hrs] at hlt
      | some rs =>
          simp only [hrs, Option.getD_some] at hfind hlt hhit hbefore
          refine Or.inr ⟨rs, i, rs[i], rfl, getResultIndexByID_eq hrs hfind,
            List.getElem?_eq_getElem hlt, ?_⟩
          rw [List.find?_eq_some_iff_getElem]
          exact ⟨hhit, i, hlt, rfl, fun j hj => by simpa using hbefore j hj⟩

/-- The loop finds a result that shares its student with no other one. -/
theorem getResultIndexByID_of_mem {a : Assignment} {rs : List Result} {r : Result}
    (hrs : a.results = some rs) (hr : r ∈ rs)
    (hone : ∀ x ∈ rs, x.studentID = r.studentID → x = r) :
    ∃ i : Nat, a.getResultIndexByID r.studentID = i ∧ rs[i]? = some r := by
  rcases a.getResultIndexByID_cases r.studentID with
    ⟨-, hnone⟩ | ⟨rs', i, x, hrs', hindex, hx, hfind⟩
  · rw [hrs, Option.getD_some] at hnone
    simpa using List.find?_eq_none.mp hnone r hr
  · obtain rfl := Option.some.inj (hrs.symm.trans hrs')
    have hstudent : x.studentID = r.studentID := by simpa using List.find?_some hfind
    obtain rfl := hone x (List.mem_of_find?_eq_some hfind) hstudent
    exact ⟨i, hindex, hx⟩

/-! ### Listening -/

/-- Where `Listen` attaches: traps without an id. -/
def listen (a : Assignment) : Option DocPath :=
  a.id.bind (documentPath Strings.assignment)

/-- A field that is force-cast to a string when it is present. -/
def castString (doc : Doc) (key : String) (old : Option String) : Option (Option String) :=
  match doc[key]? with
  | some v => (asString v).map some
  | none => some old

/-- A list field, decoded element by element with a forced unwrap; a field that
is no list of dictionaries is skipped. -/
def castList {α : Type} (ofDictionary : Dict → Option α) (doc : Doc) (key : String)
    (old : Option (List α)) : Option (Option (List α)) :=
  match doc[key]?.bind (asArray asDict) with
  | some ds => (ds.mapM ofDictionary).map some
  | none => some old

/-- A field that is force-cast to a timestamp when it is present. -/
def castTimestamp (doc : Doc) (key : String) (old : Option Rat) : Option (Option Rat) :=
  match doc[key]? with
  | some (.timestamp date) => some (some date)
  | some _ => none
  | none => some old

/-- The callback of `Listen`: `none` where a forced cast or unwrap traps. The
name is not read. -/
def setPropertiesFromDoc (a : Assignment) (doc : Doc) : Option Assignment := do
  let problems ← castList Problem.ofDictionary doc Strings.problems a.problems
  let results ← castList Result.ofDictionary doc Strings.results a.results
  let dueDate ← castTimestamp doc Strings.dueDate a.dueDate
  let classID ← castString doc Strings.classID a.classID
  let filePath ← castString doc Strings.filePath a.filePath
  let description ← castString doc Strings.description a.description
  some { a with problems, results, dueDate, classID, filePath, description }

end Assignment

end GradeIo
