import GradeIo.AddStudent
import GradeIo.Effects
import GradeIo.Lib.Schema
import GradeIo.Setters

/-!
# What the operations store

`Call` is a setter or an add operation of an assignment, a user or a classroom,
made on any object. `schema` says what the calls can put in a field of a
collection; every document that any sequence of them leaves fits it
(`allows_of_reachable`).
-/

namespace GradeIo.ReadPaths

open DocDb Transition Keyed

/-! ## The operations -/

inductive Call where
  | setter (o : Listening) (c : Setter)
  | setUserID (u : IUser) (newID : String)
  | setAssignmentID (newID : String)
  | clearResults (a : Assignment)
  | setProblems (a : Assignment) (newProblems : List Problem)
  | addProblem (a : Assignment) (question answer : String)
  | addResult (a : Assignment) (newResult : Result)
  | addStudentToParent (p : Parent) (newStudent : String)
  | setClassID (newID : String)
  | setTeacherID (newTeacherID : String)
  | setStudents (newStudents : List String)
  | setAssignments (newAssignments : List String)
  | setClassName (c : Classroom) (newName : String)
  | setMeetingInfo (newMeetingInfo : List String)
  | addAssignment (c : Classroom) (newAssignment : String)
  | addStudent (c : Classroom) (newStudent : String)

/-- The object is not kept: the next call may be made on any. -/
def Call.run [TextOps] (dateFromString : String → Option Rat) (description : Rat → String) :
    Call → App Unit
  | setter o c => App.perform (c.write dateFromString description o)
  | setUserID u newID => App.perform (u.setID newID)
  | setAssignmentID newID => App.perform (Assignment.setID newID)
  | clearResults a => App.perform a.clearResults
  | setProblems a newProblems => App.perform (a.setProblems newProblems)
  | addProblem a question answer => App.perform (a.addProblem question answer)
  | addResult a newResult => App.perform (a.addResult newResult)
  | addStudentToParent p newStudent => do let _ ← p.addStudent newStudent
  | setClassID newID => App.perform (Classroom.setID newID)
  | setTeacherID newTeacherID => App.perform (Classroom.setTeacherID newTeacherID)
  | setStudents newStudents => App.perform (Classroom.setStudents newStudents)
  | setAssignments newAssignments => App.perform (Classroom.setAssignments newAssignments)
  | setClassName c newName => App.perform (c.setName newName)
  | setMeetingInfo newMeetingInfo => App.perform (Classroom.setMeetingInfo newMeetingInfo)
  | addAssignment c newAssignment => App.perform ((c.addAssignment newAssignment).map Prod.snd)
  | addStudent c newStudent => do let _ ← c.addStudent newStudent

/-- Any calls, from an empty store; what a call has written before it traps
stays. -/
def system [TextOps] (dateFromString : String → Option Rat) (description : Rat → String) :
    System World Call where
  Init σ := σ.store = fun _ => ∅
  step σ c := some (App.after (c.run dateFromString description) σ)

/-! ## What they put in a field -/

/-- The classes that are read both ways. -/
inductive Model where
  | assignment
  | student
  | teacher
  | parent
  | classroom
deriving DecidableEq

namespace Model

def collection : Model → String
  | assignment => Strings.assignment
  | student => Strings.student
  | teacher => Strings.teacher
  | parent => Strings.parent
  | classroom => Strings.class

/-- The fields of a user of any class. -/
def userTexts : List String :=
  [Strings.id, Strings.firstName, Strings.lastName, Strings.email, Strings.bio, Strings.photoPath,
    Strings.pronouns]

/-- The fields that text is written to. -/
def texts : Model → List String
  | assignment =>
      [Strings.id, Strings.classID, Strings.description, Strings.name, Strings.filePath]
  | student => [Strings.gpa, Strings.classID, Strings.parentID] ++ userTexts
  | teacher => Strings.phone :: userTexts
  | parent => Strings.phone :: userTexts
  | classroom => [Strings.id, Strings.name, Strings.teacherID]

/-- The fields that a list of texts is written to. -/
def lists : Model → List String
  | parent => [Strings.students]
  | classroom => [Strings.studentIDs, Strings.assignmentIDs, Strings.students, Strings.assignment,
      Strings.teacherID]
  | _ => []

/-- The values that the calls write. A student's class is null if the class has
no id. -/
def Allows (m : Model) (k : String) : Value → Prop
  | .string _ => k ∈ m.texts
  | .null => m = student ∧ k = Strings.classID
  | .timestamp _ => m = assignment ∧ k = Strings.dueDate
  | .array vs => (k ∈ m.lists ∧ ∃ l : List String, vs = l.map .string)
      ∨ (m = assignment ∧ k = Strings.results ∧ ∃ rs : List Result, vs = rs.map Result.toValue)
      ∨ (m = assignment ∧ k = Strings.problems ∧ ∃ ps : List Problem, vs = ps.map Problem.toValue)
  | _ => False

/-- The class of a user; the base class has no collection. -/
def ofUser : IUser → Option Model
  | .base _ => none
  | .student _ => some student
  | .teacher _ => some teacher
  | .parent _ => some parent

/-- A nested collection of one class is no collection of another. -/
theorem eq_of_documentPath {m m' : Model} {name : String} {p : DocPath}
    (hp : documentPath m.collection name = some p) (hm : m'.collection = p.collection) :
    m' = m := by
  have hne : m.collection ≠ "" := by cases m <;> decide
  have hhead := head?_collection_of_documentPath hne hp
  rw [← hm] at hhead
  cases m <;> cases m' <;> first | rfl | exact absurd hhead (by decide)

end Model

def schema : Schema := fun c k v => ∀ m : Model, m.collection = c → m.Allows k v

section

variable {m : Model} {name k : String} {v : Value} {p : DocPath} {w : Write}

theorem schema_of_documentPath (hp : documentPath m.collection name = some p)
    (h : m.Allows k v) : schema p.collection k v := by
  intro m' hm'
  obtain rfl := Model.eq_of_documentPath hp hm'
  exact h

/-- An element added to a list, or to a field that does not exist yet. -/
theorem fits_union {α : Type} [DecidableEq α] {toValue : α → Value} (hinj : Function.Injective toValue)
    (hp : documentPath m.collection name = some p)
    (hlist : ∀ l : List α, m.Allows k (.array (l.map toValue)))
    (hinv : ∀ v, m.Allows k v → ∃ l : List α, v = .array (l.map toValue)) (x : α) :
    ∀ old, (∀ u ∈ old, schema p.collection k u) →
      schema p.collection k (.array (addIfAbsent (elements old) (toValue x))) := by
  intro old hold m' hm'
  obtain rfl := Model.eq_of_documentPath hp hm'
  have helements : ∃ l : List α, elements old = l.map toValue := by
    cases old with
    | none => exact ⟨[], rfl⟩
    | some u =>
        obtain ⟨l, rfl⟩ := hinv u (hold u rfl m' hm')
        exact ⟨l, rfl⟩
  obtain ⟨l, hl⟩ := helements
  rw [hl, ← map_addIfAbsent hinj]
  exact hlist _

/-- A write that fits, to a document named below the collection of the class. -/
structure Made (m : Model) (w : Write) : Prop where
  path : ∃ name, documentPath m.collection name = some w.path
  fits : w.Fits schema

theorem made_setMerge (hp : documentPath m.collection name = some p) (h : m.Allows k v) :
    Made m (.setMerge p k v) :=
  ⟨⟨name, hp⟩, schema_of_documentPath hp h⟩

theorem made_save {a : Assignment} (h : Model.assignment.Allows k v) (hw : a.save k v = some w) :
    Made .assignment w := by
  obtain ⟨q, hq, rfl⟩ := Assignment.save_eq_some hw
  obtain ⟨id, -, hp⟩ := Option.bind_eq_some_iff.mp hq
  exact made_setMerge (m := .assignment) hp h

theorem made_saveProperty {m : Model} (h : m.Allows k v)
    (hw : DatabaseHelper.savePropertyToDatabase m.collection name k v = some w) : Made m w := by
  obtain ⟨q, hq, rfl⟩ := Option.map_eq_some_iff.mp hw
  exact made_setMerge hq h

/-- A text property of a user, in a field that its class allows text in. -/
theorem fits_user {u : IUser} {text : String}
    (hk : ∀ m ∈ Model.ofUser u, k ∈ m.texts)
    (hw : DatabaseHelper.saveUserPropertyToDoc u k text = some w) : w.Fits schema := by
  obtain ⟨q, hq, rfl⟩ := DatabaseHelper.saveUserPropertyToDoc_eq_some hw
  cases u with
  | base u =>
      intro m hm
      have hq : documentPath "BaseUser" (u.id.getD "") = some q := hq
      have hhead := head?_collection_of_documentPath (by decide) hq
      rw [← hm] at hhead
      cases m <;> exact absurd hhead (by decide)
  | student u => exact schema_of_documentPath (m := .student) hq (hk .student rfl)
  | teacher u => exact schema_of_documentPath (m := .teacher) hq (hk .teacher rfl)
  | parent u => exact schema_of_documentPath (m := .parent) hq (hk .parent rfl)

theorem Model.mem_texts_of_mem_userTexts {u : IUser} (hk : k ∈ userTexts) :
    ∀ m ∈ ofUser u, k ∈ m.texts := by
  intro m hm
  cases u with
  | base u => cases hm
  | student u => exact Option.some.inj hm ▸ List.mem_append_right _ hk
  | teacher u => exact Option.some.inj hm ▸ List.mem_cons_of_mem _ hk
  | parent u => exact Option.some.inj hm ▸ List.mem_cons_of_mem _ hk

theorem Model.mem_texts_student {s : Student} (hk : k ∈ student.texts) :
    ∀ m ∈ ofUser (.student s), k ∈ m.texts :=
  fun _ hm => Option.some.inj hm ▸ hk

/-- A setter of an assignment saves one value. -/
theorem setter_assignment {dateFromString : String → Option Rat} {description : Rat → String}
    {a : Assignment} {c : Setter}
    (hw : c.write dateFromString description (.assignment a) = some w) :
    ∃ k v, Model.assignment.Allows k v ∧ a.save k v = some w := by
  have htext : ∀ {k text : String}, k ∈ Model.assignment.texts → a.save k (.string text) = some w →
      ∃ k v, Model.assignment.Allows k v ∧ a.save k v = some w := fun {k text} hk hw =>
    ⟨k, .string text, hk, hw⟩
  cases c with
  | setName v => exact htext (by decide) hw
  | setDescription v => exact htext (by decide) hw
  | setFilePath v => exact htext (by decide) hw
  | setClassID v => exact htext (by decide) hw
  | setDueDate v =>
      obtain ⟨date, -, hsave⟩ := Assignment.setDueDate_head hw
      exact ⟨Strings.dueDate, .timestamp date, ⟨rfl, rfl⟩, hsave⟩
  | _ => cases hw

/-- A setter of a user saves one text of its class, and never the id. -/
theorem setter_user {dateFromString : String → Option Rat} {description : Rat → String}
    {u : IUser} {c : Setter} (hw : c.write dateFromString description (.user u) = some w) :
    ∃ k text, (∀ m ∈ Model.ofUser u, k ∈ m.texts) ∧ k ≠ Strings.id
      ∧ DatabaseHelper.saveUserPropertyToDoc u k text = some w := by
  have hbase : ∀ {k text : String}, k ∈ Model.userTexts → k ≠ Strings.id →
      DatabaseHelper.saveUserPropertyToDoc u k text = some w →
      ∃ k text, (∀ m ∈ Model.ofUser u, k ∈ m.texts) ∧ k ≠ Strings.id
        ∧ DatabaseHelper.saveUserPropertyToDoc u k text = some w := fun hk hid hw =>
    ⟨_, _, Model.mem_texts_of_mem_userTexts hk, hid, hw⟩
  cases c with
  | setFirstName v => exact hbase (by decide) (by decide) hw
  | setLastName v => exact hbase (by decide) (by decide) hw
  | setEmail v => exact hbase (by decide) (by decide) hw
  | setBio v => exact hbase (by decide) (by decide) hw
  | setPhotoPath v => exact hbase (by decide) (by decide) hw
  | setPronouns v => exact hbase (by decide) (by decide) hw
  | setGPA v =>
      cases u with
      | student s => exact ⟨Strings.gpa, _, Model.mem_texts_student (by decide), by decide, hw⟩
      | _ => cases hw
  | setClassroom v =>
      cases u with
      | student s => exact ⟨Strings.classID, _, Model.mem_texts_student (by decide), by decide, hw⟩
      | _ => cases hw
  | setParentID v =>
      cases u with
      | student s => exact ⟨Strings.parentID, _, Model.mem_texts_student (by decide), by decide, hw⟩
      | _ => cases hw
  | setPhoneNumber v =>
      cases u with
      | teacher t =>
          refine ⟨Strings.phone, v, fun m hm => ?_, by decide, hw⟩
          exact Option.some.inj hm ▸ List.mem_cons_self
      | parent p =>
          refine ⟨Strings.phone, v, fun m hm => ?_, by decide, hw⟩
          exact Option.some.inj hm ▸ List.mem_cons_self
      | _ => cases hw
  | _ => cases u <;> cases hw

theorem Model.allows_text (h : k ∈ m.texts) (text : String) : m.Allows k (.string text) := h

theorem Model.allows_list (h : k ∈ m.lists) (l : List String) :
    m.Allows k (.array (l.map .string)) := Or.inl ⟨h, l, rfl⟩

theorem Model.list_of_allows (h : m.Allows k v) (htext : k ∉ m.texts) (hassignment : m ≠ .assignment)
    (hstudent : m ≠ .student) : ∃ l : List String, v = .array (l.map .string) := by
  cases v with
  | string s => exact absurd h htext
  | null => exact absurd h.1 hstudent
  | timestamp t => exact absurd h.1 hassignment
  | array vs =>
      rcases h with ⟨-, l, rfl⟩ | ⟨hm, -⟩ | ⟨hm, -⟩
      · exact ⟨l, rfl⟩
      · exact absurd hm hassignment
      · exact absurd hm hassignment
  | _ => exact h.elim

theorem Model.results_of_allows (h : assignment.Allows Strings.results v) :
    ∃ rs : List Result, v = .array (rs.map Result.toValue) := by
  cases v with
  | string s =>
      have hnot : Strings.results ∉ Model.assignment.texts := by decide
      exact absurd h hnot
  | null => exact absurd h.2 (by decide)
  | timestamp t => exact absurd h.2 (by decide)
  | array vs =>
      rcases h with ⟨hk, -⟩ | ⟨-, -, rs, rfl⟩ | ⟨-, hk, -⟩
      · exact absurd hk (by decide)
      · exact ⟨rs, rfl⟩
      · exact absurd hk (by decide)
  | _ => exact h.elim

theorem Model.problems_of_allows (h : assignment.Allows Strings.problems v) :
    ∃ ps : List Problem, v = .array (ps.map Problem.toValue) := by
  cases v with
  | string s =>
      have hnot : Strings.problems ∉ Model.assignment.texts := by decide
      exact absurd h hnot
  | null => exact absurd h.2 (by decide)
  | timestamp t => exact absurd h.2 (by decide)
  | array vs =>
      rcases h with ⟨hk, -⟩ | ⟨-, hk, -⟩ | ⟨-, -, ps, rfl⟩
      · exact absurd hk (by decide)
      · exact absurd hk (by decide)
      · exact ⟨ps, rfl⟩
  | _ => exact h.elim

theorem made_addList {x : String} (hk : k ∈ m.lists) (htext : k ∉ m.texts)
    (hassignment : m ≠ .assignment) (hstudent : m ≠ .student)
    (hp : documentPath m.collection name = some p) :
    Made m (.unionMerge p k (.string x)) :=
  have hinj : Function.Injective Value.string := fun _ _ => Value.string.inj
  ⟨⟨name, hp⟩, fits_union hinj hp (Model.allows_list hk)
    (fun _ hv => Model.list_of_allows hv htext hassignment hstudent) x⟩

/-- The class of the documents that a call on an assignment or a classroom writes
to, less `AddStudent`, which writes to a student's too. -/
def Call.model : Call → Option Model
  | setter (.assignment _) _ => some .assignment
  | setter (.user _) _ => none
  | setUserID _ _ => none
  | setAssignmentID _ => some .assignment
  | clearResults _ => some .assignment
  | setProblems _ _ => some .assignment
  | addProblem _ _ _ => some .assignment
  | addResult _ _ => some .assignment
  | addStudentToParent _ _ => none
  | setClassID _ => some .classroom
  | setTeacherID _ => some .classroom
  | setStudents _ => some .classroom
  | setAssignments _ => some .classroom
  | setClassName _ _ => some .classroom
  | setMeetingInfo _ => some .classroom
  | addAssignment _ _ => some .classroom
  | addStudent _ _ => none

variable [TextOps] {dateFromString : String → Option Rat} {description : Rat → String}

theorem made_run {c : Call} (hm : c.model = some m) :
    OnlyWrites (Made m) (c.run dateFromString description) := by
  cases c with
  | setter o c =>
      cases o with
      | user u => cases hm
      | assignment a =>
          obtain rfl := Option.some.inj hm
          refine OnlyWrites.perform fun w hw => ?_
          obtain ⟨k, v, hallows, hsave⟩ := setter_assignment hw
          exact made_save hallows hsave
  | setUserID u newID => cases hm
  | addStudentToParent parent newStudent => cases hm
  | addStudent c newStudent => cases hm
  | setAssignmentID newID =>
      obtain rfl := Option.some.inj hm
      exact OnlyWrites.perform fun w hw =>
        made_saveProperty (Model.assignment.allows_text (by decide) newID) hw
  | clearResults a =>
      obtain rfl := Option.some.inj hm
      exact OnlyWrites.perform fun w hw =>
        made_save (v := .array []) (Or.inr (Or.inl ⟨rfl, rfl, [], rfl⟩)) hw
  | setProblems a ps =>
      obtain rfl := Option.some.inj hm
      refine OnlyWrites.perform fun w hw => ?_
      have hw : a.setProblems ps = some w := hw
      rw [Assignment.setProblems] at hw
      split at hw
      · exact made_save (v := .array []) (Or.inr (Or.inr ⟨rfl, rfl, [], rfl⟩)) hw
      · cases hw
  | addProblem a question answer =>
      obtain rfl := Option.some.inj hm
      refine OnlyWrites.perform fun w hw => ?_
      obtain ⟨id, -, hw⟩ := Option.bind_eq_some_iff.mp hw
      obtain ⟨q, hq, rfl⟩ := Option.map_eq_some_iff.mp hw
      exact ⟨⟨id, hq⟩, fits_union (m := .assignment) Problem.toValue_injective hq
        (fun ps => Or.inr (Or.inr ⟨rfl, rfl, ps, rfl⟩)) (fun _ => Model.problems_of_allows) _⟩
  | addResult a newResult =>
      obtain rfl := Option.some.inj hm
      refine OnlyWrites.perform fun w hw => ?_
      obtain ⟨id, -, hw⟩ := Option.bind_eq_some_iff.mp hw
      obtain ⟨q, hq, rfl⟩ := Option.map_eq_some_iff.mp hw
      exact ⟨⟨id, hq⟩, fits_union (m := .assignment) Result.toValue_injective hq
        (fun rs => Or.inr (Or.inl ⟨rfl, rfl, rs, rfl⟩)) (fun _ => Model.results_of_allows) _⟩
  | setClassID newID =>
      obtain rfl := Option.some.inj hm
      exact OnlyWrites.perform fun w hw =>
        made_saveProperty (Model.classroom.allows_text (by decide) newID) hw
  | setTeacherID newTeacherID =>
      obtain rfl := Option.some.inj hm
      exact OnlyWrites.perform fun w hw =>
        made_saveProperty (Model.classroom.allows_text (by decide) newTeacherID) hw
  | setStudents newStudents =>
      obtain rfl := Option.some.inj hm
      exact OnlyWrites.perform fun w hw =>
        made_saveProperty (Model.classroom.allows_list (by decide) newStudents) hw
  | setAssignments newAssignments =>
      obtain rfl := Option.some.inj hm
      exact OnlyWrites.perform fun w hw =>
        made_saveProperty (Model.classroom.allows_list (by decide) newAssignments) hw
  | setClassName c newName =>
      obtain rfl := Option.some.inj hm
      refine OnlyWrites.perform fun w hw => ?_
      obtain ⟨id, -, hw⟩ := Option.bind_eq_some_iff.mp hw
      exact made_saveProperty (Model.classroom.allows_text (by decide) newName) hw
  | setMeetingInfo newMeetingInfo =>
      obtain rfl := Option.some.inj hm
      exact OnlyWrites.perform fun w hw =>
        made_saveProperty (Model.classroom.allows_list (by decide) newMeetingInfo) hw
  | addAssignment c newAssignment =>
      obtain rfl := Option.some.inj hm
      refine OnlyWrites.perform fun w hw => ?_
      obtain ⟨⟨c', w'⟩, hadd, rfl⟩ := Option.map_eq_some_iff.mp hw
      obtain ⟨id, r, hr, rfl⟩ := Classroom.addAssignment_eq_some hadd
      exact made_addList (m := .classroom) (by decide) (by decide) (by decide) (by decide) hr

theorem fits_run (c : Call) : OnlyWrites (Write.Fits schema) (c.run dateFromString description) := by
  have hmade : ∀ m, c.model = some m →
      OnlyWrites (Write.Fits schema) (c.run dateFromString description) := fun m hm =>
    OnlyWrites.mono (fun w => Made.fits) (made_run hm)
  cases c with
  | setter o c =>
      cases o with
      | assignment a => exact hmade .assignment rfl
      | user u =>
          refine OnlyWrites.perform fun w hw => ?_
          obtain ⟨k, text, hk, -, hsave⟩ := setter_user hw
          exact fits_user hk hsave
  | setUserID u newID =>
      exact OnlyWrites.perform fun w hw =>
        fits_user (Model.mem_texts_of_mem_userTexts (by decide)) hw
  | addStudentToParent parent newStudent =>
      refine OnlyWrites.bind (OnlyWrites.bind (OnlyWrites.detach ?_) fun _ => OnlyWrites.pure _)
        fun _ => OnlyWrites.pure _
      refine OnlyWrites.bind (OnlyWrites.ask _) fun res => ?_
      refine OnlyWrites.unwrap_bind fun id _ => OnlyWrites.unwrap_bind fun r hr => ?_
      refine OnlyWrites.bind (OnlyWrites.perform fun w hw => ?_) fun _ =>
        OnlyWrites.perform fun w hw => ?_
      · obtain rfl := Option.some.inj hw
        exact (made_addList (m := .parent) (by decide) (by decide) (by decide) (by decide) hr).fits
      · exact fits_user (Model.mem_texts_student (by decide)) hw
  | addStudent c newStudent =>
      refine OnlyWrites.bind (OnlyWrites.unwrap_bind fun ids _ => ?_) fun _ => OnlyWrites.pure _
      refine OnlyWrites.bind (OnlyWrites.perform fun w hw => ?_) fun _ => ?_
      · have hlist := Model.classroom.allows_list (k := Strings.students) (by decide)
          (ids ++ [newStudent])
        exact (made_saveProperty hlist hw).fits
      · refine OnlyWrites.bind (OnlyWrites.perform fun w hw => ?_) fun _ => ?_
        · refine (made_saveProperty (m := .student) ?_ hw).fits
          cases c.id with
          | none => exact ⟨rfl, rfl⟩
          | some id => exact Model.student.allows_text (by decide) id
        · refine OnlyWrites.unwrap_bind fun r hr => ?_
          refine OnlyWrites.bind (OnlyWrites.perform fun w hw => ?_) fun _ => OnlyWrites.pure _
          obtain rfl := Option.some.inj hw
          obtain ⟨id, -, hr⟩ := Option.bind_eq_some_iff.mp hr
          exact (made_addList (m := .classroom) (by decide) (by decide) (by decide) (by decide)
            hr).fits
  | setAssignmentID newID => exact hmade .assignment rfl
  | clearResults a => exact hmade .assignment rfl
  | setProblems a ps => exact hmade .assignment rfl
  | addProblem a question answer => exact hmade .assignment rfl
  | addResult a newResult => exact hmade .assignment rfl
  | _ => exact hmade .classroom rfl

/-- Every document that the calls leave holds what they write. -/
theorem allows_of_reachable {σ : World} (h : (system dateFromString description).Reachable σ) {n : String} {d : Doc}
    (hd : σ.store.get? ⟨m.collection, n⟩ = some d) : ∀ k v, d[k]? = some v → m.Allows k v := by
  have hfits : σ.store.Fits schema := by
    refine h.invariant (I := fun σ => σ.store.Fits schema) ?_ ?_
    · rintro σ hσ
      rw [show σ.store = fun _ => ∅ from hσ]
      exact Store.Fits.empty schema
    · rintro σ c σ' hσ - hs
      obtain rfl := Option.some.inj hs
      have hfits : OnlyWrites (Write.Fits schema) (c.run dateFromString description) := fits_run c
      obtain ⟨ws, hws, hstore⟩ := hfits σ
      rw [hstore]
      exact hσ.applyAll hws
  exact fun k v hv => hfits _ _ _ hd k v hv m rfl

end

end GradeIo.ReadPaths
