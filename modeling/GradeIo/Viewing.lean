import GradeIo.Effects
import GradeIo.Lib.Transition
import GradeIo.Screens

/-!
# Looking

What opening a screen writes. `Look.puts` lists the fields that a screen sets,
from the world it is opened in (`store_look`), and `Harmless` says when each of
them has its value already: the home screen of a student sets the bio to
`Hello`, an assignment that does not decode sets the id of `Assignment/NULL`, a
user that is no teacher sets the id of `Teacher/NULL`.

The globals `currentClassroom` and `CurrentAssignment` start as new objects,
whose initialisers write too. Swift makes them at the first access after a
launch, so the first screen that comes to one of them writes for it.
-/

namespace GradeIo

open DocDb

/-- A handler that leaves the store alone. -/
abbrev ReadOnly {α : Type} (x : App α) : Prop := OnlyWrites (fun _ => False) x

namespace App

variable {α β : Type} {σ : World}

theorem after_unwrap_bind (o : Option α) (f : α → App β) :
    after (unwrap o >>= f) σ = match o with
      | some a => after (f a) σ
      | none => σ := by
  cases o <;> rfl

theorem after_get_bind (f : World → App β) : after (get >>= f) σ = after (f σ) σ := rfl

theorem mapM_unwrap (f : α → Option β) (l : List α) :
    (l.mapM fun a => unwrap (f a)) = unwrap (l.mapM f) := by
  induction l with
  | nil => rfl
  | cons a l ih =>
      rw [List.mapM_cons, List.mapM_cons, ih]
      cases f a with
      | none => rfl
      | some b =>
          cases l.mapM f with
          | none => rfl
          | some bs => rfl

end App

open App UserHelper

variable [TextOps]

/-! ## Fetching students -/

/-- The students that `GetStudentObjects` gives; `none` where it traps. -/
def studentsOf (s : Store) (studentIDs : Option (List String)) : Option (List Student) :=
  (DatabaseHelper.getDocumentsFromIDs s Strings.student (studentIDs.getD [])).mapM
    fun p => Student.load p.2

theorem getStudentObjects_eq (studentIDs : Option (List String)) :
    getStudentObjects studentIDs = App.ask fun s => GradeIo.unwrap (studentsOf s studentIDs) := by
  have hloop : ∀ docs : List (String × Doc),
      docs.mapM studentObject = App.unwrap (docs.mapM fun p => Student.load p.2) := by
    intro docs
    rw [← mapM_unwrap]
    exact congrArg (docs.mapM ·) (funext studentObject_eq)
  refine funext fun σ => ?_
  have hleft : getStudentObjects studentIDs σ = (getStudentObjects studentIDs).run σ := rfl
  have hright : (App.ask fun s => GradeIo.unwrap (studentsOf s studentIDs)) σ =
      (App.ask fun s => GradeIo.unwrap (studentsOf s studentIDs)).run σ := rfl
  rw [hleft, hright, getStudentObjects, EStateM.run_bind, run_ask_pure, run_ask]
  simp only [hloop]
  unfold studentsOf
  cases (DatabaseHelper.getDocumentsFromIDs σ.store Strings.student (studentIDs.getD [])).mapM
    fun p => Student.load p.2 <;> rfl

theorem Classroom.getStudentObjects_eq (c : Classroom) :
    c.getStudentObjects = App.ask fun s => GradeIo.unwrap (studentsOf s c.studentIDs) :=
  GradeIo.getStudentObjects_eq c.studentIDs

/-! ## Fetching assignments -/

/-- The id that every placeholder sets. -/
def Assignment.nullPut : Put := ⟨Assignment.nullPath, Strings.id, .string "NULL"⟩

namespace Classroom

/-- The documents that the loop of `GetAssignmentObjects` gets through. -/
def visited (docs : List (String × Doc)) : List (String × Doc) :=
  docs.takeWhile fun p => Assignment.loads p.2

/-- What is set for those that do not decode. -/
def placeholdersOf (docs : List (String × Doc)) : List Put :=
  ((visited docs).filter fun p => (Assignment.ofDictionary (Doc.data p.2)).isNone).map
    fun _ => Assignment.nullPut

def placeholders (c : Classroom) (s : Store) : List Put := placeholdersOf (c.assignmentDocuments s)

/-- `GetAssignmentObjects` comes to no document that does not decode, or has
come to one before. -/
def Readable (c : Classroom) (s : Store) : Prop :=
  Assignment.nullPut.Holds s
    ∨ ∀ p ∈ visited (c.assignmentDocuments s), (Assignment.ofDictionary (Doc.data p.2)).isSome

theorem forall_mem_placeholders (c : Classroom) (s : Store) :
    (∀ w ∈ c.placeholders s, w.Holds s) ↔ c.Readable s := by
  simp only [placeholders, placeholdersOf, Readable, List.forall_mem_map, List.mem_filter]
  constructor
  · intro h
    by_cases hnull : Assignment.nullPut.Holds s
    · exact Or.inl hnull
    · refine Or.inr fun p hp => ?_
      by_contra hnone
      exact hnull (h p ⟨hp, by simpa using hnone⟩)
  · rintro (hnull | hall) p ⟨hp, hnone⟩
    · exact hnull
    · have hsome := hall p hp
      rw [Option.isNone_iff_eq_none] at hnone
      rw [hnone] at hsome
      cases hsome

omit [TextOps] in
theorem store_assignmentObjects (now : Rat) (docs : List (String × Doc)) (σ : World) :
    (after (docs.mapM (assignmentObject now)) σ).store = σ.store.putAll (placeholdersOf docs) := by
  induction docs generalizing σ with
  | nil => rfl
  | cons p docs ih =>
      rw [List.mapM_cons, after_bind]
      cases hp : Assignment.loads p.2 with
      | false =>
          have hvisited : visited (p :: docs) = [] := by simp [visited, hp]
          rw [run_assignmentObject_trap hp, placeholdersOf, hvisited]
          rfl
      | true =>
          have hvisited : visited (p :: docs) = p :: visited docs := by simp [visited, hp]
          rw [run_assignmentObject hp, placeholdersOf, hvisited]
          simp only [after_bind_pure, ih]
          cases hdec : Assignment.ofDictionary (Doc.data p.2) with
          | none =>
              rw [List.filter_cons_of_pos (by simp [hdec]), Assignment.placeholder, hdec]
              rfl
          | some a =>
              rw [List.filter_cons_of_neg (by simp [hdec]), Assignment.placeholder, hdec]
              rfl

theorem store_fetch (c : Classroom) (now : Rat) (σ : World) :
    (after (c.getAssignmentObjects now) σ).store = σ.store.putAll (c.placeholders σ.store) :=
  store_assignmentObjects now _ σ

/-- The fetch, when nothing is written after it. -/
theorem store_getAssignmentObjects {α : Type} (c : Classroom) (now : Rat)
    {f : List Assignment → App α} (hf : ∀ res, ReadOnly (f res)) (σ : World) :
    (after (c.getAssignmentObjects now >>= f) σ).store =
      σ.store.putAll (c.placeholders σ.store) := by
  rw [after_bind, ← c.store_fetch now, after]
  cases (c.getAssignmentObjects now).run σ with
  | error e σ' => rfl
  | ok res σ' => exact (hf res).store_eq σ'

end Classroom

/-! ## What opening a screen writes -/

/-- Ways of looking at something: opening a screen, tapping an assignment,
and the fetches by themselves. -/
inductive Look where
  | homepage (now : Rat)
  | teacherHome
  | parentHome
  | studentAssignments (now : Rat)
  | studentAssignment (now : Rat) (assignIndex : Nat)
  | quizResults (caseInsensitiveCompare : String → String → Bool) (currentAssignment : Assignment)
      (finalQuizGrade : Option Rat) (now : Rat)
  | teacherAssignments (now : Rat)
  | teacherFiles (now : Rat)
  | teacherStudents
  | teacherAssignment (now : Rat) (assignIndex : Nat)
  | teacherStudent (now : Rat) (studentIndex : Nat)
  | teacherStudentAnswers (now : Rat) (studentID : String) (assignIndex : Nat)
  | parentStudent (now : Rat) (studentID : String)
  | parentStudentAssignment (now : Rat) (studentID : String) (assignIndex : Nat)
  | studentAccount
  | teacherAccount
  | parentAccount
  /-- The tap of a list entry, which only sets `CurrentAssignment`. -/
  | sendToAssignment
  | getClassroomFromID (classID : String)
  | getStudentObjects (c : Classroom)
  | getAssignmentObjects (now : Rat) (c : Classroom)
  | getTeacherObject (c : Classroom)

namespace Look

def run : Look → App Unit
  | .homepage now => Homepage.viewDidLoad now
  | .teacherHome => TeacherViewController.viewDidLoad
  | .parentHome => ParentHomepage.viewDidLoad
  | .studentAssignments now => do let _ ← StudentAssignmentsView.viewDidLoad now
  | .studentAssignment now i => do let _ ← StudentAssignmentOverview.viewDidLoad now i
  | .quizResults compare a grade now => do let _ ← QuizResults.viewDidLoad compare a grade now
  | .teacherAssignments now => do let _ ← TeacherAssignmentPage.viewDidLoad now
  | .teacherFiles now => do let _ ← TeacherFiles.viewDidLoad now
  | .teacherStudents => do let _ ← TeacherStudentListPage.viewDidLoad
  | .teacherAssignment now i => do let _ ← TeacherAssignmentOverview.viewDidLoad now i
  | .teacherStudent now i => do let _ ← TeacherOverviewStudentList.viewDidLoad now i
  | .teacherStudentAnswers now id i => do let _ ← TeacherStudentAnswers.viewDidLoad now id i
  | .parentStudent now id => do let _ ← ParentStudentOverview.viewDidLoad now id
  | .parentStudentAssignment now id i => do
      let _ ← ParentStudentAssignmentOverview.viewDidLoad now id i
  | .studentAccount => do let _ ← StudentAccount.viewDidLoad
  | .teacherAccount => do let _ ← TeacherAccount.viewDidLoad
  | .parentAccount => do let _ ← ParentAccount.viewDidLoad
  | .sendToAssignment => pure ()
  | .getClassroomFromID id => do
      let _ ← App.ask fun s => DatabaseHelper.getClassroomFromID s id
  | .getStudentObjects c => do let _ ← c.getStudentObjects
  | .getAssignmentObjects now c => do let _ ← c.getAssignmentObjects now
  | .getTeacherObject c => do let _ ← c.getTeacherObject

end Look

/-- The class that a student's document names. -/
def classOfStudent (s : Store) (studentID : String) : Option Classroom := do
  let student ← (getStudentByID s studentID).toOption
  let classID ← student.classID
  (DatabaseHelper.getClassroomFromID s classID).toOption

/-- The class that a home screen makes the current one. -/
def homeClass (σ : World) : Option Classroom :=
  match σ.currentUser with
  | .student u => do
      let _ ← σ.currentUser.ref
      (DatabaseHelper.getClassroomFromID σ.store (u.classID.getD "NULL")).toOption
  | .teacher u => do
      let classID ← u.classID
      (DatabaseHelper.getClassroomFromID σ.store classID).toOption
  | _ => none

namespace Look

/-- The class whose assignments are fetched. -/
def fetches (σ : World) : Look → Option Classroom
  | .homepage _ => if σ.currentUser.asStudent.isSome then homeClass σ else none
  | .studentAssignments _ => some σ.currentClassroom
  | .studentAssignment _ _ => some σ.currentClassroom
  | .quizResults _ a grade _ => do
      let _ ← grade
      let _ ← a.name
      some σ.currentClassroom
  | .teacherAssignments _ => some σ.currentClassroom
  | .teacherFiles _ => some σ.currentClassroom
  | .teacherAssignment _ _ => do
      let _ ← studentsOf σ.store σ.currentClassroom.studentIDs
      some σ.currentClassroom
  | .teacherStudent _ _ => some σ.currentClassroom
  | .teacherStudentAnswers _ id _ => classOfStudent σ.store id
  | .parentStudent _ id => do
      let student ← (getStudentByID σ.store id).toOption
      let _ ← student.firstName
      let _ ← student.lastName
      classOfStudent σ.store id
  | .parentStudentAssignment _ id _ => do
      let classroom ← classOfStudent σ.store id
      let _ ← studentsOf σ.store classroom.studentIDs
      some classroom
  | .getAssignmentObjects _ c => some c
  | _ => none

/-- The bio that is written. -/
def bio (σ : World) : Look → List Put
  | .homepage _ => (do
      let _ ← σ.currentUser.asStudent
      let p ← σ.currentUser.ref
      some ⟨p, Strings.bio, .string "Hello"⟩ : Option Put).toList
  | _ => []

/-- The id that a teacher put in the place of another user sets. -/
def nullTeacher : Put := ⟨⟨Strings.teacher, "NULL"⟩, Strings.id, .string "NULL"⟩

def teacher (σ : World) : Look → List Put
  | .getTeacherObject c => (do
      let teacherID ← c.teacherID
      let res ← (getUserByID σ.store teacherID).toOption
      if res.asTeacher = none then some nullTeacher else none : Option Put).toList
  | _ => []

/-- All that a look sets. -/
def puts (σ : World) (l : Look) : List Put :=
  l.bio σ ++ (((l.fetches σ).map fun c => c.placeholders σ.store).getD []) ++ l.teacher σ

section

variable {σ : World}

omit [TextOps] in
theorem after_discard {α : Type} (x : App α) :
    after (do let _ ← x) σ = after x σ := after_bind_pure x fun _ => ()

/-- A class is fetched by a student's id, and something is done with it. -/
theorem after_classOfStudent {α : Type} (studentID : String) (f : Classroom → App α) :
    after (do
        let student ← App.ask fun s => getStudentByID s studentID
        let classID ← App.unwrap student.classID
        let classroom ← App.ask fun s => DatabaseHelper.getClassroomFromID s classID
        f classroom) σ =
      match classOfStudent σ.store studentID with
      | some c => after (f c) σ
      | none => σ := by
  rw [after_ask_bind, classOfStudent]
  cases getStudentByID σ.store studentID with
  | error e => rfl
  | ok student =>
      have hok : (Except.ok student : Answer Student).toOption = some student := rfl
      simp only [after_unwrap_bind, hok, Option.bind_eq_bind, Option.bind_some]
      cases student.classID with
      | none => rfl
      | some classID =>
          simp only [after_ask_bind, Option.bind_some]
          cases DatabaseHelper.getClassroomFromID σ.store classID <;> rfl

/-- Students are fetched, and something is done with them. -/
theorem after_getStudentObjects {α : Type} (c : Classroom) (f : List Student → App α) :
    after (c.getStudentObjects >>= f) σ =
      match studentsOf σ.store c.studentIDs with
      | some students => after (f students) σ
      | none => σ := by
  rw [c.getStudentObjects_eq, after_ask_bind]
  cases studentsOf σ.store c.studentIDs <;> rfl

omit [TextOps] in
theorem readOnly_getParentChildren (children : List Student) :
    ReadOnly (ParentHomepage.getParentChildren children) := by
  induction children with
  | nil => exact .pure ()
  | cons child children ih =>
      exact .bind (.bind (.unwrap _) fun _ => .pure ()) fun _ => ih

theorem readOnly_popStudentParent (student : Student) :
    ReadOnly (TeacherOverviewStudentList.popStudentParent student) := by
  unfold TeacherOverviewStudentList.popStudentParent
  split
  · exact .pure ()
  · exact .detach (.bind (.ask _) fun _ => .bind (.unwrap _) fun _ => .bind (.unwrap _) fun _ =>
      .bind (.unwrap _) fun _ => .pure ())

omit [TextOps] in
theorem readOnly_findGrade (assigns : List Assignment) :
    ReadOnly (Homepage.findGrade assigns) := by
  have hround : ∀ taken i, ReadOnly (Homepage.addGrade taken i) := by
    intro taken i
    refine .bind .get fun _ => .bind (.unwrap _) fun _ => .ite (.pure _) ?_
    exact .bind (.unwrap _) fun _ => .pure _
  have hloop : ∀ taken, ReadOnly (assigns.foldlM Homepage.addGrade taken) := by
    induction assigns with
    | nil => exact fun taken => .pure taken
    | cons i assigns ih =>
        intro taken
        rw [List.foldlM_cons]
        exact .bind (hround taken i) ih
  exact .bind (hloop _) fun _ => .pure _

/-- The bio is in no collection that the home screen reads. -/
theorem store_homepage (now : Rat) :
    (after (Homepage.viewDidLoad now) σ).store = σ.store.putAll ((homepage now).puts σ) := by
  unfold Homepage.viewDidLoad
  simp only [after_get_bind, after_unwrap_bind]
  cases huser : σ.currentUser with
  | student u =>
      have hsome : (IUser.student u).asStudent = some u := rfl
      simp only [hsome, puts, bio, fetches, teacher, homeClass, huser, IUser.setBio,
        DatabaseHelper.saveUserPropertyToDoc]
      cases hp : (IUser.student u).ref with
      | none => rfl
      | some p =>
          have hhead : p.collection.toList.head? = Strings.student.toList.head? :=
            head?_collection_of_documentPath (by decide) hp
          have hsame : ∀ c : String, c.toList.head? ≠ Strings.student.toList.head? →
              (σ.store.apply (.setMerge p Strings.bio (.string "Hello"))) c = σ.store c := by
            intro c hc
            have hne : ∀ w ∈ [Write.setMerge p Strings.bio (.string "Hello")],
                c ≠ w.path.collection := by
              rintro w hw rfl
              obtain rfl := List.mem_singleton.mp hw
              exact hc hhead
            exact Store.applyAll_collection_of_ne hne
          have hclass : ∀ id, DatabaseHelper.getClassroomFromID
              (σ.store.apply (.setMerge p Strings.bio (.string "Hello"))) id =
                DatabaseHelper.getClassroomFromID σ.store id := by
            intro id
            unfold DatabaseHelper.getClassroomFromID DatabaseHelper.firstFromIDs
              DatabaseHelper.getDocumentsFromIDs Store.documents
            rw [hsame _ (by decide)]
          have hplaceholders : ∀ c : Classroom, c.placeholders
              (σ.store.apply (.setMerge p Strings.bio (.string "Hello"))) =
                c.placeholders σ.store := by
            intro c
            unfold Classroom.placeholders Classroom.assignmentDocuments
              DatabaseHelper.getDocumentsFromIDs Store.documents
            rw [hsame _ (by decide)]
          simp only [Option.map_some, after_perform_bind, after_detach, after_ask_bind, hclass]
          cases hget : DatabaseHelper.getClassroomFromID σ.store (u.classID.getD "NULL") with
          | error e => rfl
          | ok c =>
              have hfetch := c.store_getAssignmentObjects now
                (f := fun assign => do let _ ← Homepage.findGrade assign)
                (fun res => .bind (readOnly_findGrade res) fun _ => .pure ())
                { σ with
                  store := σ.store.apply (.setMerge p Strings.bio (.string "Hello"))
                  currentClassroom := c }
              rw [hplaceholders] at hfetch
              refine Eq.trans hfetch ?_
              simp only [List.append_nil]
              rfl
  | base u => simp [puts, bio, fetches, teacher, huser, IUser.asStudent, Store.putAll]
  | teacher u => simp [puts, bio, fetches, teacher, huser, IUser.asStudent, Store.putAll]
  | parent u => simp [puts, bio, fetches, teacher, huser, IUser.asStudent, Store.putAll]

/-! ### Screens that only read -/

theorem readOnly_teacherHome : ReadOnly TeacherViewController.viewDidLoad := by
  refine .bind .get fun _ => .bind (.unwrap _) fun _ => .bind (.unwrap _) fun _ => ?_
  exact .detach (.bind (.ask _) fun _ => .setCurrentClassroom _)

theorem readOnly_parentHome : ReadOnly ParentHomepage.viewDidLoad := by
  refine .bind .get fun _ => .bind (.unwrap _) fun parent => ?_
  rw [Parent.getStudentObjects, GradeIo.getStudentObjects_eq]
  exact .bind (.ask _) readOnly_getParentChildren

theorem readOnly_teacherStudents : ReadOnly TeacherStudentListPage.viewDidLoad := by
  refine .bind .get fun σ => ?_
  rw [Classroom.getStudentObjects_eq]
  exact .ask _

omit [TextOps] in
theorem readOnly_studentAccount : ReadOnly StudentAccount.viewDidLoad := by
  refine .bind .get fun _ => .bind (.unwrap _) fun _ => .bind (.ask _) fun _ => ?_
  refine .bind (.unwrap _) fun _ => .bind (.ask _) fun _ => ?_
  exact .bind (.unwrap _) fun _ => .bind (.unwrap _) fun _ => .pure _

omit [TextOps] in
theorem readOnly_teacherAccount : ReadOnly TeacherAccount.viewDidLoad :=
  .bind .get fun _ => .bind (.unwrap _) fun _ => .ask _

theorem readOnly_parentAccount : ReadOnly ParentAccount.viewDidLoad := by
  refine .bind .get fun _ => .bind (.unwrap _) fun _ => .bind (.ask _) fun _ => ?_
  exact .bind .get fun _ => .pure _

omit [TextOps] in
/-- What a look gives is put aside. -/
theorem store_of_readOnly {α : Type} {x : App α} (h : ReadOnly x) :
    (after (do let _ ← x) σ).store = σ.store := by
  rw [after_discard]
  exact h.store_eq σ

/-! ### Screens that fetch assignments -/

/-- The assignments of the current class are fetched, and then nothing is written. -/
theorem store_currentClassroom {α : Type} (now : Rat) {f : World → List Assignment → App α}
    (hf : ∀ σ res, ReadOnly (f σ res)) :
    (after (do
        let σ ← get
        let res ← σ.currentClassroom.getAssignmentObjects now
        f σ res) σ).store = σ.store.putAll (σ.currentClassroom.placeholders σ.store) := by
  rw [after_get_bind]
  exact Classroom.store_getAssignmentObjects _ now (hf σ) σ

theorem store_quizResults (compare : String → String → Bool) (a : Assignment)
    (grade : Option Rat) (now : Rat) :
    (after (QuizResults.viewDidLoad compare a grade now) σ).store =
      σ.store.putAll ((quizResults compare a grade now).puts σ) := by
  simp only [QuizResults.viewDidLoad, after_unwrap_bind]
  cases grade with
  | none => rfl
  | some g => ?_
  cases hname : a.name with
  | none => simp [puts, bio, fetches, teacher, hname, Store.putAll]
  | some n =>
      refine (store_currentClassroom now fun _ _ => .pure _).trans ?_
      simp [puts, bio, fetches, teacher, hname]

/-- The students come first. -/
theorem store_teacherAssignment (now : Rat) (i : Nat) :
    (after (TeacherAssignmentOverview.viewDidLoad now i) σ).store =
      σ.store.putAll ((teacherAssignment now i).puts σ) := by
  simp only [TeacherAssignmentOverview.viewDidLoad, after_get_bind, after_getStudentObjects, puts,
    bio, fetches, teacher]
  cases studentsOf σ.store σ.currentClassroom.studentIDs with
  | none => simp [Store.putAll]
  | some students =>
      simp only []
      rw [Classroom.store_getAssignmentObjects _ now fun _ => .pure _]
      simp

theorem store_teacherStudent (now : Rat) (i : Nat) :
    (after (TeacherOverviewStudentList.viewDidLoad now i) σ).store =
      σ.store.putAll ((teacherStudent now i).puts σ) := by
  refine (store_currentClassroom now fun _ assigns => .bind .get fun σ => ?_).trans ?_
  · rw [Classroom.getStudentObjects_eq]
    refine .bind (.ask _) fun res => ?_
    split
    · exact .pure _
    · exact .bind (readOnly_popStudentParent _) fun _ => .pure _
  · simp [puts, bio, fetches, teacher]

theorem store_teacherStudentAnswers (now : Rat) (id : String) (i : Nat) :
    (after (TeacherStudentAnswers.viewDidLoad now id i) σ).store =
      σ.store.putAll ((teacherStudentAnswers now id i).puts σ) := by
  simp only [TeacherStudentAnswers.viewDidLoad, after_classOfStudent, puts, bio, fetches, teacher]
  cases classOfStudent σ.store id with
  | none => simp [Store.putAll]
  | some c =>
      rw [Classroom.store_getAssignmentObjects _ now fun _ => .pure _]
      simp

/-- The labels with the student's names come before the class. -/
theorem store_parentStudent (now : Rat) (id : String) :
    (after (ParentStudentOverview.viewDidLoad now id) σ).store =
      σ.store.putAll ((parentStudent now id).puts σ) := by
  simp only [ParentStudentOverview.viewDidLoad, after_ask_bind, puts, bio, fetches, teacher,
    classOfStudent]
  cases getStudentByID σ.store id with
  | error e => simp [Except.toOption, Store.putAll]
  | ok student => ?_
  simp only [after_unwrap_bind, Except.toOption, Option.bind_eq_bind, Option.bind_some]
  cases student.firstName with
  | none => simp [Store.putAll]
  | some first => ?_
  cases student.lastName with
  | none => simp [Store.putAll]
  | some last => ?_
  cases student.classID with
  | none => simp [Store.putAll]
  | some classID => ?_
  simp only [after_ask_bind, Option.bind_some]
  cases DatabaseHelper.getClassroomFromID σ.store classID with
  | error e => simp [Store.putAll]
  | ok c =>
      simp only []
      rw [Classroom.store_getAssignmentObjects _ now fun _ => .pure _]
      simp

theorem store_parentStudentAssignment (now : Rat) (id : String) (i : Nat) :
    (after (ParentStudentAssignmentOverview.viewDidLoad now id i) σ).store =
      σ.store.putAll ((parentStudentAssignment now id i).puts σ) := by
  simp only [ParentStudentAssignmentOverview.viewDidLoad, after_classOfStudent, puts, bio, fetches,
    teacher]
  cases classOfStudent σ.store id with
  | none => simp [Store.putAll]
  | some c => ?_
  simp only [after_getStudentObjects, Option.bind_eq_bind, Option.bind_some]
  cases studentsOf σ.store c.studentIDs with
  | none => simp [Store.putAll]
  | some students =>
      simp only []
      rw [Classroom.store_getAssignmentObjects _ now fun _ => .pure _]
      simp

/-- A user who is no teacher is replaced by a new one. -/
theorem store_getTeacherObject (c : Classroom) :
    (after c.getTeacherObject σ).store = σ.store.putAll ((getTeacherObject c).puts σ) := by
  simp only [Classroom.getTeacherObject, after_unwrap_bind, puts, bio, fetches, teacher]
  cases c.teacherID with
  | none => rfl
  | some teacherID => ?_
  simp only [after_ask_bind]
  simp only [Option.bind_eq_bind, Option.bind_some]
  cases getUserByID σ.store teacherID with
  | error e => simp [Except.toOption, Store.putAll]
  | ok res => ?_
  have hset : (IUser.teacher (Teacher.new "NULL")).setID "NULL" = some nullTeacher.write := by
    decide
  simp only [Except.toOption, Option.bind_some, hset]
  cases hres : res.asTeacher with
  | none => simp [Store.putAll, App.after]
  | some teacher => rfl

/-- What a look leaves in the store, however it ends. -/
theorem store_look (l : Look) : (after l.run σ).store = σ.store.putAll (l.puts σ) := by
  cases l with
  | homepage now => exact store_homepage now
  | teacherHome => exact readOnly_teacherHome.store_eq σ
  | parentHome => exact readOnly_parentHome.store_eq σ
  | teacherStudents => exact store_of_readOnly readOnly_teacherStudents
  | studentAccount => exact store_of_readOnly readOnly_studentAccount
  | teacherAccount => exact store_of_readOnly readOnly_teacherAccount
  | parentAccount => exact store_of_readOnly readOnly_parentAccount
  | sendToAssignment => rfl
  | getClassroomFromID id => exact store_of_readOnly (.ask _)
  | getStudentObjects c =>
      rw [run, c.getStudentObjects_eq]
      exact store_of_readOnly (.ask _)
  | studentAssignments now =>
      rw [run, after_discard, StudentAssignmentsView.viewDidLoad,
        store_currentClassroom now fun _ _ => .bind .get fun _ => .pure _]
      simp [puts, bio, fetches, teacher]
  | studentAssignment now i =>
      rw [run, after_discard, StudentAssignmentOverview.viewDidLoad,
        store_currentClassroom now fun _ _ => .bind .get fun _ => .pure _]
      simp [puts, bio, fetches, teacher]
  | teacherAssignments now =>
      rw [run, after_discard, TeacherAssignmentPage.viewDidLoad, after_get_bind,
        Classroom.store_fetch]
      simp [puts, bio, fetches, teacher]
  | teacherFiles now =>
      rw [run, after_discard, TeacherFiles.viewDidLoad,
        store_currentClassroom now fun _ _ => .pure _]
      simp [puts, bio, fetches, teacher]
  | getAssignmentObjects now c =>
      rw [run, after_discard, Classroom.store_fetch]
      simp [puts, bio, fetches, teacher]
  | quizResults compare a grade now =>
      rw [run, after_discard, store_quizResults]
  | teacherAssignment now i => rw [run, after_discard, store_teacherAssignment]
  | teacherStudent now i => rw [run, after_discard, store_teacherStudent]
  | teacherStudentAnswers now id i => rw [run, after_discard, store_teacherStudentAnswers]
  | parentStudent now id => rw [run, after_discard, store_parentStudent]
  | parentStudentAssignment now id i => rw [run, after_discard, store_parentStudentAssignment]
  | getTeacherObject c => rw [run, after_discard, store_getTeacherObject]

/-! ## When nothing changes -/

/-- Each field that the look sets has its value already. -/
structure Harmless (σ : World) (l : Look) : Prop where
  bio : ∀ now u p, l = .homepage now → σ.currentUser = .student u → σ.currentUser.ref = some p →
    σ.store.field p Strings.bio = some (.string "Hello")
  readable : ∀ c, l.fetches σ = some c → c.Readable σ.store
  teacher : ∀ c teacherID res, l = .getTeacherObject c → c.teacherID = some teacherID →
    getUserByID σ.store teacherID = .ok res → res.asTeacher = none → nullTeacher.Holds σ.store

omit [TextOps] in
theorem forall_mem_bio (l : Look) :
    (∀ w ∈ l.bio σ, w.Holds σ.store) ↔
      ∀ now u p, l = .homepage now → σ.currentUser = .student u → σ.currentUser.ref = some p →
        σ.store.field p Strings.bio = some (.string "Hello") := by
  cases l with
  | homepage now =>
      cases huser : σ.currentUser with
      | student u =>
          have hsome : (IUser.student u).asStudent = some u := rfl
          simp only [Look.bio, huser, hsome, Option.bind_eq_bind, Option.bind_some]
          cases (IUser.student u).ref with
          | none => simp
          | some p => simp [Put.Holds]
      | base u => simp [Look.bio, huser, IUser.asStudent]
      | teacher u => simp [Look.bio, huser, IUser.asStudent]
      | parent u => simp [Look.bio, huser, IUser.asStudent]
  | _ => simp [Look.bio]

theorem forall_mem_teacher (l : Look) :
    (∀ w ∈ l.teacher σ, w.Holds σ.store) ↔
      ∀ c teacherID res, l = .getTeacherObject c → c.teacherID = some teacherID →
        getUserByID σ.store teacherID = .ok res → res.asTeacher = none →
          nullTeacher.Holds σ.store := by
  cases l with
  | getTeacherObject c =>
      simp only [Look.teacher, Look.getTeacherObject.injEq, Option.bind_eq_bind]
      constructor
      · rintro h _ teacherID res rfl hid hres hnone
        refine h _ ?_
        simp [hid, hres, hnone, Except.toOption]
      · intro h w hw
        obtain ⟨teacherID, hid, res, hres, hw⟩ := by
          simpa only [Option.mem_toList, Option.bind_eq_some_iff] using hw
        cases hget : getUserByID σ.store teacherID with
        | error e => simp [hget, Except.toOption] at hres
        | ok res' =>
            obtain rfl : res' = res := by simpa [hget, Except.toOption] using hres
            split at hw
            · rename_i hnone
              obtain rfl := Option.some.inj hw
              exact h c teacherID res' rfl hid hget hnone
            · cases hw
  | _ => simp [Look.teacher]

theorem harmless_iff (l : Look) : (∀ w ∈ l.puts σ, w.Holds σ.store) ↔ Harmless σ l := by
  have hfetches : (∀ w ∈ ((l.fetches σ).map fun c => c.placeholders σ.store).getD [],
      w.Holds σ.store) ↔ ∀ c, l.fetches σ = some c → c.Readable σ.store := by
    cases l.fetches σ with
    | none => simp
    | some c => simp [← Classroom.forall_mem_placeholders]
  simp only [puts, List.forall_mem_append, forall_mem_bio, hfetches, forall_mem_teacher]
  exact ⟨fun h => ⟨h.1.1, h.1.2, h.2⟩, fun h => ⟨⟨h.bio, h.readable⟩, h.teacher⟩⟩

end

end Look

/-! ## Globals -/

/-- The globals that start as an object whose initialiser writes. -/
inductive Global where
  | currentClassroom
  | currentAssignment
deriving DecidableEq, Repr

/-- What the initialiser sets. -/
def Global.put : Global → Put
  | .currentClassroom => ⟨⟨Strings.class, "."⟩, Strings.id, .string "."⟩
  | .currentAssignment => Assignment.nullPut

/-- The globals that a look comes to. A home screen sets the current class once
it has been fetched. -/
def Look.globals (σ : World) : Look → List Global
  | .homepage now => if ((Look.homepage now).fetches σ).isSome then [.currentClassroom] else []
  | .teacherHome =>
      if σ.currentUser.asTeacher.isSome ∧ (homeClass σ).isSome then [.currentClassroom] else []
  | .studentAssignments _ => [.currentClassroom]
  | .studentAssignment _ _ => [.currentClassroom]
  | .quizResults _ a grade _ =>
      if grade.isSome then
        .currentAssignment :: if a.name.isSome then [.currentClassroom] else []
      else []
  | .teacherAssignments _ => [.currentClassroom]
  | .teacherFiles _ => [.currentClassroom]
  | .teacherStudents => [.currentClassroom]
  | .teacherAssignment _ _ => [.currentClassroom]
  | .teacherStudent _ _ => [.currentClassroom]
  | .sendToAssignment => [.currentAssignment]
  | _ => []

/-- What the initialisers of new objects set. -/
def newObjectPuts : List Put :=
  [Assignment.nullPut, Look.nullTeacher, Global.currentClassroom.put]

omit [TextOps] in
theorem Global.put_mem (g : Global) : g.put ∈ newObjectPuts := by
  cases g <;> simp [newObjectPuts, Global.put]

theorem Look.puts_cases {σ : World} {l : Look} {w : Put} (hw : w ∈ l.puts σ) :
    (w.key = Strings.bio ∧ w.value = .string "Hello") ∨ w ∈ newObjectPuts := by
  simp only [Look.puts, List.mem_append] at hw
  rcases hw with (hbio | hfetch) | hteacher
  · left
    cases l with
    | homepage now =>
        simp only [Look.bio, Option.mem_toList, Option.bind_eq_bind, Option.bind_eq_some_iff]
          at hbio
        obtain ⟨u, -, p, -, hw⟩ := hbio
        obtain rfl := Option.some.inj hw
        exact ⟨rfl, rfl⟩
    | _ => simp [Look.bio] at hbio
  · right
    cases hc : l.fetches σ with
    | none => simp [hc] at hfetch
    | some c =>
        simp only [hc, Option.map_some, Option.getD_some] at hfetch
        obtain ⟨-, -, rfl⟩ := List.mem_map.mp hfetch
        exact List.mem_cons_self
  · right
    cases l with
    | getTeacherObject c =>
        simp only [Look.teacher, Option.mem_toList, Option.bind_eq_bind, Option.bind_eq_some_iff]
          at hteacher
        obtain ⟨-, -, res, -, hw⟩ := hteacher
        split at hw
        · obtain rfl := Option.some.inj hw
          exact List.mem_cons_of_mem _ List.mem_cons_self
        · cases hw
    | _ => simp [Look.teacher] at hteacher

/-- A field that is set twice is set to one value. -/
theorem Look.puts_agree {σ : World} (l : Look) (gs : List Global) :
    ∀ a ∈ l.puts σ ++ gs.map Global.put, ∀ b ∈ l.puts σ ++ gs.map Global.put,
      a.path = b.path → a.key = b.key → a.value = b.value := by
  have hcases : ∀ w ∈ l.puts σ ++ gs.map Global.put,
      (w.key = Strings.bio ∧ w.value = .string "Hello") ∨ w ∈ newObjectPuts := by
    intro w hw
    rcases List.mem_append.mp hw with hw | hw
    · exact puts_cases hw
    · obtain ⟨g, -, rfl⟩ := List.mem_map.mp hw
      exact Or.inr g.put_mem
  have hkey : ∀ w ∈ newObjectPuts, w.key ≠ Strings.bio := by decide
  have hvalue : ∀ a ∈ newObjectPuts, ∀ b ∈ newObjectPuts, a.path = b.path → a.value = b.value := by
    decide
  intro a ha b hb hpath hsame
  rcases hcases a ha with ⟨hakey, havalue⟩ | ha
  · rcases hcases b hb with ⟨-, hbvalue⟩ | hb
    · rw [havalue, hbvalue]
    · exact absurd (hsame ▸ hakey) (hkey b hb)
  · rcases hcases b hb with ⟨hbkey, -⟩ | hb
    · exact absurd (hsame ▸ hbkey) (hkey a ha)
    · exact hvalue a ha b hb hpath

end GradeIo

/-! ## Runs -/

namespace GradeIo.Viewing

open DocDb App Transition

structure State where
  world : World
  /-- The globals accessed since the launch. -/
  initialised : List Global
  /-- The bios confirmed on an edit-bio screen, with the document of the user. -/
  confirmed : List (DocPath × String)

inductive Event where
  | look (l : Look)
  | confirmBio (newBio : String)
  /-- `CurrentUser` is set. -/
  | signIn (u : IUser)
  /-- The app is started anew. -/
  | launch

def bioPut (c : DocPath × String) : Put := ⟨c.1, Strings.bio, .string c.2⟩

/-- The initialiser of a global may run before the look fetches something, but
the store that the two leave is the same. -/
def step [TextOps] (s : State) : Event → Option State
  | .look l =>
      let fresh := (l.globals s.world).filter fun g => g ∉ s.initialised
      let world := after l.run s.world
      some { s with
        world := { world with store := world.store.putAll (fresh.map Global.put) }
        initialised := s.initialised ++ fresh }
  | .confirmBio newBio => some { s with
      world := after (confirmBioChange newBio) s.world
      confirmed := s.confirmed ++ (s.world.currentUser.ref.map fun p => (p, newBio)).toList }
  | .signIn u => some { s with world := { s.world with currentUser := u } }
  | .launch => some { s with
      world := { s.world with
        currentUser := .base BaseUser.init
        currentClassroom := Classroom.new "." }
      initialised := [] }

def system [TextOps] (start : Store) : System State Event where
  Init s := s.world.store = start ∧ s.confirmed = []
  step := step

/-- The bio that was confirmed last for the user with the document. -/
def lastConfirmed (confirmed : List (DocPath × String)) (p : DocPath) : Option String :=
  (confirmed.reverse.find? fun c => c.1 = p).map Prod.snd

/-- The store is what it was, with the bios confirmed since. -/
structure Untouched (start : Store) (s : State) : Prop where
  store : s.world.store = start.putAll (s.confirmed.map bioPut)
  bio : ∀ p, s.world.store.field p Strings.bio =
    ((lastConfirmed s.confirmed p).map Value.string).or (start.field p Strings.bio)

/-- On the state before the step: what the look sets is there, and so is what
the initialisers of the globals set that it is the first to access. -/
def SafeStep [TextOps] (s : State) : Event → Prop
  | .look l => Look.Harmless s.world l
      ∧ ∀ g ∈ l.globals s.world, g ∈ s.initialised ∨ g.put.Holds s.world.store
  | _ => True

section

variable [TextOps] {start : Store} {s s' : State}

omit [TextOps] in
theorem field_bio (start : Store) (confirmed : List (DocPath × String)) (p : DocPath) :
    (start.putAll (confirmed.map bioPut)).field p Strings.bio =
      ((lastConfirmed confirmed p).map Value.string).or (start.field p Strings.bio) := by
  have hfind : ((confirmed.map bioPut).reverse.find? fun w =>
      w.path = p ∧ w.key = Strings.bio) =
        (confirmed.reverse.find? fun c => c.1 = p).map bioPut := by
    rw [← List.map_reverse, List.find?_map]
    refine congrArg (Option.map bioPut <| confirmed.reverse.find? ·) (funext fun c => ?_)
    exact decide_eq_decide.mpr (by simp [bioPut])
  rw [Store.field_putAll, hfind, lastConfirmed, Option.map_map, Option.map_map]
  rfl

omit [TextOps] in
theorem untouched_of_store (h : s.world.store = start.putAll (s.confirmed.map bioPut)) :
    Untouched start s :=
  ⟨h, fun p => by rw [h, field_bio]⟩

/-- What a look and the initialisers leave in the store. -/
theorem store_step_look {l : Look} (hs : (system start).step s (.look l) = some s') :
    s'.confirmed = s.confirmed ∧ s'.world.store = s.world.store.putAll
      (l.puts s.world ++ ((l.globals s.world).filter fun g => g ∉ s.initialised).map Global.put) := by
  obtain rfl := Option.some.inj hs
  refine ⟨rfl, ?_⟩
  rw [Store.putAll_append, ← Look.store_look]

theorem store_step_look_eq_iff {l : Look} (hs : (system start).step s (.look l) = some s') :
    s'.world.store = s.world.store ↔ SafeStep s (.look l) := by
  rw [(store_step_look hs).2, Store.putAll_eq_self_iff (l.puts_agree _)]
  simp only [SafeStep, List.forall_mem_append, Look.harmless_iff, List.forall_mem_map,
    List.mem_filter]
  refine and_congr_right fun _ => forall_congr' fun g => ?_
  by_cases hg : g ∈ s.initialised
  · simp [hg]
  · simp [hg]

theorem step_confirmBio {newBio : String}
    (hs : (system start).step s (.confirmBio newBio) = some s') :
    ∃ new, s'.confirmed = s.confirmed ++ new
      ∧ s'.world.store = s.world.store.putAll (new.map bioPut) := by
  obtain rfl := Option.some.inj hs
  refine ⟨_, rfl, ?_⟩
  unfold confirmBioChange
  rw [after_get_bind, after_perform, IUser.setBio, DatabaseHelper.saveUserPropertyToDoc]
  cases s.world.currentUser.ref <;> rfl

theorem Untouched.step (h : Untouched start s) {e : Event} (hsafe : SafeStep s e)
    (hs : (system start).step s e = some s') : Untouched start s' := by
  refine untouched_of_store ?_
  cases e with
  | look l =>
      rw [(store_step_look_eq_iff hs).mpr hsafe, (store_step_look hs).1]
      exact h.store
  | confirmBio newBio =>
      obtain ⟨new, hconfirmed, hstore⟩ := step_confirmBio hs
      rw [hconfirmed, hstore, h.store, List.map_append, Store.putAll_append]
  | signIn u =>
      obtain rfl := Option.some.inj hs
      exact h.store
  | launch =>
      obtain rfl := Option.some.inj hs
      exact h.store

/-- In a run of safe steps nothing is written but the bios that are confirmed,
and a further look changes something exactly if it is not safe. -/
theorem untouched_of_safe (h : (system start).Run SafeStep s) :
    Untouched start s ∧ ∀ l s', (system start).step s (.look l) = some s' →
      (s'.world.store = s.world.store ↔ SafeStep s (.look l)) := by
  refine ⟨?_, fun l s' hs => store_step_look_eq_iff hs⟩
  refine h.invariant (fun s hinit => untouched_of_store ?_) fun _ _ _ hI hsafe hs =>
    hI.step hsafe hs
  rw [hinit.1, hinit.2]
  rfl

end

/-! ## Ann and her bio -/

section Example

attribute [local instance] TextOps.ascii

def annPath : DocPath := ⟨Strings.student, "s_ann"⟩

/-- Ann is signed in, in a class; the bios that she has confirmed are stored. -/
def annState (start : Store) (currentClassroom : Classroom)
    (confirmed : List (DocPath × String)) : State where
  world := { emptyWorld with
    store := start.putAll (confirmed.map bioPut)
    currentUser := .student (Student.new "s_ann")
    currentClassroom := currentClassroom }
  initialised := [.currentClassroom, .currentAssignment]
  confirmed := confirmed

theorem ref_ann : (IUser.student (Student.new "s_ann")).ref = some annPath := by decide

theorem run_annState (ok : State → Event → Prop) {start : Store} {c : Classroom} {bio : String}
    (hok : ok (annState start c []) (.confirmBio bio)) :
    (system start).Run ok (annState start c [(annPath, bio)]) := by
  have hinit : (system start).Init (annState start c []) := ⟨rfl, rfl⟩
  refine .step (.init hinit) hok ?_
  change Viewing.step (annState start c []) (.confirmBio bio) = _
  simp only [Viewing.step, confirmBioChange, after_get_bind, after_perform, IUser.setBio,
    DatabaseHelper.saveUserPropertyToDoc, annState, ref_ann, Option.map_some]
  rfl

def quizDoc : Doc :=
  ((∅ : Doc).insert Strings.id (.string "quiz")).insert Strings.description (.string "Fractions")

def quizStore : Store := fun c =>
  if c = Strings.assignment then (∅ : Collection).insert "quiz" quizDoc else ∅

def mathsClass : Classroom := { Classroom.new "" with assignmentIDs := some ["quiz"] }

/-- She looks at the assignments of her class, a quiz. -/
theorem untouched_of_safe_quiz :
    ∃ s, (system quizStore).step (annState quizStore mathsClass [(annPath, "I like maths.")])
        (.look (.studentAssignments 0)) = some s ∧ Untouched quizStore s
      ∧ Classroom.visited (mathsClass.assignmentDocuments s.world.store) = [("quiz", quizDoc)] := by
  have hdocs : ∀ s : Store, s.get? ⟨Strings.assignment, "quiz"⟩ = some quizDoc →
      Classroom.visited (mathsClass.assignmentDocuments s) = [("quiz", quizDoc)] := by
    intro s hquiz
    have hlist : mathsClass.assignmentDocuments s =
        DatabaseHelper.getDocumentsFromIDs s Strings.assignment ["quiz"] := rfl
    rw [hlist, DatabaseHelper.getDocumentsFromIDs_singleton fun m _ hsame =>
      (TextOps.alone_ascii m _ hsame).symm, hquiz]
    decide +kernel
  have hquiz : (annState quizStore mathsClass [(annPath, "I like maths.")]).world.store.get?
      ⟨Strings.assignment, "quiz"⟩ = some quizDoc := by
    decide +kernel
  have hsafe : SafeStep (annState quizStore mathsClass [(annPath, "I like maths.")])
      (.look (.studentAssignments 0)) := by
    refine ⟨⟨fun _ _ _ h => ?_, fun c hc => Or.inr ?_, fun _ _ _ h => ?_⟩, ?_⟩
    · cases h
    · obtain rfl : mathsClass = c := Option.some.inj hc
      rw [hdocs _ hquiz]
      decide +kernel
    · cases h
    · simp [Look.globals, annState]
  obtain ⟨s, hs⟩ : ∃ s, (system quizStore).step
      (annState quizStore mathsClass [(annPath, "I like maths.")]) (.look (.studentAssignments 0)) =
        some s := ⟨_, rfl⟩
  have hsame := (store_step_look_eq_iff hs).mpr hsafe
  refine ⟨s, hs, (untouched_of_safe (.step (run_annState SafeStep trivial) hsafe hs)).1, ?_⟩
  rw [hsame]
  exact hdocs _ hquiz

/-- She opens the home screen: the bio is `Hello`. -/
theorem not_untouched_hello :
    ∃ s, (system (fun _ => ∅)).Reachable s ∧ ¬ Untouched (fun _ => ∅) s := by
  let σ := annState (fun _ => ∅) (Classroom.new "") [(annPath, "I like maths.")]
  have hrun : (system (fun _ => ∅)).Reachable σ := run_annState _ trivial
  obtain ⟨s, hs⟩ : ∃ s, (system (fun _ => ∅)).step σ (.look (.homepage 0)) = some s := ⟨_, rfl⟩
  refine ⟨s, .step hrun trivial hs, fun h => ?_⟩
  have hsame : s.world.store = σ.world.store := by
    rw [h.store, (store_step_look hs).1]
    rfl
  have hsafe := (store_step_look_eq_iff hs).mp hsame
  have hello := hsafe.1.bio 0 _ annPath rfl rfl ref_ann
  have hmaths := field_bio (fun _ => ∅) [(annPath, "I like maths.")] annPath
  have hsome := hmaths.symm.trans hello
  simp [lastConfirmed] at hsome

end Example

end GradeIo.Viewing
