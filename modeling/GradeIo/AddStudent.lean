import GradeIo.Objects
import GradeIo.UserHelper

/-!
# Adding students

`AddStudentController.swift`, `Classroom.AddStudent` and `Parent.AddStudent`.
A link is written on both sides: into the student's document, and into the list
of the class or the parent. Nothing takes a link back.

What each handler has written when it ends is said once, in
`submitPressed_eq_ok` and `addStudent_eq_ok`.
-/

namespace GradeIo

open DocDb App

/-- The object is appended to first; the list is also saved under `Class/studentIDs`. -/
def Classroom.addStudent (c : Classroom) (newStudent : String) : App Classroom := do
  let studentIDs ← App.unwrap c.studentIDs
  let c' := { c with studentIDs := some (studentIDs ++ [newStudent]) }
  perform (Classroom.setStudents (studentIDs ++ [newStudent]))
  perform (DatabaseHelper.savePropertyToDatabase Strings.student newStudent Strings.classID
    (c.id.elim .null .string))
  let washingtonRef ← App.unwrap c.ref
  perform (some (.unionMerge washingtonRef Strings.studentIDs (.string newStudent)))
  pure c'

/-- The completion handler of `SubmitPressed`. -/
def AddStudentPopupController.add (text : String) (res : Student) : App Unit := do
  let currentClassroom := (← get).currentClassroom
  let newClass ← App.unwrap currentClassroom.id
  perform (res.setClassroom newClass)
  let c ← currentClassroom.addStudent text
  setCurrentClassroom c

/-- The page is refreshed without waiting for the student. -/
def AddStudentPopupController.submitPressed [TextOps] (studentIDText : Option String) : App Unit := do
  performSegue "TSLNav"
  match studentIDText with
  | some text =>
      detach do
        let res ← ask fun s => DatabaseHelper.getStudentFromID s text
        add text res
  | none => pure ()

/-- The completion handler of `AddStudent`. -/
def Parent.add (parent : Parent) (newStudent : String) (res : Student) : App Unit := do
  let id ← App.unwrap parent.id
  let washingtonRef ← App.unwrap (documentPath Strings.parent id)
  perform (some (.unionMerge washingtonRef Strings.students (.string newStudent)))
  perform (res.setParentID id)

/-- The object has the student whether or not there is one. -/
def Parent.addStudent [TextOps] (parent : Parent) (newStudent : String) : App Parent := do
  detach do
    let res ← ask fun s => DatabaseHelper.getStudentFromID s newStudent
    Parent.add parent newStudent res
  pure { parent with students := some (parent.students.getD [] ++ [newStudent]) }

/-! ## What the handlers have written -/

section

variable {σ σ' : World} {s : Store}

theorem DatabaseHelper.getStudentFromID_eq_ok [TextOps] {studentID : String} {res : Student} :
    getStudentFromID s studentID = .ok res ↔
      ∃ m d, Named s Strings.student studentID m d
        ∧ Student.ofDictionary (Doc.data d) = some res :=
  firstFromIDs_eq_ok

/-- A student is fetched, and more is done with it. -/
theorem run_detach_fetch_eq_ok [TextOps] {studentID : String} {f : Student → App Unit}
    (hf : ∀ res σ₁ σ₂, (f res).run σ₁ ≠ .error .noAnswer σ₂)
    (h : (detach do
      let res ← ask fun s => DatabaseHelper.getStudentFromID s studentID
      f res).run σ = .ok () σ') :
    σ' = σ ∨ ∃ m d res, DatabaseHelper.Named σ.store Strings.student studentID m d
      ∧ Student.ofDictionary (Doc.data d) = some res ∧ (f res).run σ = .ok () σ' := by
  rw [run_detach_eq_ok, run_bind_eq_ok, run_bind_eq_error, run_ask] at h
  cases hget : DatabaseHelper.getStudentFromID σ.store studentID with
  | error e =>
      rw [hget] at h
      left
      simp only [reduceCtorEq, false_and, exists_false, false_or, or_false,
        EStateM.Result.error.injEq] at h
      exact h.2.symm
  | ok res =>
      rw [hget] at h
      obtain ⟨m, d, hd, hdec⟩ := DatabaseHelper.getStudentFromID_eq_ok.mp hget
      rcases h with ⟨a, σ₁, hask, hrun⟩ | herror | ⟨a, σ₁, -, hrun⟩
      · injection hask with hres hσ
        subst hres hσ
        exact Or.inr ⟨m, d, _, hd, hdec, hrun⟩
      · cases herror
      · exact absurd hrun (hf a σ₁ σ')

theorem AddStudentPopupController.add_ne_noAnswer (text : String) (res : Student) (σ σ' : World) :
    (add text res).run σ ≠ .error .noAnswer σ' := by
  intro h
  simp only [add, Classroom.addStudent, run_bind_eq_error, run_unwrap_eq_error,
    run_perform_eq_error, reduceCtorEq, false_and, and_false, exists_false, or_false,
    EStateM.run_get, run_setCurrentClassroom, EStateM.run_pure] at h

theorem Parent.add_ne_noAnswer (parent : Parent) (newStudent : String) (res : Student)
    (σ σ' : World) : (Parent.add parent newStudent res).run σ ≠ .error .noAnswer σ' := by
  intro h
  simp only [Parent.add, run_bind_eq_error, run_unwrap_eq_error, run_perform_eq_error,
    reduceCtorEq, false_and, and_false, exists_false, or_false] at h

theorem setStudents_eq (newStudents : List String) :
    Classroom.setStudents newStudents =
      some (.setMerge ⟨Strings.class, Strings.studentIDs⟩ Strings.students
        (.array (newStudents.map .string))) := by
  rw [Classroom.setStudents, DatabaseHelper.savePropertyToDatabase,
    documentPath_of_no_slash (by decide) (by decide)]
  rfl

theorem Classroom.addStudent_eq_ok {c c' : Classroom} {newStudent : String}
    (h : (c.addStudent newStudent).run σ = .ok c' σ') :
    ∃ q r vs, documentPath Strings.student newStudent = some q ∧ c.ref = some r
      ∧ σ'.store = σ.store.applyAll
          [.setMerge ⟨Strings.class, Strings.studentIDs⟩ Strings.students vs,
           .setMerge q Strings.classID (c.id.elim .null .string),
           .unionMerge r Strings.studentIDs (.string newStudent)] := by
  simp only [addStudent, run_bind_eq_ok, run_unwrap_eq_ok, run_perform_eq_ok, setStudents_eq,
    DatabaseHelper.savePropertyToDatabase, Option.map_eq_some_iff, Option.some.injEq,
    EStateM.run_pure] at h
  obtain ⟨ids, _, ⟨-, rfl⟩, _, _, ⟨_, rfl, rfl⟩, _, _, ⟨_, ⟨q, hq, rfl⟩, rfl⟩, r, _, ⟨hr, rfl⟩,
    _, _, ⟨_, rfl, rfl⟩, hend⟩ := h
  injection hend with _ hend
  subst hend
  exact ⟨q, r, _, hq, hr, rfl⟩

theorem AddStudentPopupController.add_eq_ok {text : String} {res : Student}
    (h : (add text res).run σ = .ok () σ') :
    ∃ newClass p q r vs, σ.currentClassroom.id = some newClass
      ∧ (IUser.student res).ref = some p ∧ documentPath Strings.student text = some q
      ∧ documentPath Strings.class newClass = some r
      ∧ σ'.store = σ.store.applyAll
          [.setMerge p Strings.classID (.string newClass),
           .setMerge ⟨Strings.class, Strings.studentIDs⟩ Strings.students vs,
           .setMerge q Strings.classID (.string newClass),
           .unionMerge r Strings.studentIDs (.string text)] := by
  simp only [add, run_bind_eq_ok, run_unwrap_eq_ok, run_perform_eq_ok, EStateM.run_get,
    Student.setClassroom, DatabaseHelper.saveUserPropertyToDoc, Option.map_eq_some_iff,
    run_setCurrentClassroom, EStateM.Result.ok.injEq] at h
  obtain ⟨_, _, ⟨rfl, rfl⟩, newClass, _, ⟨hid, rfl⟩, _, _, ⟨_, ⟨p, hp, rfl⟩, rfl⟩, c, _, hadd,
    -, rfl⟩ := h
  obtain ⟨q, r, vs, hq, hr, hstore⟩ := Classroom.addStudent_eq_ok hadd
  rw [Classroom.ref, hid] at hr
  rw [hid] at hstore
  exact ⟨newClass, p, q, r, vs, hid, hp, hq, hr, hstore⟩

/-- What a teacher has written: nothing, or all of it for the student found. -/
theorem AddStudentPopupController.submitPressed_eq_ok [TextOps] {studentIDText : Option String}
    (h : (submitPressed studentIDText).run σ = .ok () σ') :
    σ'.store = σ.store ∨ ∃ text m d res newClass p q r vs,
      studentIDText = some text ∧ DatabaseHelper.Named σ.store Strings.student text m d
      ∧ Student.ofDictionary (Doc.data d) = some res
      ∧ σ.currentClassroom.id = some newClass
      ∧ (IUser.student res).ref = some p ∧ documentPath Strings.student text = some q
      ∧ documentPath Strings.class newClass = some r
      ∧ σ'.store = σ.store.applyAll
          [.setMerge p Strings.classID (.string newClass),
           .setMerge ⟨Strings.class, Strings.studentIDs⟩ Strings.students vs,
           .setMerge q Strings.classID (.string newClass),
           .unionMerge r Strings.studentIDs (.string text)] := by
  unfold submitPressed at h
  rw [EStateM.run_bind, run_performSegue] at h
  cases studentIDText with
  | none =>
      simp only [EStateM.run_pure, EStateM.Result.ok.injEq, true_and] at h
      exact Or.inl (h ▸ rfl)
  | some text =>
      rcases run_detach_fetch_eq_ok (add_ne_noAnswer text) h with
        rfl | ⟨m, d, res, hd, hdec, hadd⟩
      · exact Or.inl rfl
      · obtain ⟨newClass, p, q, r, vs, hadded⟩ := add_eq_ok hadd
        exact Or.inr ⟨text, m, d, res, newClass, p, q, r, vs, rfl, hd, hdec, hadded⟩

/-- What a parent has written. -/
theorem Parent.addStudent_eq_ok [TextOps] {parent parent' : Parent} {newStudent : String}
    (h : (parent.addStudent newStudent).run σ = .ok parent' σ') :
    σ'.store = σ.store ∨ ∃ m d res id p r,
      DatabaseHelper.Named σ.store Strings.student newStudent m d
      ∧ Student.ofDictionary (Doc.data d) = some res
      ∧ parent.id = some id ∧ (IUser.student res).ref = some p
      ∧ documentPath Strings.parent id = some r
      ∧ σ'.store = σ.store.applyAll
          [.unionMerge r Strings.students (.string newStudent),
           .setMerge p Strings.parentID (.string id)] := by
  simp only [addStudent, run_bind_eq_ok] at h
  obtain ⟨_, σ₁, hrun, hend⟩ := h
  obtain ⟨-, rfl⟩ : _ ∧ σ₁ = σ' := by simpa using hend
  rcases run_detach_fetch_eq_ok (parent.add_ne_noAnswer newStudent) hrun with
    rfl | ⟨m, d, res, hd, hdec, hadd⟩
  · exact Or.inl rfl
  · simp only [Parent.add, run_bind_eq_ok, run_unwrap_eq_ok, run_perform_eq_ok,
      Student.setParentID, DatabaseHelper.saveUserPropertyToDoc, Option.map_eq_some_iff,
      Option.some.injEq] at hadd
    obtain ⟨id, _, ⟨hid, rfl⟩, r, _, ⟨hr, rfl⟩, _, _, ⟨_, rfl, rfl⟩, _, ⟨p, hp, rfl⟩, rfl⟩ := hadd
    exact Or.inr ⟨m, d, res, id, p, r, hd, hdec, hid, hp, hr, rfl⟩

theorem setClassroom_eq {newClass : String} {res : Student} {p : DocPath}
    (hp : (IUser.student res).ref = some p) :
    res.setClassroom newClass = some (.setMerge p Strings.classID (.string newClass)) := by
  rw [Student.setClassroom, DatabaseHelper.saveUserPropertyToDoc, hp]
  rfl

section Press

variable [TextOps] {text newClass : String} {res : Student} {p q r : DocPath}
  (hfetch : DatabaseHelper.getStudentFromID σ.store text = .ok res)
  (hid : σ.currentClassroom.id = some newClass) (hp : (IUser.student res).ref = some p)

include hfetch hid hp

/-- A teacher's press for a student whose document decodes. -/
theorem AddStudentPopupController.run_submitPressed {ids : List String}
    (hids : σ.currentClassroom.studentIDs = some ids)
    (hq : documentPath Strings.student text = some q)
    (hr : documentPath Strings.class newClass = some r) :
    (submitPressed (some text)).run σ = .ok ()
      { σ with
        store := σ.store.applyAll
          [.setMerge p Strings.classID (.string newClass),
           .setMerge ⟨Strings.class, Strings.studentIDs⟩ Strings.students
             (.array ((ids ++ [text]).map .string)),
           .setMerge q Strings.classID (.string newClass),
           .unionMerge r Strings.studentIDs (.string text)]
        currentClassroom := { σ.currentClassroom with studentIDs := some (ids ++ [text]) }
        screens := σ.screens ++ ["TSLNav"] } := by
  have href : σ.currentClassroom.ref = some r := by rw [Classroom.ref, hid, Option.bind_some, hr]
  have hsave : DatabaseHelper.savePropertyToDatabase Strings.student text Strings.classID
      (.string newClass) = some (.setMerge q Strings.classID (.string newClass)) := by
    rw [DatabaseHelper.savePropertyToDatabase, hq]
    rfl
  unfold submitPressed
  rw [EStateM.run_bind, run_performSegue]
  refine run_detach_ok ?_
  rw [EStateM.run_bind, run_ask_ok hfetch]
  simp only [add, Classroom.addStudent, EStateM.run_bind, EStateM.run_get, hid, hids, href,
    setClassroom_eq hp, Option.elim_some, hsave, setStudents_eq, run_unwrap_some, run_perform_some,
    run_setCurrentClassroom, EStateM.run_pure]
  rfl

/-- Without a list in the object, the press traps after its first write. -/
theorem AddStudentPopupController.run_submitPressed_trap
    (hids : σ.currentClassroom.studentIDs = none) :
    (submitPressed (some text)).run σ = .error .trap
      { σ with
        store := σ.store.apply (.setMerge p Strings.classID (.string newClass))
        screens := σ.screens ++ ["TSLNav"] } := by
  unfold submitPressed
  rw [EStateM.run_bind, run_performSegue]
  refine run_detach_trap ?_
  rw [EStateM.run_bind, run_ask_ok hfetch]
  simp only [add, Classroom.addStudent, EStateM.run_bind, EStateM.run_get, hid, hids,
    setClassroom_eq hp, run_unwrap_some, run_unwrap_none, run_perform_some]

end Press

end

end GradeIo
