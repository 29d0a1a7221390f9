import GradeIo.Lib.Rank
import GradeIo.Lib.Transition
import GradeIo.Populate
import GradeIo.Viewing

/-!
# Opening what was tapped

A list screen fetches documents and shows them; a tap hands the position of an
entry to the detail screen, which fetches once more and takes what stands there
now. In between anything may be written, and the current class may change.

`Right` is what a tap should come to: no index is out of range, and the item
shown has the id of the entry. It does if the document of the entry is still
listed, after as many others as when the list was shown, and the detail screen
finds the results it goes by (`SafeTap`); `ParentHomepage`, which hands on the
id of the child that was tapped, has no such condition.
-/

namespace GradeIo.Tapped

open DocDb App Transition UserHelper

/-! ## What the fetches give -/

/-- A document whose name is one of the ids is there, after `i` others, and has
the property. -/
def Listed [TextOps] (s : Store) (collection : String) (ids : Option (List String)) (i : Nat)
    (P : Doc → Prop) : Prop :=
  ∃ name d, s.get? ⟨collection, name⟩ = some d ∧ TextOps.contains (ids.getD []) name = true
    ∧ s.rank collection (TextOps.contains (ids.getD [])) name = i ∧ P d

section

variable [TextOps] {s : Store} {collection : String} {ids : Option (List String)} {i : Nat}
  {P : Doc → Prop}

theorem listed_iff_getElem? : Listed s collection ids i P ↔
    ∃ p, (DatabaseHelper.getDocumentsFromIDs s collection (ids.getD []))[i]? = some p ∧ P p.2 := by
  have hlisted : DatabaseHelper.getDocumentsFromIDs s collection (ids.getD []) =
      s.listed collection (TextOps.contains (ids.getD [])) := rfl
  rw [hlisted]
  constructor
  · rintro ⟨name, d, hget, hid, hrank, hP⟩
    exact ⟨(name, d), Store.getElem?_listed.mpr ⟨hget, hid, hrank⟩, hP⟩
  · rintro ⟨⟨name, d⟩, hdoc, hP⟩
    obtain ⟨hget, hid, hrank⟩ := Store.getElem?_listed.mp hdoc
    exact ⟨name, d, hget, hid, hrank, hP⟩

omit [TextOps] in
theorem getElem?_of_mapM {α β : Type} {f : α → Option β} {l : List α} {bs : List β}
    (h : l.mapM f = some bs) (i : Nat) : bs[i]? = l[i]?.bind f := by
  induction l generalizing bs i with
  | nil =>
      obtain rfl := Option.some.inj h
      simp
  | cons a l ih =>
      simp only [List.mapM_cons, Option.bind_eq_bind, Option.bind_eq_some_iff] at h
      obtain ⟨b, hb, bs', hbs, h⟩ := h
      obtain rfl := Option.some.inj h
      cases i with
      | zero => simp [hb]
      | succ i => simpa using ih hbs i

theorem run_getAssignmentObjects_eq_ok {c : Classroom} {now : Rat} {σ σ' : World}
    {res : List Assignment} (h : (c.getAssignmentObjects now).run σ = .ok res σ') :
    res = (c.assignmentDocuments σ.store).map (fun p => Assignment.loaded now p.2)
      ∧ σ'.currentUser = σ.currentUser ∧ σ'.currentClassroom = σ.currentClassroom
      ∧ ∀ studentIDs, studentsOf σ'.store studentIDs = studentsOf σ.store studentIDs := by
  rw [Classroom.getAssignmentObjects, EStateM.run_bind, run_ask_pure] at h
  by_cases hall : ∀ p ∈ c.assignmentDocuments σ.store, Assignment.loads p.2 = true
  · simp only [Classroom.run_assignmentObjects hall] at h
    injection h with hres hworld
    subst hworld
    refine ⟨hres.symm, rfl, rfl, fun studentIDs => ?_⟩
    have hsame : σ.store.applyAll ((c.assignmentDocuments σ.store).flatMap fun p =>
        Assignment.placeholder p.2) Strings.student = σ.store Strings.student := by
      refine Store.applyAll_collection_of_ne fun w hw => ?_
      rw [Assignment.path_of_mem_placeholders hw]
      decide
    unfold studentsOf DatabaseHelper.getDocumentsFromIDs Store.documents
    simp only [hsame]
  · simp only [not_forall, Bool.not_eq_true] at hall
    obtain ⟨p, hp, hloads⟩ := hall
    obtain ⟨σ₁, htrap⟩ : ∃ σ₁, ((c.assignmentDocuments σ.store).mapM
        (Classroom.assignmentObject now)).run σ = .error .trap σ₁ :=
      Classroom.run_assignmentObjects_trap hp hloads
    simp only [htrap] at h
    cases h

theorem run_getStudentObjects_eq_ok {c : Classroom} {σ σ' : World} {res : List Student}
    (h : c.getStudentObjects.run σ = .ok res σ') :
    studentsOf σ.store c.studentIDs = some res ∧ σ' = σ := by
  rw [c.getStudentObjects_eq, run_ask] at h
  cases hs : studentsOf σ.store c.studentIDs with
  | none => simp [hs, GradeIo.unwrap] at h
  | some students =>
      simp only [hs, GradeIo.unwrap] at h
      injection h with hres hworld
      exact ⟨congrArg some hres, hworld.symm⟩

end

/-! ## The screens -/

/-- The list screens that hand on a position. -/
inductive ListScreen where
  /-- `StudentAssignmentsView`, which opens `StudentAssignmentOverview`. -/
  | studentAssignments
  /-- `TeacherAssignmentPage`, which opens `TeacherAssignmentOverview`. -/
  | teacherAssignments
  /-- `ParentStudentOverview`, which opens `ParentStudentAssignmentOverview`. -/
  | parentStudent (studentID : String)
  /-- `TeacherStudentListPage`, which opens `TeacherOverviewStudentList`. -/
  | teacherStudents

namespace ListScreen

/-- The ids of the entries shown. -/
def entries [TextOps] (now : Rat) : ListScreen → App (Screen (List (Option String)))
  | .studentAssignments => do
      let shown ← StudentAssignmentsView.viewDidLoad now
      pure (shown.map fun r => r.1.listAssignments.map Assignment.id)
  | .teacherAssignments => do
      let res ← TeacherAssignmentPage.viewDidLoad now
      pure (.ok (res.map Assignment.id))
  | .parentStudent studentID => do
      let shown ← ParentStudentOverview.viewDidLoad now studentID
      pure (shown.map fun r => r.listAssignments.map Assignment.id)
  | .teacherStudents => do
      let res ← TeacherStudentListPage.viewDidLoad
      pure (.ok (res.map fun student => student.id))

/-- The id of the item that the detail screen shows, opened at a position. -/
def openAt [TextOps] (now : Rat) (i : Nat) : ListScreen → App (Screen (Option String))
  | .studentAssignments => do
      let shown ← StudentAssignmentOverview.viewDidLoad now i
      pure (shown.map fun r => r.assignment.id)
  | .teacherAssignments => do
      let shown ← TeacherAssignmentOverview.viewDidLoad now i
      pure (shown.map fun r => r.assignment.id)
  | .parentStudent studentID => do
      let shown ← ParentStudentAssignmentOverview.viewDidLoad now studentID i
      pure (shown.map fun r => r.assignment.id)
  | .teacherStudents => do
      let shown ← TeacherOverviewStudentList.viewDidLoad now i
      pure (shown.map fun r => r.student.id)

end ListScreen

/-- How opening a detail screen ends. -/
abbrev Outcome := Except Halt (Screen (Option String))

def outcome : EStateM.Result Halt World (Screen (Option String)) → Outcome
  | .ok shown _ => .ok shown
  | .error e _ => .error e

/-- No index was out of range, and what is shown, if anything, has the id. -/
def Right (x : Option String) (o : Outcome) : Prop :=
  o ≠ .ok (.error .index) ∧ ∀ id, o = .ok (.ok id) → id = x

/-- What opening the detail screen at the position needs: the entry's document
is still the one at the position, and the results that the screen goes by are
there. -/
def SafeTap [TextOps] (σ : World) (now : Rat) (i : Nat) (x : Option String) : ListScreen → Prop
  | .studentAssignments =>
      Listed σ.store Strings.assignment σ.currentClassroom.assignmentIDs i fun d =>
        (Assignment.loaded now d).id = x
          ∧ (Assignment.loaded now d).RowsFit σ.currentUser.id
  | .teacherAssignments => ∀ students,
      studentsOf σ.store σ.currentClassroom.studentIDs = some students →
      Listed σ.store Strings.assignment σ.currentClassroom.assignmentIDs i fun d =>
        (Assignment.loaded now d).id = x
          ∧ TeacherAssignmentOverview.FirstHasResult students (Assignment.loaded now d)
  | .parentStudent studentID => ∀ c, classOfStudent σ.store studentID = some c →
      Listed σ.store Strings.assignment c.assignmentIDs i fun d =>
        (Assignment.loaded now d).id = x
          ∧ (Assignment.loaded now d).RowsFit (some studentID)
  | .teacherStudents =>
      Listed σ.store Strings.student σ.currentClassroom.studentIDs i fun d =>
        ∃ student, Student.load d = some student ∧ student.id = x

section

variable [TextOps] {σ σ' : World} {now : Rat} {i : Nat} {x : Option String}
  {o : Screen (Option String)}

omit [TextOps] in
theorem right_of_error {e : Halt} : Right x (.error e) := ⟨nofun, nofun⟩

omit [TextOps] in
theorem right_map {α : Type} {shown : Screen α} {f : α → Option String} (h : shown.InRange)
    (hx : ∀ a, shown = .ok a → f a = x) : Right x (.ok (shown.map f)) := by
  cases shown with
  | error stop =>
      refine ⟨fun heq => h ?_, fun id heq => ?_⟩
      · exact congrArg Except.error (Except.error.inj (Except.ok.inj heq))
      · cases heq
  | ok a =>
      refine ⟨fun heq => ?_, fun id heq => ?_⟩
      · cases heq
      · obtain rfl := Except.ok.inj (Except.ok.inj heq)
        exact hx a rfl

omit [TextOps] in
theorem map_eq_ok {α : Type} {shown : Screen α} {f : α → Option String} {id : Option String} :
    shown.map f = .ok id ↔ ∃ a, shown = .ok a ∧ f a = id := by
  cases shown with
  | error stop => simp [Except.map]
  | ok a => simp [Except.map]

/-! ### What the detail screens populate themselves with -/

theorem openAt_studentAssignments
    (h : (ListScreen.studentAssignments.openAt now i).run σ = .ok o σ') :
    o = (StudentAssignmentOverview.populate σ.currentUser.id i
      ((σ.currentClassroom.assignmentDocuments σ.store).map fun p =>
        Assignment.loaded now p.2)).map fun r => r.assignment.id := by
  obtain ⟨shown, σ₁, hload, h⟩ := run_bind_eq_ok.mp h
  rw [StudentAssignmentOverview.viewDidLoad, run_get_bind] at hload
  obtain ⟨res, σ₂, hfetch, hload⟩ := run_bind_eq_ok.mp hload
  obtain ⟨rfl, huser, -⟩ := run_getAssignmentObjects_eq_ok hfetch
  rw [run_get_bind, huser] at hload
  obtain ⟨rfl, -⟩ := run_pure_eq_ok.mp hload
  exact (run_pure_eq_ok.mp h).1.symm

theorem openAt_teacherAssignments
    (h : (ListScreen.teacherAssignments.openAt now i).run σ = .ok o σ') :
    ∃ students, studentsOf σ.store σ.currentClassroom.studentIDs = some students ∧
      o = (TeacherAssignmentOverview.populate i students
        ((σ.currentClassroom.assignmentDocuments σ.store).map fun p =>
          Assignment.loaded now p.2)).map fun r => r.assignment.id := by
  obtain ⟨shown, σ₁, hload, hshown⟩ := run_bind_eq_ok.mp h
  rw [TeacherAssignmentOverview.viewDidLoad, run_get_bind] at hload
  obtain ⟨students, σ₂, hstudents, hrest⟩ := run_bind_eq_ok.mp hload
  obtain ⟨hsome, rfl⟩ := run_getStudentObjects_eq_ok hstudents
  rw [run_get_bind] at hrest
  obtain ⟨res, σ₃, hfetch, hpopulate⟩ := run_bind_eq_ok.mp hrest
  obtain ⟨rfl, -⟩ := run_getAssignmentObjects_eq_ok hfetch
  obtain ⟨rfl, -⟩ := run_pure_eq_ok.mp hpopulate
  exact ⟨students, hsome, (run_pure_eq_ok.mp hshown).1.symm⟩

/-- What the screens of one student's result begin with. -/
theorem run_classOfStudent_eq_ok {α : Type} {a : α} {studentID : String} {f : Classroom → App α}
    (h : (do
        let student ← App.ask fun s => getStudentByID s studentID
        let classID ← App.unwrap student.classID
        let classroom ← App.ask fun s => DatabaseHelper.getClassroomFromID s classID
        f classroom : App α).run σ = .ok a σ') :
    ∃ c, classOfStudent σ.store studentID = some c ∧ (f c).run σ = .ok a σ' := by
  obtain ⟨student, σ₁, hstudent, hrest₁⟩ := run_bind_eq_ok.mp h
  obtain ⟨hstudent', rfl⟩ := run_ask_eq_ok.mp hstudent
  obtain ⟨classID, σ₂, hclassID, hrest₂⟩ := run_bind_eq_ok.mp hrest₁
  obtain ⟨hclassID', rfl⟩ := run_unwrap_eq_ok.mp hclassID
  obtain ⟨c, σ₃, hclass, hrest₃⟩ := run_bind_eq_ok.mp hrest₂
  obtain ⟨hclass', rfl⟩ := run_ask_eq_ok.mp hclass
  exact ⟨c, by simp [classOfStudent, hstudent', hclassID', hclass', Except.toOption], hrest₃⟩

theorem openAt_parentStudent {studentID : String}
    (h : ((ListScreen.parentStudent studentID).openAt now i).run σ = .ok o σ') :
    ∃ c students, classOfStudent σ.store studentID = some c ∧
      o = (ParentStudentAssignmentOverview.populate studentID i students
        ((c.assignmentDocuments σ.store).map fun p =>
          Assignment.loaded now p.2)).map fun r => r.assignment.id := by
  obtain ⟨shown, σ₁, hload, hshown⟩ := run_bind_eq_ok.mp h
  obtain ⟨c, hclass, hrest⟩ := run_classOfStudent_eq_ok hload
  obtain ⟨students, σ₂, hstudents, hrest₂⟩ := run_bind_eq_ok.mp hrest
  obtain ⟨-, rfl⟩ := run_getStudentObjects_eq_ok hstudents
  obtain ⟨res, σ₃, hfetch, hpopulate⟩ := run_bind_eq_ok.mp hrest₂
  obtain ⟨rfl, -⟩ := run_getAssignmentObjects_eq_ok hfetch
  obtain ⟨rfl, -⟩ := run_pure_eq_ok.mp hpopulate
  exact ⟨c, students, hclass, (run_pure_eq_ok.mp hshown).1.symm⟩

theorem openAt_teacherStudents
    (h : (ListScreen.teacherStudents.openAt now i).run σ = .ok o σ') :
    ∃ students assigns, studentsOf σ.store σ.currentClassroom.studentIDs = some students ∧
      o = (TeacherOverviewStudentList.populate i assigns students).map fun r => r.student.id := by
  obtain ⟨shown, σ₁, hload, hshown⟩ := run_bind_eq_ok.mp h
  rw [TeacherOverviewStudentList.viewDidLoad, run_get_bind] at hload
  obtain ⟨assigns, σ₂, hassigns, hrest₂⟩ := run_bind_eq_ok.mp hload
  obtain ⟨-, -, hclass, hsame⟩ := run_getAssignmentObjects_eq_ok hassigns
  rw [run_get_bind, hclass] at hrest₂
  obtain ⟨students, σ₃, hstudents, hrest₃⟩ := run_bind_eq_ok.mp hrest₂
  obtain ⟨hsome, rfl⟩ := run_getStudentObjects_eq_ok hstudents
  rw [hsame] at hsome
  refine ⟨students, assigns, hsome, ?_⟩
  rw [← (run_pure_eq_ok.mp hshown).1]
  refine congrArg (Except.map _) ?_
  split at hrest₃
  · rename_i stop hstop
    rw [hstop]
    exact (run_pure_eq_ok.mp hrest₃).1.symm
  · rename_i student hstudent
    obtain ⟨_, σ₄, -, hpure⟩ := run_bind_eq_ok.mp hrest₃
    rw [hstudent]
    exact (run_pure_eq_ok.mp hpure).1.symm

/-! ### When a tap is right -/

theorem getElem?_loaded {s : Store} {c : Classroom} {a : Assignment} :
    ((c.assignmentDocuments s).map fun p => Assignment.loaded now p.2)[i]? = some a ↔
      ∃ p, (DatabaseHelper.getDocumentsFromIDs s Strings.assignment
        (c.assignmentIDs.getD []))[i]? = some p ∧ Assignment.loaded now p.2 = a := by
  rw [List.getElem?_map, Option.map_eq_some_iff]
  rfl

/-- An assignment that a safe position leads to. -/
theorem exists_loaded {s : Store} {c : Classroom} {P : Assignment → Prop} :
    Listed s Strings.assignment c.assignmentIDs i (fun d => P (Assignment.loaded now d)) ↔
      ∃ a, ((c.assignmentDocuments s).map fun p => Assignment.loaded now p.2)[i]? = some a
        ∧ P a := by
  rw [listed_iff_getElem?]
  constructor
  · rintro ⟨p, hp, hP⟩
    exact ⟨_, getElem?_loaded.mpr ⟨p, hp, rfl⟩, hP⟩
  · rintro ⟨a, ha, hP⟩
    obtain ⟨p, hp, rfl⟩ := getElem?_loaded.mp ha
    exact ⟨p, hp, hP⟩

/-- A safe tap is right, and one that shows the item was safe. -/
theorem openAt_right (l : ListScreen) :
    (SafeTap σ now i x l → Right x (outcome ((l.openAt now i).run σ)))
      ∧ (outcome ((l.openAt now i).run σ) = .ok (.ok x) → SafeTap σ now i x l) := by
  cases hrun : (l.openAt now i).run σ with
  | error e σ' => exact ⟨fun _ => right_of_error, nofun⟩
  | ok o σ' => ?_
  rw [show outcome (.ok o σ') = .ok o from rfl]
  cases l with
  | studentAssignments =>
      obtain rfl := openAt_studentAssignments hrun
      rw [SafeTap, exists_loaded
        (P := fun a => a.id = x ∧ a.RowsFit σ.currentUser.id)]
      constructor
      · rintro ⟨a, ha, hid, hfit⟩
        refine right_map (StudentAssignmentOverview.populate_inRange ha hfit) fun shown hshown => ?_
        obtain ⟨ha', -⟩ := StudentAssignmentOverview.of_populate_eq_ok hshown
        rw [← Option.some.inj (ha.symm.trans ha'), hid]
      · intro hok
        obtain ⟨shown, hshown, hid⟩ := map_eq_ok.mp (Except.ok.inj hok)
        obtain ⟨ha, hfit⟩ := StudentAssignmentOverview.of_populate_eq_ok hshown
        exact ⟨_, ha, hid, hfit⟩
  | teacherAssignments =>
      obtain ⟨students, hstudents, rfl⟩ := openAt_teacherAssignments hrun
      simp only [SafeTap, hstudents, Option.some.injEq, forall_eq']
      rw [exists_loaded
        (P := fun a => a.id = x ∧ TeacherAssignmentOverview.FirstHasResult students a)]
      constructor
      · rintro ⟨a, ha, hid, hfirst⟩
        refine right_map (TeacherAssignmentOverview.populate_inRange ha hfirst)
          fun shown hshown => ?_
        obtain ⟨ha', -⟩ := TeacherAssignmentOverview.of_populate_eq_ok hshown
        rw [← Option.some.inj (ha.symm.trans ha'), hid]
      · intro hok
        obtain ⟨shown, hshown, hid⟩ := map_eq_ok.mp (Except.ok.inj hok)
        obtain ⟨ha, hfirst⟩ := TeacherAssignmentOverview.of_populate_eq_ok hshown
        exact ⟨_, ha, hid, hfirst⟩
  | parentStudent studentID =>
      obtain ⟨c, students, hclass, rfl⟩ := openAt_parentStudent hrun
      simp only [SafeTap, hclass, Option.some.injEq, forall_eq']
      rw [exists_loaded (P := fun a => a.id = x ∧ a.RowsFit (some studentID))]
      constructor
      · rintro ⟨a, ha, hid, hfit⟩
        refine right_map (ParentStudentAssignmentOverview.populate_inRange ha hfit)
          fun shown hshown => ?_
        obtain ⟨ha', -⟩ := ParentStudentAssignmentOverview.of_populate_eq_ok hshown
        rw [← Option.some.inj (ha.symm.trans ha'), hid]
      · intro hok
        obtain ⟨shown, hshown, hid⟩ := map_eq_ok.mp (Except.ok.inj hok)
        obtain ⟨ha, hfit⟩ := ParentStudentAssignmentOverview.of_populate_eq_ok hshown
        exact ⟨_, ha, hid, hfit⟩
  | teacherStudents =>
      obtain ⟨students, assigns, hstudents, rfl⟩ := openAt_teacherStudents hrun
      have hat : students[i]? = _ := getElem?_of_mapM hstudents i
      rw [SafeTap, listed_iff_getElem?]
      constructor
      · rintro ⟨p, hp, student, hload, hid⟩
        rw [hp, Option.bind_some, hload] at hat
        have hlt := (List.getElem?_eq_some_iff.mp hat).1
        refine right_map (TeacherOverviewStudentList.populate_inRange hlt) fun shown hshown => ?_
        have hshown := TeacherOverviewStudentList.of_populate_eq_ok hshown
        rw [← Option.some.inj (hat.symm.trans hshown), hid]
      · intro hok
        obtain ⟨shown, hshown, hid⟩ := map_eq_ok.mp (Except.ok.inj hok)
        have hstudent := TeacherOverviewStudentList.of_populate_eq_ok hshown
        rw [hstudent] at hat
        obtain ⟨p, hp, hload⟩ := Option.bind_eq_some_iff.mp hat.symm
        exact ⟨p, hp, shown.student, hload, hid⟩

end

/-! ## Runs -/

structure State where
  world : World
  /-- The list screen that is open, with the ids of its entries. -/
  list : Option (ListScreen × List (Option String))
  /-- The ids tapped, each with what came of it, the latest first. -/
  opened : List (Option String × Outcome)

inductive Event where
  /-- A write of anybody's arrives. -/
  | write (w : Write)
  /-- The current class is fetched again, or given an id. -/
  | classroom (c : Classroom)
  | showList (now : Rat) (l : ListScreen)
  | tap (now : Rat) (i : Nat)

/-- A list screen stays open below what it opens, until the app traps. -/
def step [TextOps] (s : State) : Event → Option State
  | .write w => some { s with world := { s.world with store := s.world.store.apply w } }
  | .classroom c => some { s with world := { s.world with currentClassroom := c } }
  | .showList now l => some { s with
      world := after (l.entries now) s.world
      list := match (l.entries now).run s.world with
        | .ok (.ok ids) _ => some (l, ids)
        | _ => none }
  | .tap now i => do
      let (l, ids) ← s.list
      let id ← ids[i]?
      let came := outcome ((l.openAt now i).run s.world)
      some {
        world := after (l.openAt now i) s.world
        list := match came with
          | .error .trap => none
          | .ok (.error _) => none
          | _ => s.list
        opened := (id, came) :: s.opened }

def system [TextOps] : System State Event where
  Init s := s.list = none ∧ s.opened = []
  step := step

def SafeStep [TextOps] (s : State) : Event → Prop
  | .tap now i => ∀ l ids id, s.list = some (l, ids) → ids[i]? = some id →
      SafeTap s.world now i id l
  | _ => True

/-- Every tap has come to what it should. -/
def AllRight (s : State) : Prop := ∀ t ∈ s.opened, Right t.1 t.2

section

variable [TextOps] {s s' : State} {now : Rat} {i : Nat}

theorem step_tap (hs : system.step s (.tap now i) = some s') :
    ∃ l ids id, s.list = some (l, ids) ∧ ids[i]? = some id ∧
      s'.opened = (id, outcome ((l.openAt now i).run s.world)) :: s.opened := by
  change step s (.tap now i) = some s' at hs
  simp only [step, Option.bind_eq_bind, Option.bind_eq_some_iff] at hs
  obtain ⟨⟨l, ids⟩, hlist, id, hid, hs⟩ := hs
  obtain rfl := Option.some.inj hs
  exact ⟨l, ids, id, hlist, hid, rfl⟩

theorem AllRight.step {e : Event} (h : AllRight s) (hsafe : SafeStep s e)
    (hs : system.step s e = some s') : AllRight s' := by
  cases e with
  | write w =>
      obtain rfl := Option.some.inj hs
      exact h
  | classroom c =>
      obtain rfl := Option.some.inj hs
      exact h
  | showList now l =>
      obtain rfl := Option.some.inj hs
      exact h
  | tap now i =>
      obtain ⟨l, ids, id, hlist, hid, hopened⟩ := step_tap hs
      rw [AllRight, hopened]
      exact List.forall_mem_cons.mpr
        ⟨(openAt_right l).1 (hsafe l ids id hlist hid), h⟩

/-- In a run of safe taps everything that is opened is what was tapped. A
further tap that shows something, or finds an index out of range, is right
exactly if it is safe. -/
theorem allRight_of_safe (h : system.Run SafeStep s) :
    AllRight s ∧ ∀ now i s', system.step s (.tap now i) = some s' →
      ∃ id came, s'.opened = (id, came) :: s.opened ∧
        ((came = .ok (.error .index) ∨ ∃ id', came = .ok (.ok id')) →
          (Right id came ↔ SafeStep s (.tap now i))) := by
  refine ⟨h.invariant (fun s hinit => ?_) fun _ _ _ hI hsafe hs => hI.step hsafe hs,
    fun now i s' hs => ?_⟩
  · rw [AllRight, hinit.2]
    exact List.forall_mem_nil _
  · obtain ⟨l, ids, id, hlist, hid, hopened⟩ := step_tap hs
    have hsafe : SafeStep s (.tap now i) ↔ SafeTap s.world now i id l := by
      refine ⟨fun hall => hall l ids id hlist hid, fun hsafe l' ids' id' hlist' hid' => ?_⟩
      obtain ⟨rfl, rfl⟩ := Prod.mk.inj (Option.some.inj (hlist.symm.trans hlist'))
      obtain rfl := Option.some.inj (hid.symm.trans hid')
      exact hsafe
    refine ⟨id, _, hopened, fun hcame => ?_⟩
    rw [hsafe]
    refine ⟨fun hright => ?_, (openAt_right l).1⟩
    rcases hcame with hindex | ⟨id', hshown⟩
    · exact absurd hindex hright.1
    · obtain rfl := hright.2 id' hshown
      exact (openAt_right l).2 hshown

end

/-! ## A class with Tom -/

section Example

attribute [local instance] TextOps.ascii

/-- Tom has an account with the code x1 and is in the current class. -/
def tomWorld : World := { emptyWorld with
  store := Store.putAll (fun _ => ∅) [⟨⟨Strings.student, "x1"⟩, Strings.id, .string "x1"⟩]
  currentClassroom := { Classroom.new "c1" with studentIDs := some ["x1"] } }

/-- The list of students is open and shows him. -/
def tomListed : State where
  world := tomWorld
  list := some (.teacherStudents, [some "x1"])
  opened := []

theorem get?_tom : tomWorld.store.get? ⟨Strings.student, "x1"⟩ = some (idDoc "x1") :=
  Store.get?_apply_self (fun _ => ∅) (.setMerge ⟨Strings.student, "x1"⟩ Strings.id (.string "x1"))

/-- Only the document named by a list of one id is in it. -/
theorem documents_tom (s : Store) :
    DatabaseHelper.getDocumentsFromIDs s Strings.student ["x1"] =
      (s.get? ⟨Strings.student, "x1"⟩).toList.map fun d => ("x1", d) :=
  DatabaseHelper.getDocumentsFromIDs_singleton fun m _ hsame =>
    (TextOps.alone_ascii m _ hsame).symm

theorem load_tom : ∃ tom, Student.load (idDoc "x1") = some tom ∧ tom.id = some "x1" := by
  obtain ⟨u, hu⟩ := exists_ofDictionary_idDoc .student "x1"
  have hid : u.id = some "x1" := Kind.id_of_ofDictionary hu (by simp [getElem?_idDoc])
  obtain ⟨tom, htom, rfl⟩ : ∃ tom, Student.ofDictionary (Doc.data (idDoc "x1")) = some tom
      ∧ IUser.student tom = u := Option.map_eq_some_iff.mp hu
  have hsome : tom.id = some "x1" := hid
  have hfirst : TextOps.first "x1" = some "x" := by decide
  have hpath : documentPath "Student" "x1" = some ⟨"Student", "x1"⟩ := by decide
  refine ⟨tom, ?_, hsome⟩
  simp [Student.load, htom, IUser.listen, IUser.getType, hid, hfirst, hpath]

theorem run_tomListed (ok : State → Event → Prop)
    (hok : ok { tomListed with list := none } (.showList 0 .teacherStudents)) :
    system.Run ok tomListed := by
  have hinit : system.Init { tomListed with list := none } := ⟨rfl, rfl⟩
  refine .step (.init hinit) hok ?_
  obtain ⟨tom, hload, hid⟩ := load_tom
  have hstudents : studentsOf tomWorld.store (some ["x1"]) = some [tom] := by
    rw [studentsOf, Option.getD_some, documents_tom, get?_tom]
    simp [hload]
  have hrun : (ListScreen.teacherStudents.entries 0).run tomWorld =
      .ok (.ok [some "x1"]) tomWorld := by
    have hfetch : TeacherStudentListPage.viewDidLoad.run tomWorld = .ok [tom] tomWorld := by
      rw [TeacherStudentListPage.viewDidLoad, run_get_bind, Classroom.getStudentObjects_eq]
      refine run_ask_ok ?_
      rw [show tomWorld.currentClassroom.studentIDs = some ["x1"] from rfl, hstudents]
      rfl
    rw [ListScreen.entries, EStateM.run_bind, hfetch]
    simp only [List.map_cons, List.map_nil, hid]
    rfl
  change step { tomListed with list := none } (.showList 0 .teacherStudents) = _
  simp only [step, tomListed, hrun, after_of_ok hrun]

/-- Nothing happens before he is tapped. -/
theorem allRight_of_safe_tom :
    ∃ s, system.step tomListed (.tap 0 0) = some s ∧ AllRight s := by
  have hsafe : SafeStep tomListed (.tap 0 0) := by
    intro l ids id hlist hid
    obtain ⟨rfl, rfl⟩ := Prod.mk.inj (Option.some.inj hlist)
    obtain rfl := Option.some.inj hid
    obtain ⟨tom, hload, htom⟩ := load_tom
    have hrank : tomWorld.store.rank Strings.student (TextOps.contains ["x1"]) "x1" = 0 := by
      rw [Store.rank, List.countP_eq_zero]
      rintro ⟨n, d⟩ - hbefore
      obtain ⟨hlt, hlisted⟩ := by simpa only [Bool.and_eq_true, decide_eq_true_eq] using hbefore
      obtain rfl := List.mem_singleton.mp ((TextOps.alone_ascii n).contains_iff.mp hlisted)
      exact lt_irrefl _ hlt
    exact ⟨"x1", idDoc "x1", get?_tom, TextOps.contains_of_mem (List.mem_singleton_self _), hrank,
      tom, hload, htom⟩
  obtain ⟨s, hs⟩ : ∃ s, system.step tomListed (.tap 0 0) = some s := ⟨_, rfl⟩
  exact ⟨s, hs, (allRight_of_safe (.step (run_tomListed SafeStep trivial) hsafe hs)).1⟩

/-- His document is deleted, as when he signs up with the code, before he is
tapped: there is no first student any more. -/
theorem not_allRight_tom : ∃ s, system.Reachable s ∧ ¬ AllRight s := by
  let gone : State := { tomListed with
    world := { tomWorld with
      store := tomWorld.store.apply (.delete ⟨Strings.student, "x1"⟩) } }
  have hgone : system.Reachable gone :=
    .step (run_tomListed _ trivial) trivial (a := .write (.delete ⟨Strings.student, "x1"⟩)) rfl
  obtain ⟨s, hs⟩ : ∃ s, system.step gone (.tap 0 0) = some s := ⟨_, rfl⟩
  obtain ⟨l, ids, id, hlist, -, hopened⟩ := step_tap hs
  obtain ⟨rfl, -⟩ := Prod.mk.inj (Option.some.inj hlist)
  have hstudents : studentsOf gone.world.store (some ["x1"]) = some [] := by
    have hnone : gone.world.store.get? ⟨Strings.student, "x1"⟩ = none :=
      Store.get?_apply_self _ (.delete ⟨Strings.student, "x1"⟩)
    rw [studentsOf, Option.getD_some, documents_tom, hnone]
    rfl
  have hrun : (ListScreen.teacherStudents.openAt 0 0).run gone.world =
      .ok (.error .index) gone.world := by
    have hfetch : (gone.world.currentClassroom.getAssignmentObjects 0).run gone.world =
        .ok [] gone.world := by
      have hdocs : gone.world.currentClassroom.assignmentDocuments gone.world.store = [] := by
        refine List.filter_eq_nil_iff.mpr fun d _ => ?_
        simp [gone, tomWorld, Classroom.new]
      rw [Classroom.getAssignmentObjects, EStateM.run_bind, run_ask_pure]
      simp only [hdocs]
      rfl
    have hload : (TeacherOverviewStudentList.viewDidLoad 0 0).run gone.world =
        .ok (.error .index) gone.world := by
      rw [TeacherOverviewStudentList.viewDidLoad, run_get_bind, EStateM.run_bind, hfetch]
      simp only [run_get_bind]
      rw [Classroom.getStudentObjects_eq, EStateM.run_bind,
        run_ask_ok (a := ([] : List Student)) (congrArg GradeIo.unwrap hstudents)]
      rfl
    rw [ListScreen.openAt, EStateM.run_bind, hload]
    rfl
  refine ⟨s, .step hgone trivial hs, fun h => ?_⟩
  have hright := h _ (hopened ▸ List.mem_cons_self)
  rw [hrun] at hright
  exact hright.1 rfl

end Example

end GradeIo.Tapped
