import GradeIo.Lib.Average
import GradeIo.Objects
import GradeIo.SignIn

/-!
# Signing in

What happens between a completed lookup and the user's home screen:
`checkCredentials` once Auth has an account, `PerformSignInSegue` and the
`viewDidLoad` of `Homepage`, `TeacherViewController` and `ParentHomepage`.

`run_signIn_ok` and `run_signIn_halt` say exactly when all of it completes: the
first document with the id decodes, and what the home screen loads can be
loaded (`HomeLoads`).
-/

namespace GradeIo

open Average DocDb App UserHelper

section Screens

variable [TextOps]

/-! ## The home screens -/

namespace Homepage

/-- One round of the loop of `findGrade`, over the total and the number taken. -/
def addGrade (taken : Rat × Nat) (i : Assignment) : App (Rat × Nat) := do
  let id ← App.unwrap (← get).currentUser.id
  let resultIndex := i.getResultIndexByID id
  if resultIndex = -1 then pure taken
  else
    let studentResult ← App.unwrap (i.results.bind fun rs => rs[resultIndex.toNat]?)
    pure (taken.1 + studentResult.grade, taken.2 + 1)

/-- The percentage that is shown; without one, `N/A`. -/
def findGrade (assigns : List Assignment) : App (Option Rat) := do
  let (totalGrade, numAssignsTaken) ← assigns.foldlM addGrade (0, 0)
  let percentGrade := totalGrade / numAssignsTaken * 100
  pure (if numAssignsTaken ≠ 0 ∧ 0 ≤ percentGrade then some percentGrade else none)

/-- The class is asked for first, but answers only after the bio is written. -/
def viewDidLoad (now : Rat) : App Unit := do
  let student ← App.unwrap (← get).currentUser.asStudent
  perform ((← get).currentUser.setBio "Hello")
  detach do
    let res ← ask fun s => DatabaseHelper.getClassroomFromID s (student.classID.getD "NULL")
    setCurrentClassroom res
    let assign ← res.getAssignmentObjects now
    let _ ← findGrade assign

end Homepage

def TeacherViewController.viewDidLoad : App Unit := do
  let teacher ← App.unwrap (← get).currentUser.asTeacher
  let classID ← App.unwrap teacher.classID
  detach do
    let res ← ask fun s => DatabaseHelper.getClassroomFromID s classID
    setCurrentClassroom res

namespace ParentHomepage

/-- The views of the children, of which each keeps the child's id. -/
def getParentChildren (children : List Student) : App Unit :=
  children.forM fun child => do
    let _ ← App.unwrap child.id

def viewDidLoad : App Unit := do
  let parent ← App.unwrap (← get).currentUser.asParent
  let children ← parent.getStudentObjects
  getParentChildren children

end ParentHomepage

/-- The `viewDidLoad` of the screen that a segue opens. -/
def homeDidLoad (now : Rat) : Kind → App Unit
  | .student => Homepage.viewDidLoad now
  | .teacher => TeacherViewController.viewDidLoad
  | .parent => ParentHomepage.viewDidLoad

/-- The lookup of `checkCredentials` and its completion. -/
def signIn (now : Rat) (id : String) : App Unit := do
  let res ← ask fun s => getUserByID s id
  setCurrentUser res
  let _ ← App.unwrap res.listen
  match SignIn.performSignInSegue res.id with
  | some k =>
      performSegue (SignIn.segue k)
      homeDidLoad now k
  | none => pure ()

/-! ## What a home screen needs -/

/-- The class, if there is one, decodes, and to one with the property. -/
def ClassLoads (s : Store) (classID : String) (P : Classroom → Prop) : Prop :=
  ∀ m d, DatabaseHelper.Named s Strings.class classID m d →
    ∃ c, Classroom.ofDictionary (Doc.data d) = some c ∧ P c

def HomeLoads (s : Store) : IUser → Prop
  | .student u => ClassLoads s (u.classID.getD "NULL") fun c =>
      ∀ id d, TextOps.contains (c.assignmentIDs.getD []) id = true →
        s.get? ⟨Strings.assignment, id⟩ = some d → Assignment.loads d = true
  | .teacher u => ∃ classID, u.classID = some classID ∧ ClassLoads s classID fun _ => True
  | .parent u => ∀ id d, TextOps.contains (u.students.getD []) id = true →
      s.get? ⟨Strings.student, id⟩ = some d → Student.load d ≠ none
  | .base _ => False

/-! ## Exactly when a home screen completes -/

/-- Nothing but the store and the current class changes. -/
structure Quiet (σ σ' : World) : Prop where
  user : σ'.currentUser = σ.currentUser
  screens : σ'.screens = σ.screens

/-- The handler completes quietly if `P` holds, and traps if not. -/
structure Completes (x : App Unit) (σ : World) (P : Prop) : Prop where
  ok : P → ∃ σ', x.run σ = .ok () σ' ∧ Quiet σ σ'
  trap : ¬ P → ∃ σ', x.run σ = .error .trap σ'

section Home

variable {σ : World}

omit [TextOps] in
/-- A handler that comes to another one after quiet steps. -/
theorem Completes.of_run {x y : App Unit} {σ' : World} {P Q : Prop} (h : Completes y σ' P)
    (hrun : x.run σ = y.run σ') (hquiet : Quiet σ σ') (hPQ : Q ↔ P) : Completes x σ Q where
  ok := by
    intro hQ
    obtain ⟨τ, hτ, hq⟩ := h.ok (hPQ.mp hQ)
    exact ⟨τ, hrun.trans hτ, hq.user.trans hquiet.user, hq.screens.trans hquiet.screens⟩
  trap := by
    intro hQ
    obtain ⟨τ, hτ⟩ := h.trap fun hP => hQ (hPQ.mpr hP)
    exact ⟨τ, hrun.trans hτ⟩

/-- A class is fetched, and more is done with it. -/
theorem completes_fetchClassroom (classID : String) {rest : Classroom → App Unit}
    {P : Classroom → Prop}
    (hrest : ∀ c, Completes (rest c) { σ with currentClassroom := c } (P c)) :
    Completes
      (detach do
        let res ← ask fun s => DatabaseHelper.getClassroomFromID s classID
        setCurrentClassroom res
        rest res)
      σ (ClassLoads σ.store classID P) := by
  unfold ClassLoads
  by_cases hsome : ∃ m d, DatabaseHelper.Named σ.store Strings.class classID m d
  · obtain ⟨m, d, hnamed⟩ := hsome
    have hfetch : DatabaseHelper.getClassroomFromID σ.store classID = _ :=
      DatabaseHelper.firstFromIDs_of_named Classroom.ofDictionary hnamed
    cases hdec : Classroom.ofDictionary (Doc.data d) with
    | none =>
        rw [hdec, GradeIo.unwrap] at hfetch
        refine ⟨fun h => ?_, fun _ => ⟨σ, run_detach_trap ?_⟩⟩
        · obtain ⟨c, hc, -⟩ := h m d hnamed
          rw [hdec] at hc
          cases hc
        · rw [EStateM.run_bind, run_ask_error hfetch]
    | some c =>
        rw [hdec, GradeIo.unwrap] at hfetch
        have hrun : ∀ r, (rest c).run { σ with currentClassroom := c } = r → EStateM.run (do
            let res ← ask fun s => DatabaseHelper.getClassroomFromID s classID
            setCurrentClassroom res
            rest res) σ = r := by
          rintro r rfl
          rw [EStateM.run_bind, run_ask_ok hfetch]
          simp only [EStateM.run_bind, run_setCurrentClassroom]
        constructor
        · intro h
          obtain ⟨c', hc', hP⟩ := h m d hnamed
          obtain rfl := Option.some.inj (hdec.symm.trans hc')
          obtain ⟨σ', hσ', hquiet⟩ := (hrest c).ok hP
          exact ⟨σ', run_detach_ok (hrun _ hσ'), hquiet.user, hquiet.screens⟩
        · intro h
          have hP : ¬ P c := by
            intro hP
            refine h ?_
            rintro m' d' hnamed'
            obtain ⟨rfl, rfl⟩ := hnamed.eq hnamed'
            exact ⟨c, hdec, hP⟩
          obtain ⟨σ', hσ'⟩ := (hrest c).trap hP
          exact ⟨σ', run_detach_trap (hrun _ hσ')⟩
  · have hfetch : DatabaseHelper.getClassroomFromID σ.store classID = _ :=
      DatabaseHelper.firstFromIDs_of_absent Classroom.ofDictionary
        fun m d hnamed => hsome ⟨m, d, hnamed⟩
    refine ⟨fun _ => ⟨σ, run_detach_noAnswer ?_, rfl, rfl⟩, fun h => ?_⟩
    · rw [EStateM.run_bind, run_ask_error hfetch]
    · exact absurd (fun m d hnamed => absurd ⟨m, d, hnamed⟩ hsome) h

/-- The grade of the student's first result. -/
def Assignment.gradeOf (a : Assignment) (id : String) : Option Rat :=
  ((a.results.getD []).find? fun r => r.studentID = id).map Result.grade

omit [TextOps] in
theorem Homepage.run_addGrade {id : String} (hid : σ.currentUser.id = some id)
    (taken : Rat × Nat) (i : Assignment) :
    (addGrade taken i).run σ = .ok (tally taken (i.gradeOf id)) σ := by
  unfold addGrade Assignment.gradeOf
  simp only [EStateM.run_bind, EStateM.run_get, hid, run_unwrap_some]
  rcases i.getResultIndexByID_cases id with ⟨hindex, hnone⟩ | ⟨rs, n, r, hrs, hindex, hr, hfind⟩
  · rw [if_pos hindex, hnone]
    rfl
  · have hne : ¬ (n : Int) = -1 := by omega
    rw [hindex, if_neg hne, hrs, Option.getD_some, hfind, Option.bind_some, Int.toNat_natCast, hr]
    rfl

omit [TextOps] in
/-- The home screen shows the mean of the grades, in percent. -/
theorem Homepage.run_findGrade {id : String} (hid : σ.currentUser.id = some id)
    (assigns : List Assignment) :
    (findGrade assigns).run σ =
      .ok (((Number.mean (assigns.filterMap fun a => a.gradeOf id)).scale 100).toOption.filter
        (0 ≤ ·)) σ := by
  have hloop : ∀ taken : Rat × Nat, (assigns.foldlM addGrade taken).run σ =
      .ok (taken.1 + (assigns.filterMap fun a => a.gradeOf id).sum,
        taken.2 + (assigns.filterMap fun a => a.gradeOf id).length) σ := by
    induction assigns with
    | nil => simp
    | cons i assigns ih =>
        intro taken
        rw [List.foldlM_cons, EStateM.run_bind, run_addGrade hid]
        refine (ih _).trans ?_
        rw [tally_cons (fun a => a.gradeOf id) i assigns taken]
  unfold findGrade
  simp only [EStateM.run_bind, hloop, zero_add]
  generalize (assigns.filterMap fun a => a.gradeOf id) = grades
  refine congrArg (EStateM.Result.ok · σ) ?_
  cases grades with
  | nil => simp [Number.toOption, Number.scale]
  | cons x grades =>
      rw [Number.mean_of_ne_nil (List.cons_ne_nil x grades), Number.scale, Number.toOption,
        Option.filter_some]
      simp

/-- The assignments of a class, and the grade computed from them. -/
theorem Homepage.completes_grade {id : String} (now : Rat) (hid : σ.currentUser.id = some id)
    (c : Classroom) :
    Completes
      (do
        let assign ← c.getAssignmentObjects now
        let _ ← findGrade assign)
      σ (∀ id d, TextOps.contains (c.assignmentIDs.getD []) id = true →
        σ.store.get? ⟨Strings.assignment, id⟩ = some d → Assignment.loads d = true) := by
  constructor
  · intro h
    let σ' : World := { σ with
      store := σ.store.applyAll
        ((c.assignmentDocuments σ.store).flatMap fun p => Assignment.placeholder p.2) }
    have hrun : (c.getAssignmentObjects now).run σ = .ok _ σ' :=
      Classroom.run_getAssignmentObjects h
    have hgrade := run_findGrade (σ := σ') hid
      ((c.assignmentDocuments σ.store).map fun p => Assignment.loaded now p.2)
    refine ⟨σ', ?_, rfl, rfl⟩
    rw [EStateM.run_bind, hrun]
    simp only [EStateM.run_bind, hgrade]
    rfl
  · intro h
    simp only [not_forall, Bool.not_eq_true] at h
    obtain ⟨id, d, hmem, hd, hloads⟩ := h
    obtain ⟨σ', hσ'⟩ := Classroom.run_getAssignmentObjects_trap now hmem hd hloads
    exact ⟨σ', by rw [EStateM.run_bind, hσ']⟩

theorem Homepage.completes {u : Student} {id : String} {p : DocPath} (now : Rat)
    (huser : σ.currentUser = .student u) (hid : u.id = some id)
    (hp : documentPath Strings.student id = some p) :
    Completes (viewDidLoad now) σ (HomeLoads σ.store (.student u)) := by
  let w : Write := .setMerge p Strings.bio (.string "Hello")
  let σ' : World := { σ with store := σ.store.apply w, currentUser := .student u }
  have hbio : (IUser.student u).setBio "Hello" = some w := by
    simp [IUser.setBio, DatabaseHelper.saveUserPropertyToDoc, IUser.ref, IUser.id,
      IUser.toBaseUser, IUser.className, hid, hp, w]
  have hfetch := completes_fetchClassroom (σ := σ') (u.classID.getD "NULL")
    fun c => completes_grade (σ := { σ' with currentClassroom := c }) now hid c
  refine hfetch.of_run ?_ ⟨huser.symm, rfl⟩ ?_
  · unfold viewDidLoad
    simp only [EStateM.run_bind, EStateM.run_get, huser, IUser.asStudent, run_unwrap_some, hbio,
      run_perform_some]
    rfl
  · -- the bio is not in a collection that is read
    have hsame : ∀ c m, c.toList.head? ≠ Strings.student.toList.head? →
        σ'.store.get? ⟨c, m⟩ = σ.store.get? ⟨c, m⟩ := by
      intro c m hc
      refine Store.get?_apply_of_ne _ ?_
      rintro rfl
      exact hc (head?_collection_of_documentPath (by decide) hp)
    simp only [HomeLoads, ClassLoads, DatabaseHelper.named_congr (hsame Strings.class · (by decide)),
      hsame Strings.assignment _ (by decide)]

theorem TeacherViewController.completes {u : Teacher} (huser : σ.currentUser = .teacher u) :
    Completes viewDidLoad σ (HomeLoads σ.store (.teacher u)) := by
  cases hclass : u.classID with
  | none =>
      constructor
      · rintro ⟨classID, hsome, -⟩
        rw [hclass] at hsome
        cases hsome
      · refine fun _ => ⟨σ, ?_⟩
        unfold viewDidLoad
        simp only [EStateM.run_bind, EStateM.run_get, huser, IUser.asTeacher, run_unwrap_some,
          hclass, run_unwrap_none]
  | some classID =>
      have hfetch := completes_fetchClassroom (σ := σ) classID (P := fun _ => True)
        fun c => (⟨fun _ => ⟨_, rfl, rfl, rfl⟩, fun h => absurd trivial h⟩ :
          Completes (pure ()) { σ with currentClassroom := c } True)
      refine hfetch.of_run ?_ ⟨rfl, rfl⟩ ?_
      · unfold viewDidLoad
        simp only [EStateM.run_bind, EStateM.run_get, huser, IUser.asTeacher, run_unwrap_some,
          hclass]
        rfl
      · simp only [HomeLoads, hclass, Option.some.injEq, exists_eq_left']

omit [TextOps] in
theorem ParentHomepage.run_getParentChildren :
    ∀ {children : List Student}, (∀ child ∈ children, child.id ≠ none) →
      (getParentChildren children).run σ = .ok () σ
  | [], _ => rfl
  | child :: children, h => by
      obtain ⟨id, hid⟩ := Option.ne_none_iff_exists'.mp (h child (List.mem_cons_self ..))
      have hrest := run_getParentChildren fun c hc => h c (List.mem_cons_of_mem _ hc)
      show EStateM.run ((App.unwrap child.id >>= fun _ => pure ()) >>= fun _ =>
        getParentChildren children) σ = .ok () σ
      rw [hid]
      exact hrest

theorem Student.id_of_load {d : Doc} {student : Student} (h : Student.load d = some student) :
    student.id ≠ none := by
  simp only [Student.load, Option.bind_eq_bind, Option.bind_eq_some_iff] at h
  obtain ⟨s, -, path, hlisten, hs⟩ := h
  obtain rfl := Option.some.inj hs
  intro hid
  simp [IUser.listen, IUser.id, IUser.toBaseUser, hid] at hlisten

theorem ParentHomepage.completes {u : Parent} (huser : σ.currentUser = .parent u) :
    Completes viewDidLoad σ (HomeLoads σ.store (.parent u)) := by
  have hmem : ∀ {p : String × Doc}, p ∈ DatabaseHelper.getDocumentsFromIDs σ.store Strings.student
      (u.students.getD []) ↔ σ.store.get? ⟨Strings.student, p.1⟩ = some p.2
        ∧ TextOps.contains (u.students.getD []) p.1 = true :=
    DatabaseHelper.mem_getDocumentsFromIDs
  unfold viewDidLoad
  constructor
  · intro h
    obtain ⟨students, hrun, hloads⟩ := run_studentObjects (σ := σ)
      fun p hp => h p.1 p.2 (hmem.mp hp).2 (hmem.mp hp).1
    refine ⟨σ, ?_, rfl, rfl⟩
    have hids : ∀ child ∈ students, child.id ≠ none := by
      intro child hchild
      have hsome : some child ∈ students.map some := List.mem_map_of_mem hchild
      rw [← hloads] at hsome
      obtain ⟨p, -, hp⟩ := List.mem_map.mp hsome
      exact Student.id_of_load hp
    simp only [EStateM.run_bind, EStateM.run_get, huser, IUser.asParent, run_unwrap_some,
      Parent.getStudentObjects, getStudentObjects, run_ask_pure, hrun, run_getParentChildren hids]
  · intro h
    simp only [HomeLoads, not_forall, not_not] at h
    obtain ⟨id, d, hid, hd, hload⟩ := h
    have htrap := run_studentObjects_trap (σ := σ) (p := (id, d)) (hmem.mpr ⟨hd, hid⟩) hload
    refine ⟨σ, ?_⟩
    simp only [EStateM.run_bind, EStateM.run_get, huser, IUser.asParent, run_unwrap_some,
      Parent.getStudentObjects, getStudentObjects, run_ask_pure, htrap]

theorem completes_home {u : IUser} {id : String} {p : DocPath} (now : Rat) {k : Kind}
    (huser : σ.currentUser = u) (hk : u.className = k.collection) (hid : u.id = some id)
    (hp : documentPath k.collection id = some p) :
    Completes (homeDidLoad now k) σ (HomeLoads σ.store u) := by
  cases k with
  | student =>
      cases u with
      | student u => exact Homepage.completes now huser hid hp
      | _ => simp [IUser.className, Kind.collection, Strings.student] at hk
  | teacher =>
      cases u with
      | teacher u => exact TeacherViewController.completes huser
      | _ => simp [IUser.className, Kind.collection, Strings.teacher] at hk
  | parent =>
      cases u with
      | parent u => exact ParentHomepage.completes huser
      | _ => simp [IUser.className, Kind.collection, Strings.parent] at hk

end Home

/-! ## Exactly when a sign-in completes -/

section SignIn

variable {w : World} {k : Kind} {id : String}

theorem kindOf_of_segue (h : SignIn.performSignInSegue (some id) = some k) :
    kindOf id = some k := by
  unfold SignIn.performSignInSegue at h
  unfold kindOf
  rw [Option.bind_some] at h
  split at h
  · rename_i hc
    rw [hc]
    exact h
  · rename_i hc
    rw [hc]
    exact h
  · rename_i hc
    rw [hc]
    exact h
  · cases h

/-- The user listens to the document that its setters write to. -/
theorem listen_of_segue {u : IUser} (hu : u.id = some id)
    (h : SignIn.performSignInSegue (some id) = some k) :
    u.listen = documentPath k.collection id := by
  rw [IUser.listen, hu, Option.bind_some, getType_of_kindOf hu (kindOf_of_segue h)]

/-- The lookup, and from there on the home screen. -/
theorem run_signIn {now : Rat} {u : IUser} {p : DocPath}
    (hk : SignIn.performSignInSegue (some id) = some k)
    (hp : documentPath k.collection id = some p) (hu : getUserByID w.store id = .ok u) :
    (signIn now id).run w = (homeDidLoad now k).run
      { w with currentUser := u, screens := w.screens ++ [SignIn.segue k] } := by
  have hkind : kindOf id ≠ none := by
    rw [kindOf_of_segue hk]
    exact Option.some_ne_none k
  have hid : u.id = some id := id_of_getUserByID hkind hu
  rw [signIn, EStateM.run_bind, run_ask_ok hu]
  simp only [EStateM.run_bind, run_setCurrentUser, (listen_of_segue hid hk).trans hp,
    run_unwrap_some, hid, hk, run_performSegue]

/-- Signing in gives back a user of the class with the id and the names, and
opens the home screen of the class. -/
def SignsIn (now : Rat) (w : World) (k : Kind) (id : String)
    (firstName lastName : Option String) : Prop :=
  ∃ w', (signIn now id).run w = .ok () w'
    ∧ w'.currentUser.className = k.collection ∧ w'.currentUser.id = some id
    ∧ w'.currentUser.firstName = firstName ∧ w'.currentUser.lastName = lastName
    ∧ w'.screens = w.screens ++ [SignIn.segue k]

/-- The first document with the id decodes to a user with the names, whose
home screen loads. -/
theorem signsIn_iff {now : Rat} {p : DocPath} {firstName lastName : Option String}
    (hk : SignIn.performSignInSegue (some id) = some k)
    (hp : documentPath k.collection id = some p) :
    SignsIn now w k id firstName lastName ↔
      ∃ m d u, w.store.Found k.collection Strings.id (.string id) m d
        ∧ k.ofDictionary (Doc.data d) = some u ∧ u.firstName = firstName
        ∧ u.lastName = lastName ∧ HomeLoads w.store u := by
  have hlookup := getUserByID_of_kind (s := w.store) (kindOf_of_segue hk)
  constructor
  · rintro ⟨w', hrun, -, -, hfirst, hlast, -⟩
    cases hu : getUserByID w.store id with
    | error e =>
        rw [signIn, EStateM.run_bind, run_ask_error hu] at hrun
        cases hrun
    | ok u =>
        obtain ⟨m, d, hfound, hdec⟩ := firstOf_eq_ok_iff.mp (hlookup ▸ hu)
        have hhome := completes_home
          (σ := { w with currentUser := u, screens := w.screens ++ [SignIn.segue k] }) now rfl
          (Kind.className_of_ofDictionary hdec) (Kind.id_of_ofDictionary hdec hfound.field) hp
        rw [run_signIn hk hp hu] at hrun
        have hloads : HomeLoads w.store u := by
          by_contra hno
          obtain ⟨σ', htrap⟩ := hhome.trap hno
          rw [hrun] at htrap
          cases htrap
        obtain ⟨σ', hok, hquiet⟩ := hhome.ok hloads
        obtain rfl : w' = σ' := by
          rw [hrun] at hok
          injection hok
        rw [hquiet.user] at hfirst hlast
        exact ⟨m, d, u, hfound, hdec, hfirst, hlast, hloads⟩
  · rintro ⟨m, d, u, hfound, hdec, hfirst, hlast, hloads⟩
    have hu : getUserByID w.store id = .ok u := by
      rw [hlookup]
      exact firstOf_eq_ok_iff.mpr ⟨m, d, hfound, hdec⟩
    have hclass := Kind.className_of_ofDictionary hdec
    have hid := Kind.id_of_ofDictionary hdec hfound.field
    obtain ⟨σ', hok, hquiet⟩ := (completes_home
      (σ := { w with currentUser := u, screens := w.screens ++ [SignIn.segue k] }) now rfl
      hclass hid hp).ok hloads
    refine ⟨σ', (run_signIn hk hp hu).trans hok, ?_⟩
    rw [hquiet.user, hquiet.screens]
    exact ⟨hclass, hid, hfirst, hlast, rfl⟩

end SignIn

end Screens

end GradeIo
