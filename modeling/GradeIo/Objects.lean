import GradeIo.App

/-!
# Fetching objects

The methods of `DatabaseHelper`, `Classroom` and `Parent` that fetch documents
by their names and make objects of them. `GetStudentObjects` forces every
decoded student and `GetClassroomFromID` its classroom, while
`GetAssignmentObjects` puts a new assignment with the id `NULL` in the place of
one that does not decode, which writes to the store.

Every object starts to listen, which traps when it has no usable id.
-/

namespace GradeIo

open DocDb App

section Fetch

variable [TextOps]

namespace DatabaseHelper

/-- The first of the documents with one of the names, decoded; no answer without one. -/
def firstFromIDs {α : Type} (ofDictionary : Dict → Option α) (s : Store) (collection : String)
    (ids : List String) : Answer α :=
  match getDocumentsFromIDs s collection ids with
  | [] => .error .noAnswer
  | (_, d) :: _ => GradeIo.unwrap (ofDictionary (Doc.data d))

def getStudentFromID (s : Store) (studentID : String) : Answer Student :=
  firstFromIDs Student.ofDictionary s Strings.student [studentID]

def getClassroomFromID (s : Store) (classID : String) : Answer Classroom :=
  firstFromIDs Classroom.ofDictionary s Strings.class [classID]

end DatabaseHelper

/-- One round of the loop of `GetAssignmentObjects`. -/
def Classroom.assignmentObject (now : Rat) (document : String × Doc) : App Assignment := do
  match Assignment.ofDictionary (Doc.data document.2) with
  | some a =>
      let _ ← App.unwrap a.listen
      pure a
  | none =>
      perform (Assignment.setID "NULL")
      pure (Assignment.new "NULL" now)

def Classroom.assignmentDocuments (c : Classroom) (s : Store) : List (String × Doc) :=
  DatabaseHelper.getDocumentsFromIDs s Strings.assignment (c.assignmentIDs.getD [])

def Classroom.getAssignmentObjects (now : Rat) (c : Classroom) : App (List Assignment) := do
  let res ← ask fun s => .ok (c.assignmentDocuments s)
  res.mapM (assignmentObject now)

/-- One round of the loop of `GetStudentObjects`. -/
def studentObject (document : String × Doc) : App Student := do
  let student ← App.unwrap (Student.ofDictionary (Doc.data document.2))
  let _ ← App.unwrap (IUser.student student).listen
  pure student

/-- `GetStudentObjects`, of a classroom and of a parent. -/
def getStudentObjects (studentIDs : Option (List String)) : App (List Student) := do
  let res ← ask fun s =>
    .ok (DatabaseHelper.getDocumentsFromIDs s Strings.student (studentIDs.getD []))
  res.mapM studentObject

def Classroom.getStudentObjects (c : Classroom) : App (List Student) :=
  GradeIo.getStudentObjects c.studentIDs

def Parent.getStudentObjects (p : Parent) : App (List Student) :=
  GradeIo.getStudentObjects p.students

/-! ## Documents by name -/

/-- `(m, d)` comes first among the documents with a name equal to the id. -/
def DatabaseHelper.Named (s : Store) (collection id m : String) (d : Doc) : Prop :=
  s.First collection (fun p => TextOps.contains [id] p.1) m d

end Fetch

namespace DatabaseHelper

section

variable [TextOps] {s : Store} {collection id m : String} {d : Doc}

theorem mem_getDocumentsFromIDs {ids : List String} :
    (m, d) ∈ getDocumentsFromIDs s collection ids ↔
      s.get? ⟨collection, m⟩ = some d ∧ TextOps.contains ids m = true := by
  simp [getDocumentsFromIDs, Store.mem_documents]

theorem Named.same (h : Named s collection id m d) : TextOps.Same id m := by
  simpa [TextOps.contains] using h.kept

theorem Named.eq {m' : String} {d' : Doc} (h : Named s collection id m d)
    (h' : Named s collection id m' d') : m = m' ∧ d = d' := Store.First.eq h h'

theorem named_congr {s' : Store}
    (h : ∀ m, s'.get? ⟨collection, m⟩ = s.get? ⟨collection, m⟩) :
    Named s' collection id m d ↔ Named s collection id m d := by
  constructor
  · intro hnamed
    exact ⟨h m ▸ hnamed.get, hnamed.kept, fun m' d' hget => hnamed.first m' d' (h m' ▸ hget)⟩
  · intro hnamed
    exact ⟨(h m).trans hnamed.get, hnamed.kept,
      fun m' d' hget => hnamed.first m' d' ((h m').symm.trans hget)⟩

theorem firstFromIDs_of_named {α : Type} (ofDictionary : Dict → Option α)
    (h : Named s collection id m d) :
    firstFromIDs ofDictionary s collection [id] =
      GradeIo.unwrap (ofDictionary (Doc.data d)) := by
  obtain ⟨rest, hlist⟩ := Store.filter_documents_eq_cons_iff.mpr h
  rw [firstFromIDs, getDocumentsFromIDs, hlist]

theorem firstFromIDs_of_absent {α : Type} (ofDictionary : Dict → Option α)
    (h : ∀ m d, ¬ Named s collection id m d) :
    firstFromIDs ofDictionary s collection [id] = .error .noAnswer := by
  rcases s.filter_documents_eq_nil_or_first collection fun p => TextOps.contains [id] p.1 with
    hnil | ⟨m, d, hfirst⟩
  · rw [firstFromIDs, getDocumentsFromIDs, hnil]
  · exact absurd hfirst (h m d)

theorem firstFromIDs_eq_ok {α : Type} {ofDictionary : Dict → Option α} {a : α} :
    firstFromIDs ofDictionary s collection [id] = .ok a ↔
      ∃ m d, Named s collection id m d ∧ ofDictionary (Doc.data d) = some a := by
  constructor
  · intro h
    cases hlist : getDocumentsFromIDs s collection [id] with
    | nil =>
        rw [firstFromIDs, hlist] at h
        cases h
    | cons p rest =>
        refine ⟨p.1, p.2, Store.filter_documents_eq_cons_iff.mp ⟨rest, hlist⟩, ?_⟩
        rw [firstFromIDs, hlist] at h
        simp only at h
        cases hdec : ofDictionary (Doc.data p.2) with
        | none =>
            rw [hdec] at h
            cases h
        | some a' =>
            rw [hdec] at h
            rw [Except.ok.inj h]
  · rintro ⟨m, d, hnamed, hdec⟩
    rw [firstFromIDs_of_named _ hnamed, hdec]
    rfl

/-- At most one document has a name without another spelling. -/
theorem getDocumentsFromIDs_singleton
    (h : ∀ m, (s.get? ⟨collection, m⟩).isSome → TextOps.Same id m → m = id) :
    getDocumentsFromIDs s collection [id] =
      (s.get? ⟨collection, id⟩).toList.map fun d => (id, d) := by
  have hmem : ∀ {m d}, (m, d) ∈ getDocumentsFromIDs s collection [id] →
      m = id ∧ s.get? ⟨collection, id⟩ = some d := by
    intro m d hmd
    obtain ⟨hget, hkept⟩ := mem_getDocumentsFromIDs.mp hmd
    have hsame : TextOps.Same id m := by simpa [TextOps.contains] using hkept
    obtain rfl := h m (Option.isSome_of_eq_some hget) hsame
    exact ⟨rfl, hget⟩
  cases hdocs : getDocumentsFromIDs s collection [id] with
  | nil =>
      cases hget : s.get? ⟨collection, id⟩ with
      | none => rfl
      | some d =>
          have hkept : TextOps.contains [id] id = true :=
            TextOps.contains_of_mem (List.mem_singleton_self id)
          have hnot := mem_getDocumentsFromIDs.mpr ⟨hget, hkept⟩
          rw [hdocs] at hnot
          cases hnot
  | cons p rest =>
      obtain ⟨m, d⟩ := p
      obtain ⟨rfl, hget⟩ := hmem (m := m) (d := d) (by simp [hdocs])
      cases rest with
      | nil => simp [hget]
      | cons p' rest =>
          obtain ⟨m', d'⟩ := p'
          obtain ⟨rfl, -⟩ := hmem (m := m') (d := d') (by simp [hdocs])
          -- the documents are listed in strictly increasing order
          have hpair := s.filter_documents_pairwise collection fun d => TextOps.contains [m'] d.1
          rw [show (s.documents collection).filter _ = _ from hdocs] at hpair
          have hlt := (List.pairwise_cons.mp hpair).1 (m', d') (by simp)
          simp at hlt

/-- Names without another spelling are compared as Firestore does. -/
theorem named_iff_of_alone
    (h : ∀ m, (s.get? ⟨collection, m⟩).isSome → TextOps.Alone m) :
    Named s collection id m d ↔ m = id ∧ s.get? ⟨collection, id⟩ = some d := by
  constructor
  · intro hnamed
    have hid : id = m := h m (Option.isSome_of_eq_some hnamed.get) id hnamed.same
    exact ⟨hid.symm, hid ▸ hnamed.get⟩
  · rintro ⟨rfl, hget⟩
    refine ⟨hget, TextOps.contains_of_mem (List.mem_singleton_self m), fun m' d' hget' hkept => ?_⟩
    have hsame : TextOps.Same m m' := by simpa [TextOps.contains] using hkept
    exact Or.inl (h m' (Option.isSome_of_eq_some hget') m hsame).symm

end

theorem named_ascii {s : Store} {collection id m : String} {d : Doc} :
    @Named TextOps.ascii s collection id m d ↔ m = id ∧ s.get? ⟨collection, id⟩ = some d :=
  @named_iff_of_alone TextOps.ascii _ _ _ _ _ fun _ _ => TextOps.alone_ascii _

end DatabaseHelper

/-! ## The loops -/

section Loops

variable {σ : World} {docs : List (String × Doc)}

/-- A round for the document does not trap. -/
def Assignment.loads (d : Doc) : Bool :=
  (Assignment.ofDictionary (Doc.data d)).all fun a => a.listen.isSome

/-- What the loop makes of a document. -/
def Assignment.loaded (now : Rat) (d : Doc) : Assignment :=
  (Assignment.ofDictionary (Doc.data d)).getD (Assignment.new "NULL" now)

/-- The document that every placeholder is written to. -/
def Assignment.nullPath : DocPath := ⟨Strings.assignment, "NULL"⟩

/-- What is written for a document that does not decode. -/
def Assignment.placeholder (d : Doc) : List Write :=
  if (Assignment.ofDictionary (Doc.data d)).isSome then []
  else [.setMerge nullPath Strings.id (.string "NULL")]

theorem Assignment.path_of_mem_placeholders {w : Write}
    (h : w ∈ docs.flatMap fun p => placeholder p.2) : w.path = nullPath := by
  obtain ⟨p, -, hw⟩ := List.mem_flatMap.mp h
  unfold placeholder at hw
  split at hw
  · cases hw
  · rw [List.mem_singleton.mp hw]
    rfl

theorem Classroom.run_assignmentObject {now : Rat} {p : String × Doc}
    (h : Assignment.loads p.2 = true) :
    (assignmentObject now p).run σ =
      .ok (Assignment.loaded now p.2)
        { σ with store := σ.store.applyAll (Assignment.placeholder p.2) } := by
  unfold assignmentObject Assignment.loaded Assignment.placeholder
  unfold Assignment.loads at h
  cases hdec : Assignment.ofDictionary (Doc.data p.2) with
  | none =>
      have hid : Assignment.setID "NULL" =
          some (.setMerge Assignment.nullPath Strings.id (.string "NULL")) := by decide
      simp only [hid, EStateM.run_bind, run_perform_some]
      rfl
  | some a =>
      rw [hdec] at h
      obtain ⟨path, hpath⟩ := Option.isSome_iff_exists.mp h
      simp only [hpath, EStateM.run_bind, run_unwrap_some]
      rfl

theorem Classroom.run_assignmentObject_trap {now : Rat} {p : String × Doc}
    (h : Assignment.loads p.2 = false) :
    (assignmentObject now p).run σ = .error .trap σ := by
  unfold assignmentObject
  unfold Assignment.loads at h
  cases hdec : Assignment.ofDictionary (Doc.data p.2) with
  | none => simp [hdec] at h
  | some a =>
      have hlisten : a.listen = none := by simpa [hdec] using h
      simp only [hlisten, EStateM.run_bind, run_unwrap_none]

/-- The loop keeps the order of the documents. -/
theorem Classroom.run_assignmentObjects {now : Rat}
    (h : ∀ p ∈ docs, Assignment.loads p.2 = true) :
    (docs.mapM (assignmentObject now)).run σ =
      .ok (docs.map fun p => Assignment.loaded now p.2)
        { σ with store := σ.store.applyAll (docs.flatMap fun p => Assignment.placeholder p.2) } := by
  induction docs generalizing σ with
  | nil => rfl
  | cons p docs ih =>
      have hp : Assignment.loads p.2 = true := h p (List.mem_cons_self ..)
      have hdocs := ih (σ := { σ with store := σ.store.applyAll (Assignment.placeholder p.2) })
        fun q hq => h q (List.mem_cons_of_mem _ hq)
      rw [List.mapM_cons, EStateM.run_bind, run_assignmentObject hp]
      simp only [EStateM.run_bind, hdocs]
      rw [List.flatMap_cons, Store.applyAll, Store.applyAll, Store.applyAll, List.foldl_append]
      rfl

theorem Classroom.run_assignmentObjects_trap {now : Rat} {p : String × Doc} (hp : p ∈ docs)
    (h : Assignment.loads p.2 = false) :
    ∃ σ', (docs.mapM (assignmentObject now)).run σ = .error .trap σ' := by
  induction docs generalizing σ with
  | nil => cases hp
  | cons q docs ih =>
      rw [List.mapM_cons, EStateM.run_bind]
      cases hq : Assignment.loads q.2 with
      | false => exact ⟨σ, by rw [run_assignmentObject_trap hq]⟩
      | true =>
          have hmem : p ∈ docs := by
            rcases List.mem_cons.mp hp with rfl | hmem
            · rw [hq] at h
              cases h
            · exact hmem
          obtain ⟨σ', hrun⟩ := ih
            (σ := { σ with store := σ.store.applyAll (Assignment.placeholder q.2) }) hmem
          refine ⟨σ', ?_⟩
          rw [run_assignmentObject hq]
          simp only [EStateM.run_bind, hrun]

variable [TextOps]

theorem Classroom.run_getAssignmentObjects {now : Rat} {c : Classroom}
    (h : ∀ id d, TextOps.contains (c.assignmentIDs.getD []) id = true →
      σ.store.get? ⟨Strings.assignment, id⟩ = some d → Assignment.loads d = true) :
    (c.getAssignmentObjects now).run σ =
      .ok ((c.assignmentDocuments σ.store).map fun p => Assignment.loaded now p.2)
        { σ with
          store := σ.store.applyAll
            ((c.assignmentDocuments σ.store).flatMap fun p => Assignment.placeholder p.2) } := by
  rw [getAssignmentObjects, EStateM.run_bind, run_ask_pure]
  refine run_assignmentObjects fun p hp => ?_
  obtain ⟨hget, hmem⟩ := DatabaseHelper.mem_getDocumentsFromIDs.mp hp
  exact h p.1 p.2 hmem hget

theorem Classroom.run_getAssignmentObjects_trap (now : Rat) {c : Classroom} {id : String} {d : Doc}
    (hmem : TextOps.contains (c.assignmentIDs.getD []) id = true)
    (hget : σ.store.get? ⟨Strings.assignment, id⟩ = some d) (h : Assignment.loads d = false) :
    ∃ σ', (c.getAssignmentObjects now).run σ = .error .trap σ' := by
  rw [getAssignmentObjects, EStateM.run_bind, run_ask_pure]
  exact run_assignmentObjects_trap (DatabaseHelper.mem_getDocumentsFromIDs.mpr ⟨hget, hmem⟩) h

/-- A round for the document does not trap. -/
def Student.load (d : Doc) : Option Student := do
  let student ← Student.ofDictionary (Doc.data d)
  let _ ← (IUser.student student).listen
  some student

theorem studentObject_eq (p : String × Doc) : studentObject p = App.unwrap (Student.load p.2) := by
  have hload : Student.load p.2 = (Student.ofDictionary (Doc.data p.2)).bind fun student =>
      (IUser.student student).listen.bind fun _ => some student := rfl
  rw [hload, unwrap_bind]
  simp only [unwrap_bind]
  rfl

theorem run_studentObjects (h : ∀ p ∈ docs, Student.load p.2 ≠ none) :
    ∃ students, (docs.mapM studentObject).run σ = .ok students σ
      ∧ (docs.map fun p => Student.load p.2) = students.map some := by
  induction docs with
  | nil => exact ⟨[], rfl, rfl⟩
  | cons p docs ih =>
      obtain ⟨student, hp⟩ := Option.ne_none_iff_exists'.mp (h p (List.mem_cons_self ..))
      obtain ⟨students, hrun, hloads⟩ := ih fun q hq => h q (List.mem_cons_of_mem _ hq)
      refine ⟨student :: students, ?_, by rw [List.map_cons, List.map_cons, hp, hloads]⟩
      rw [List.mapM_cons, EStateM.run_bind, studentObject_eq, hp, run_unwrap_some]
      simp only [EStateM.run_bind, hrun]
      rfl

theorem run_studentObjects_trap {p : String × Doc} (hp : p ∈ docs) (h : Student.load p.2 = none) :
    (docs.mapM studentObject).run σ = .error .trap σ := by
  induction docs with
  | nil => cases hp
  | cons q docs ih =>
      rw [List.mapM_cons, EStateM.run_bind, studentObject_eq]
      cases hq : Student.load q.2 with
      | none => rfl
      | some student =>
          rcases List.mem_cons.mp hp with rfl | hmem
          · rw [h] at hq
            cases hq
          · simp only [run_unwrap_some, EStateM.run_bind, ih hmem]

end Loops

end GradeIo
