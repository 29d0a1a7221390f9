import GradeIo.CreateAssignment
import GradeIo.Objects

/-!
# Loading a new assignment

An assignment that `GenerateAssignment` has created is added to a class, and
the class's assignments are fetched. The due date is stored as a timestamp,
which the JSON bridge of the loader does not carry: what is loaded is the
placeholder `NULL`, for every assignment (`not_loadedBack`).
-/

namespace GradeIo

open DocDb App CreateAssignmentViewController

/-- Fetching the class's assignments gives, in the place of the document, an
assignment with its id and with what was entered. -/
def LoadedBack [TextOps] (now : Rat) (σ : World) (c : Classroom) (p : DocPath)
    (screen : CreateAssignmentViewController) (date : Option Rat) : Prop :=
  ∃ (assign : List Assignment) (σ' : World), (c.getAssignmentObjects now).run σ = .ok assign σ'
    ∧ ∃ (i : Nat) (id : String) (d : Doc) (a : Assignment),
      (c.assignmentDocuments σ.store)[i]? = some (id, d) ∧ p = ⟨Strings.assignment, id⟩
      ∧ assign[i]? = some a
      ∧ a.id = some id ∧ a.name = some screen.assignName
      ∧ a.description = some screen.assignInstructions
      ∧ a.filePath = some screen.fileNameLabel ∧ a.dueDate = date

/-! ## What a new document holds -/

section

variable {dateFromString : String → Option Rat} {screen screen' : CreateAssignmentViewController}
  {currentUserID : Option String} {draw : Fin 1001} {now : Rat} {writes : List Write}

/-- A successful `GenerateAssignment` merges what was entered into the document
of the generated id. -/
theorem generateAssignment_eq_true
    (h : screen.generateAssignment dateFromString currentUserID draw now =
      some (true, screen', writes)) :
    ∃ date p, dateFromString screen.assignDueDate = some date
      ∧ documentPath Strings.assignment (generatedID currentUserID draw) = some p
      ∧ writes = mergeAll p (screen.entered date) ++ [dotWrite] := by
  cases hdate : dateFromString screen.assignDueDate with
  | none =>
      rw [generateAssignment_of_no_date hdate] at h
      simp at h
  | some date =>
      rw [generateAssignment_of_date hdate] at h
      obtain ⟨p, hp, heq⟩ := Option.map_eq_some_iff.mp h
      exact ⟨date, p, rfl, hp, (Prod.mk.inj (Prod.mk.inj heq).2).2.symm⟩

/-- A generated id ends with a digit, and so does the name of its document. -/
theorem isDigit_of_generatedID {p : DocPath}
    (hp : documentPath Strings.assignment (generatedID currentUserID draw) = some p) :
    ∃ c : Char, c.isDigit = true ∧ p.document.toList.getLast? = some c := by
  have hdigits : (toString draw.val).toList = Nat.toDigits 10 draw.val := Nat.toList_repr
  cases hlast : (Nat.toDigits 10 draw.val).getLast? with
  | none => exact absurd (List.getLast?_eq_none_iff.mp hlast) Nat.toDigits_ne_nil
  | some c =>
      have hdigit : c.isDigit = true := Nat.isDigit_of_mem_toDigits (by decide) (by decide)
        (List.mem_of_getLast? hlast)
      have hid : (generatedID currentUserID draw).toList.getLast? = some c := by
        rw [generatedID, String.toList_append, hdigits, List.getLast?_append, hlast]
        rfl
      refine ⟨c, hdigit, getLast?_document_of_documentPath hp hid ?_⟩
      rintro rfl
      exact absurd hdigit (by decide)

/-- No generated id is one of the two names that the code writes by itself. -/
theorem document_ne_of_generatedID {p : DocPath}
    (hp : documentPath Strings.assignment (generatedID currentUserID draw) = some p) :
    p.document ≠ "NULL" ∧ p.document ≠ "." := by
  obtain ⟨c, hdigit, hlast⟩ := isDigit_of_generatedID hp
  have hne : ∀ (name : String) (last : Char), name.toList.getLast? = some last →
      last.isDigit = false → p.document ≠ name := by
    rintro name last hname hnot rfl
    obtain rfl : c = last := Option.some.inj (hlast.symm.trans hname)
    rw [hnot] at hdigit
    cases hdigit
  exact ⟨hne "NULL" 'L' (by decide) rfl, hne "." '.' (by decide) rfl⟩

/-- Adding an assignment writes to a document of a class. -/
theorem Classroom.path_of_addAssignment {c c' : Classroom} {newAssignment : String} {w : Write}
    (h : c.addAssignment newAssignment = some (c', w)) :
    w.path.collection.toList.head? = some 'C' := by
  obtain ⟨id, p, hp, rfl⟩ := addAssignment_eq_some h
  exact head?_collection_of_documentPath (by decide) hp

/-- The due date is still stored, as a timestamp, when the class is fetched. -/
theorem get?_created
    (hcreated : screen.generateAssignment dateFromString currentUserID draw now =
      some (true, screen', writes))
    {p : DocPath}
    (hp : documentPath Strings.assignment (generatedID currentUserID draw) = some p)
    {w : Write} (hw : w.path.collection.toList.head? = some 'C') (s : Store) :
    ∃ d date, ((s.applyAll writes).apply w).get? p = some d
      ∧ d[Strings.dueDate]? = some (.timestamp date) := by
  obtain ⟨date, q, -, hq, rfl⟩ := generateAssignment_eq_true hcreated
  obtain rfl : p = q := Option.some.inj (hp.symm.trans hq)
  have hclass : p ≠ w.path := by
    rintro rfl
    rw [head?_collection_of_documentPath (by decide) hp] at hw
    exact absurd hw (by decide)
  have hdot : p ≠ dotWrite.path := by
    rintro rfl
    exact (document_ne_of_generatedID hp).2 rfl
  refine ⟨Doc.merge ((s.get? p).getD ∅) (screen.entered date), date, ?_, ?_⟩
  · rw [Store.get?_apply_of_ne _ hclass, Store.applyAll, List.foldl_append]
    exact (Store.get?_apply_of_ne _ hdot).trans Store.get?_mergeAll
  · rw [Doc.getElem?_merge]
    rfl

end

/-! ## What is fetched -/

/-- A document with a timestamp does not pass the JSON bridge. -/
theorem Assignment.ofDictionary_of_timestamp {d : Doc} {key : String} {date : Rat}
    (h : d[key]? = some (.timestamp date)) : Assignment.ofDictionary (Doc.data d) = none :=
  initDictionary_of_invalid (isValidJSONObject_eq_false (Doc.mem_data.mpr h) rfl)

/-- The loop puts the placeholder in its place, or something else traps. -/
theorem not_loadedBack_of_timestamp [TextOps] {now : Rat} {σ : World} {c : Classroom} {p : DocPath}
    {screen : CreateAssignmentViewController} {date : Option Rat} {d : Doc} {key : String}
    {t : Rat} (hget : σ.store.get? p = some d) (hstored : d[key]? = some (.timestamp t))
    (hnull : p.document ≠ "NULL") : ¬ LoadedBack now σ c p screen date := by
  rintro ⟨assign, σ', hrun, i, id, d', a, hdoc, rfl, hassign, hid, -⟩
  have hloads : ∀ id d, TextOps.contains (c.assignmentIDs.getD []) id = true →
      σ.store.get? ⟨Strings.assignment, id⟩ = some d → Assignment.loads d = true := by
    intro id d hmem hd
    by_contra hnot
    obtain ⟨σt, htrap⟩ := Classroom.run_getAssignmentObjects_trap now hmem hd
      (Bool.eq_false_iff.mpr hnot)
    rw [hrun] at htrap
    cases htrap
  rw [Classroom.run_getAssignmentObjects hloads] at hrun
  injection hrun with hmap
  obtain ⟨hd', -⟩ := DatabaseHelper.mem_getDocumentsFromIDs.mp (List.mem_of_getElem? hdoc)
  obtain rfl : d' = d := Option.some.inj (hd'.symm.trans hget)
  have ha : a = Assignment.loaded now d' := by
    rw [← hmap, List.getElem?_map, hdoc] at hassign
    exact (Option.some.inj hassign).symm
  rw [ha, Assignment.loaded, Assignment.ofDictionary_of_timestamp hstored] at hid
  exact hnull (Option.some.inj hid).symm

/-- No created assignment is loaded back, whatever the store and the class hold. -/
theorem not_loadedBack [TextOps] {dateFromString : String → Option Rat}
    {screen screen' : CreateAssignmentViewController} {currentUserID : Option String}
    {draw : Fin 1001} {now : Rat} {writes : List Write}
    (hcreated : screen.generateAssignment dateFromString currentUserID draw now =
      some (true, screen', writes))
    {p : DocPath}
    (hp : documentPath Strings.assignment (generatedID currentUserID draw) = some p)
    {c c' : Classroom} {newAssignment : String} {w : Write}
    (hadded : c.addAssignment newAssignment = some (c', w))
    (σ : World) (later : Rat) :
    ¬ LoadedBack later { σ with store := (σ.store.applyAll writes).apply w } c' p screen
      (dateFromString screen.assignDueDate) := by
  obtain ⟨d, date, hget, hstored⟩ :=
    get?_created hcreated hp (Classroom.path_of_addAssignment hadded) σ.store
  exact not_loadedBack_of_timestamp hget hstored (document_ne_of_generatedID hp).1

/-! ## One assignment -/

section Sums

attribute [local instance] TextOps.ascii

def sumsClass : Classroom := Classroom.new "c1"

/-- The class has the assignment. -/
def sumsAdded : Classroom := { sumsClass with assignmentIDs := some ["t_a12"] }

def sumsAdd : Write := .unionMerge ⟨Strings.class, "c1"⟩ Strings.assignmentIDs (.string "t_a12")

theorem addAssignment_sums :
    sumsClass.addAssignment sumsPath.document = some (sumsAdded, sumsAdd) := by decide

def sumsWorld : World :=
  { emptyWorld with store := (emptyWorld.store.applyAll sumsWrites).apply sumsAdd }

theorem not_loadedBack_sums :
    ¬ LoadedBack 0 sumsWorld sumsAdded sumsPath sums (someDate sums.assignDueDate) :=
  not_loadedBack generateAssignment_sums documentPath_sums addAssignment_sums emptyWorld 0

/-- The class has one assignment, and it is the placeholder. -/
theorem fetched_sums :
    (∃ σ', (sumsAdded.getAssignmentObjects 0).run sumsWorld = .ok [Assignment.new "NULL" 0] σ')
      ∧ ¬ LoadedBack 0 sumsWorld sumsAdded sumsPath sums (someDate sums.assignDueDate) := by
  have hget : sumsWorld.store.get? sumsPath = some (Doc.merge ∅ (sums.entered 642643200)) := rfl
  have hstored : (Doc.merge ∅ (sums.entered 642643200))[Strings.dueDate]? =
      some (.timestamp 642643200) := rfl
  have hnone := Assignment.ofDictionary_of_timestamp hstored
  refine ⟨?_, not_loadedBack_of_timestamp hget hstored (by decide)⟩
  have hdocs : sumsAdded.assignmentDocuments sumsWorld.store =
      [("t_a12", Doc.merge ∅ (sums.entered 642643200))] := by
    rw [Classroom.assignmentDocuments, show sumsAdded.assignmentIDs.getD [] = ["t_a12"] from rfl,
      DatabaseHelper.getDocumentsFromIDs_singleton fun m _ hsame =>
        (TextOps.alone_ascii m _ hsame).symm]
    exact congrArg (fun d : Option Doc => d.toList.map fun d => ("t_a12", d)) hget
  have hloads : ∀ id d, TextOps.contains (sumsAdded.assignmentIDs.getD []) id = true →
      sumsWorld.store.get? ⟨Strings.assignment, id⟩ = some d → Assignment.loads d = true := by
    intro id d hmem hd
    obtain rfl := List.mem_singleton.mp ((TextOps.alone_ascii id).contains_iff.mp hmem)
    obtain rfl := Option.some.inj (hget.symm.trans hd)
    simp [Assignment.loads, hnone]
  rw [Classroom.run_getAssignmentObjects hloads, hdocs, List.map_singleton, Assignment.loaded, hnone]
  exact ⟨_, rfl⟩

end Sums

end GradeIo
