import GradeIo.Lib.Completion
import GradeIo.Objects
import GradeIo.UserHelper

/-!
# What the lookups answer

The lookups of `DatabaseHelper` and `UserHelper` once more, with what becomes of
their completion handlers (`Completion.Calls`) whether or not the query fails.
Where it does not, a lookup is the `Answer` of its function on the store
(`calls`); where it does, most of them never answer.

`Lookup` lists them, and `answers_iff` says exactly when one answers once.
-/

namespace GradeIo

open DocDb Completion
open DatabaseHelper (Named)
open UserHelper (Kind kindOf idDoc)

/-- The database, and whether it reports an error. -/
structure Backend where
  store : Store
  failed : Bool

namespace Backend

/-- `getDocuments` of a collection; nil with an error. -/
def getDocuments (b : Backend) (collection : String) : Calls (Option (List (String × Doc))) := do
  let c ← Calls.unwrap (collectionPath collection)
  pure (if b.failed then none else some (b.store.documents c))

def whereField (b : Backend) (collection key value : String) :
    Calls (Option (List (String × Doc))) := do
  let c ← Calls.unwrap (collectionPath collection)
  pure (if b.failed then none else some (b.store.whereField c key (.string value)))

/-- `getDocument`: nil with an error, and otherwise a snapshot, of a document
that may not exist. -/
def getDocument (b : Backend) (collection document : String) : Calls (Option (Option Doc)) := do
  let c ← Calls.unwrap (collectionPath collection)
  let p ← Calls.unwrap (documentPath c document)
  pure (if b.failed then none else some (b.store.get? p))

end Backend

namespace Answers

section Model

variable [TextOps]

namespace DatabaseHelper

def getDocumentsFromIDs (b : Backend) (collection : String) (ids : List String) :
    Calls (List (String × Doc)) := do
  match ← b.getDocuments collection with
  | none => .done
  | some documents => pure (documents.filter fun d => TextOps.contains ids d.1)

/-- The first of the documents, decoded by force. -/
def first {α : Type} (ofDictionary : Dict → Option α) : List (String × Doc) → Calls α
  | [] => .done
  | (_, d) :: _ => Calls.unwrap (ofDictionary (Doc.data d))

def getStudentFromID (b : Backend) (studentID : String) : Calls Student := do
  first Student.ofDictionary (← getDocumentsFromIDs b Strings.student [studentID])

def getClassroomFromID (b : Backend) (classID : String) : Calls Classroom := do
  first Classroom.ofDictionary (← getDocumentsFromIDs b Strings.class [classID])

def getDocument (b : Backend) (collectionName documentName : String) : Calls (Option Dict) := do
  match ← b.getDocument collectionName documentName with
  | some (some document) => pure (some (Doc.data document))
  | _ => .done

def getDocsFromKeyValues (b : Backend) (collection key value : String) :
    Calls (List (String × Doc)) := do
  match ← b.whereField collection key value with
  | none => .done
  | some documents => pure documents

end DatabaseHelper

namespace UserHelper

def getStudentByID (b : Backend) (id : String) : Calls Student := do
  DatabaseHelper.first Student.ofDictionary
    (← DatabaseHelper.getDocsFromKeyValues b Strings.student Strings.id id)

def getParentByID (b : Backend) (id : String) : Calls Parent := do
  DatabaseHelper.first Parent.ofDictionary
    (← DatabaseHelper.getDocsFromKeyValues b Strings.parent Strings.id id)

def getTeacherByID (b : Backend) (id : String) : Calls Teacher := do
  DatabaseHelper.first Teacher.ofDictionary
    (← DatabaseHelper.getDocsFromKeyValues b Strings.teacher Strings.id id)

def getUserByID (b : Backend) (id : String) : Calls IUser :=
  match kindOf id with
  | some .parent => do pure (.parent (← getParentByID b id))
  | some .student => do pure (.student (← getStudentByID b id))
  | some .teacher => do pure (.teacher (← getTeacherByID b id))
  | none => pure (.base BaseUser.init)

def userNameExists (b : Backend) (name type : String) : Calls Bool := do
  let res ← DatabaseHelper.getDocument b type name
  pure (res.map List.isEmpty = some true)

end UserHelper

/-! ## The lookups -/

inductive Lookup where
  | documentsFromIDs (collection : String) (ids : List String)
  | studentFromID (studentID : String)
  | classroomFromID (classID : String)
  | document (collectionName documentName : String)
  | studentByID (id : String)
  | parentByID (id : String)
  | teacherByID (id : String)
  | userByID (id : String)
  | userNameExists (name type : String)

namespace Lookup

/-- What the completion handler is given. -/
def Given : Lookup → Type
  | documentsFromIDs _ _ => List (String × Doc)
  | studentFromID _ => Student
  | classroomFromID _ => Classroom
  | document _ _ => Option Dict
  | studentByID _ => Student
  | parentByID _ => Parent
  | teacherByID _ => Teacher
  | userByID _ => IUser
  | userNameExists _ _ => Bool

def run (b : Backend) : (l : Lookup) → Calls l.Given
  | documentsFromIDs collection ids => DatabaseHelper.getDocumentsFromIDs b collection ids
  | studentFromID studentID => DatabaseHelper.getStudentFromID b studentID
  | classroomFromID classID => DatabaseHelper.getClassroomFromID b classID
  | document collectionName documentName =>
      DatabaseHelper.getDocument b collectionName documentName
  | studentByID id => UserHelper.getStudentByID b id
  | parentByID id => UserHelper.getParentByID b id
  | teacherByID id => UserHelper.getTeacherByID b id
  | userByID id => UserHelper.getUserByID b id
  | userNameExists name type => UserHelper.userNameExists b name type

/-- The document of the name, if it exists. -/
def found (b : Backend) (collection document : String) : Option Doc := do
  let c ← collectionPath collection
  let p ← documentPath c document
  b.store.get? p

/-- What a value should mean: `UserNameExists` says whether there is one. -/
def Right (b : Backend) : (l : Lookup) → l.Given → Prop
  | userNameExists name type, answer => (answer = true ↔ found b type name ≠ none)
  | _, _ => True

/-- The lookup answers once, with what is right, and nothing traps. -/
def AnswersOnce (b : Backend) (l : Lookup) : Prop := ∃ value, (l.run b).Once value ∧ l.Right b value

/-- The query succeeds and finds something that decodes. `UserNameExists` only
gets a document that is there, and asks whether it is empty. -/
def Answerable (b : Backend) : Lookup → Prop
  | documentsFromIDs collection _ => b.failed = false ∧ collectionPath collection ≠ none
  | studentFromID studentID => b.failed = false
      ∧ ∃ m d, Named b.store Strings.student studentID m d
        ∧ Student.ofDictionary (Doc.data d) ≠ none
  | classroomFromID classID => b.failed = false
      ∧ ∃ m d, Named b.store Strings.class classID m d
        ∧ Classroom.ofDictionary (Doc.data d) ≠ none
  | document collectionName documentName => b.failed = false
      ∧ found b collectionName documentName ≠ none
  | studentByID id => b.failed = false ∧ ∃ m d,
      b.store.Found Strings.student Strings.id (.string id) m d
        ∧ Student.ofDictionary (Doc.data d) ≠ none
  | parentByID id => b.failed = false ∧ ∃ m d,
      b.store.Found Strings.parent Strings.id (.string id) m d
        ∧ Parent.ofDictionary (Doc.data d) ≠ none
  | teacherByID id => b.failed = false ∧ ∃ m d,
      b.store.Found Strings.teacher Strings.id (.string id) m d
        ∧ Teacher.ofDictionary (Doc.data d) ≠ none
  | userByID id => ∀ k, kindOf id = some k → b.failed = false ∧ ∃ m d,
      b.store.Found k.collection Strings.id (.string id) m d
        ∧ k.ofDictionary (Doc.data d) ≠ none
  | userNameExists name type => b.failed = false
      ∧ ∃ d, found b type name = some d ∧ Doc.data d = []

end Lookup

end Model

/-! ## The lookups on the store -/

/-- What an answer does to the handler. -/
def calls {α : Type} : Answer α → Calls α
  | .ok a => pure a
  | .error .trap => .trap
  | .error .noAnswer => .done

section

variable {α β : Type} {b : Backend}

theorem once_calls {x : Answer α} {a : α} : (calls x).Once a ↔ x = .ok a := by
  cases x with
  | ok a' => simp [calls]
  | error e => cases e <;> simp [calls]

theorem calls_unwrap (o : Option α) : calls (GradeIo.unwrap o) = Calls.unwrap o := by
  cases o <;> rfl

theorem calls_map (x : Answer α) (f : α → β) :
    (do pure (f (← calls x)) : Calls β) = calls (x.map f) := by
  cases x with
  | ok a => rfl
  | error e => cases e <;> rfl

/-- An error is an answer that never comes. -/
def unlessFailed (b : Backend) (x : Answer α) : Calls α := if b.failed then .done else calls x

theorem once_unlessFailed {x : Answer α} {a : α} :
    (unlessFailed b x).Once a ↔ b.failed = false ∧ x = .ok a := by
  unfold unlessFailed
  cases b.failed with
  | true => simp
  | false => simp [once_calls]

theorem map_unlessFailed (x : Answer α) (f : α → β) :
    (do pure (f (← unlessFailed b x)) : Calls β) = unlessFailed b (x.map f) := by
  unfold unlessFailed
  cases b.failed with
  | true => rfl
  | false => exact calls_map x f

theorem exists_once_unlessFailed {x : Answer α} :
    (∃ a, (unlessFailed b x).Once a) ↔ b.failed = false ∧ ∃ a, x = .ok a := by
  simp only [once_unlessFailed, exists_and_left]

theorem getDocsFromKeyValues_eq {collection c : String} (hc : collectionPath collection = some c)
    (key value : String) :
    DatabaseHelper.getDocsFromKeyValues b collection key value =
      unlessFailed b (.ok (GradeIo.DatabaseHelper.getDocsFromKeyValues b.store c key value)) := by
  simp only [DatabaseHelper.getDocsFromKeyValues, Backend.whereField, hc, Calls.unwrap_some,
    Calls.pure_bind, unlessFailed]
  cases b.failed <;> rfl

theorem first_eq (dec : Dict → Option α) (documents : List (String × Doc)) :
    DatabaseHelper.first dec documents = calls (GradeIo.UserHelper.firstOf dec documents) := by
  cases documents with
  | nil => rfl
  | cons d rest => exact (calls_unwrap _).symm

/-- The first document of a query that succeeds. -/
theorem unlessFailed_bind_first (dec : Dict → Option α) (documents : List (String × Doc)) :
    (unlessFailed b (.ok documents) >>= DatabaseHelper.first dec) =
      unlessFailed b (GradeIo.UserHelper.firstOf dec documents) := by
  unfold unlessFailed
  cases b.failed with
  | true => rfl
  | false => exact (Calls.pure_bind _ _).trans (first_eq dec documents)

theorem first_getDocsFromKeyValues (dec : Dict → Option α) {collection : String}
    (hc : collectionPath collection = some collection) (key value : String) :
    (DatabaseHelper.getDocsFromKeyValues b collection key value >>= DatabaseHelper.first dec) =
      unlessFailed b (GradeIo.UserHelper.firstOf dec
        (GradeIo.DatabaseHelper.getDocsFromKeyValues b.store collection key value)) := by
  rw [getDocsFromKeyValues_eq hc]
  exact unlessFailed_bind_first dec _

theorem getStudentByID_eq (id : String) : UserHelper.getStudentByID b id =
    unlessFailed b (GradeIo.UserHelper.getStudentByID b.store id) :=
  first_getDocsFromKeyValues _ (by decide) _ _

theorem getParentByID_eq (id : String) : UserHelper.getParentByID b id =
    unlessFailed b (GradeIo.UserHelper.getParentByID b.store id) :=
  first_getDocsFromKeyValues _ (by decide) _ _

theorem getTeacherByID_eq (id : String) : UserHelper.getTeacherByID b id =
    unlessFailed b (GradeIo.UserHelper.getTeacherByID b.store id) :=
  first_getDocsFromKeyValues _ (by decide) _ _

theorem exists_firstOf {dec : Dict → Option α} {s : Store} {collection key value : String} :
    (∃ a, GradeIo.UserHelper.firstOf dec
        (GradeIo.DatabaseHelper.getDocsFromKeyValues s collection key value) = .ok a) ↔
      ∃ m d, s.Found collection key (.string value) m d ∧ dec (Doc.data d) ≠ none := by
  simp only [GradeIo.UserHelper.firstOf_eq_ok_iff, Option.ne_none_iff_exists']
  constructor
  · rintro ⟨a, m, d, hfound, hdec⟩
    exact ⟨m, d, hfound, a, hdec⟩
  · rintro ⟨m, d, hfound, a, hdec⟩
    exact ⟨a, m, d, hfound, hdec⟩

/-- Only a document that exists is handed over. -/
theorem once_getDocument {collectionName documentName : String} {res : Option Dict} :
    (DatabaseHelper.getDocument b collectionName documentName).Once res ↔
      b.failed = false ∧ ∃ d, Lookup.found b collectionName documentName = some d
        ∧ res = some (Doc.data d) := by
  unfold DatabaseHelper.getDocument Backend.getDocument Lookup.found
  cases collectionPath collectionName with
  | none => simp
  | some c =>
      simp only [Calls.unwrap_some, Calls.pure_bind, Option.bind_eq_bind, Option.bind_some]
      cases documentPath c documentName with
      | none => simp
      | some p =>
          simp only [Calls.unwrap_some, Calls.pure_bind, Option.bind_some]
          cases b.failed with
          | true => simp
          | false => cases b.store.get? p <;> simp [eq_comm]

theorem once_userNameExists {name type : String} {answer : Bool} :
    (UserHelper.userNameExists b name type).Once answer ↔
      b.failed = false ∧ ∃ d, Lookup.found b type name = some d
        ∧ answer = (Doc.data d).isEmpty := by
  have hempty : ∀ d : Dict, decide ((some d).map List.isEmpty = some true) = d.isEmpty := by
    intro d
    cases d <;> rfl
  refine Calls.once_map.trans ?_
  simp only [once_getDocument]
  constructor
  · rintro ⟨res, ⟨hfailed, d, hd, rfl⟩, rfl⟩
    exact ⟨hfailed, d, hd, hempty _⟩
  · rintro ⟨hfailed, d, hd, rfl⟩
    exact ⟨_, ⟨hfailed, d, hd, rfl⟩, hempty _⟩

variable [TextOps]

theorem getDocumentsFromIDs_eq {collection c : String} (hc : collectionPath collection = some c)
    (ids : List String) :
    DatabaseHelper.getDocumentsFromIDs b collection ids =
      unlessFailed b (.ok (GradeIo.DatabaseHelper.getDocumentsFromIDs b.store c ids)) := by
  simp only [DatabaseHelper.getDocumentsFromIDs, Backend.getDocuments, hc, Calls.unwrap_some,
    Calls.pure_bind, unlessFailed]
  cases b.failed <;> rfl

theorem first_getDocumentsFromIDs (dec : Dict → Option α) {collection : String}
    (hc : collectionPath collection = some collection) (ids : List String) :
    (DatabaseHelper.getDocumentsFromIDs b collection ids >>= DatabaseHelper.first dec) =
      unlessFailed b (GradeIo.DatabaseHelper.firstFromIDs dec b.store collection ids) := by
  rw [getDocumentsFromIDs_eq hc]
  exact unlessFailed_bind_first dec _

theorem getStudentFromID_eq (studentID : String) : DatabaseHelper.getStudentFromID b studentID =
    unlessFailed b (GradeIo.DatabaseHelper.getStudentFromID b.store studentID) :=
  first_getDocumentsFromIDs _ (by decide) _

theorem getClassroomFromID_eq (classID : String) : DatabaseHelper.getClassroomFromID b classID =
    unlessFailed b (GradeIo.DatabaseHelper.getClassroomFromID b.store classID) :=
  first_getDocumentsFromIDs _ (by decide) _

theorem getUserByID_eq {id : String} {k : Kind} (hk : kindOf id = some k) :
    UserHelper.getUserByID b id = unlessFailed b (GradeIo.UserHelper.getUserByID b.store id) := by
  unfold UserHelper.getUserByID GradeIo.UserHelper.getUserByID
  rw [hk]
  cases k with
  | student =>
      show (UserHelper.getStudentByID b id >>= fun s => (pure (IUser.student s) : Calls IUser)) = _
      rw [getStudentByID_eq]
      exact map_unlessFailed _ _
  | teacher =>
      show (UserHelper.getTeacherByID b id >>= fun t => (pure (IUser.teacher t) : Calls IUser)) = _
      rw [getTeacherByID_eq]
      exact map_unlessFailed _ _
  | parent =>
      show (UserHelper.getParentByID b id >>= fun p => (pure (IUser.parent p) : Calls IUser)) = _
      rw [getParentByID_eq]
      exact map_unlessFailed _ _

/-! ## When they answer -/

theorem exists_firstFromIDs {dec : Dict → Option α} {s : Store} {collection id : String} :
    (∃ a, GradeIo.DatabaseHelper.firstFromIDs dec s collection [id] = .ok a) ↔
      ∃ m d, Named s collection id m d ∧ dec (Doc.data d) ≠ none := by
  simp only [GradeIo.DatabaseHelper.firstFromIDs_eq_ok, Option.ne_none_iff_exists']
  constructor
  · rintro ⟨a, m, d, hnamed, hdec⟩
    exact ⟨m, d, hnamed, a, hdec⟩
  · rintro ⟨m, d, hnamed, a, hdec⟩
    exact ⟨a, m, d, hnamed, hdec⟩

/-- The lookup of a user answers at once if no collection fits its id. -/
theorem exists_once_getUserByID {id : String} :
    (∃ u, (UserHelper.getUserByID b id).Once u) ↔
      ∀ k, kindOf id = some k → b.failed = false ∧ ∃ m d,
        b.store.Found k.collection Strings.id (.string id) m d
          ∧ k.ofDictionary (Doc.data d) ≠ none := by
  cases hk : kindOf id with
  | none =>
      have hanswer : UserHelper.getUserByID b id = pure (.base BaseUser.init) := by
        rw [UserHelper.getUserByID, hk]
      rw [hanswer]
      exact iff_of_true ⟨_, Calls.once_pure.mpr rfl⟩ fun k h => nomatch h
  | some k =>
      rw [getUserByID_eq hk, exists_once_unlessFailed, GradeIo.UserHelper.getUserByID_of_kind hk,
        exists_firstOf]
      constructor
      · rintro h k' hk'
        obtain rfl := Option.some.inj hk'
        exact h
      · exact fun h => h k rfl

/-- Every lookup answers once exactly if its query succeeds and finds what it
forces. -/
theorem answersOnce_iff (b : Backend) (l : Lookup) : l.AnswersOnce b ↔ l.Answerable b := by
  have htrue : ∀ {α : Type} {x : Calls α},
      (∃ value, x.Once value ∧ True) ↔ ∃ value, x.Once value := by
    simp
  cases l with
  | documentsFromIDs collection ids =>
      refine htrue.trans ?_
      show (∃ value, (DatabaseHelper.getDocumentsFromIDs b collection ids).Once value) ↔
        b.failed = false ∧ collectionPath collection ≠ none
      cases hc : collectionPath collection with
      | none => simp [DatabaseHelper.getDocumentsFromIDs, Backend.getDocuments, hc]
      | some c =>
          rw [getDocumentsFromIDs_eq hc, exists_once_unlessFailed]
          simp
  | studentFromID studentID =>
      refine htrue.trans ?_
      rw [Lookup.run, getStudentFromID_eq]
      exact exists_once_unlessFailed.trans (and_congr_right fun _ => exists_firstFromIDs)
  | classroomFromID classID =>
      refine htrue.trans ?_
      rw [Lookup.run, getClassroomFromID_eq]
      exact exists_once_unlessFailed.trans (and_congr_right fun _ => exists_firstFromIDs)
  | document collectionName documentName =>
      refine htrue.trans ?_
      show (∃ res, (DatabaseHelper.getDocument b collectionName documentName).Once res) ↔
        b.failed = false ∧ Lookup.found b collectionName documentName ≠ none
      simp only [once_getDocument, Option.ne_none_iff_exists']
      constructor
      · rintro ⟨res, hfailed, d, hd, -⟩
        exact ⟨hfailed, d, hd⟩
      · rintro ⟨hfailed, d, hd⟩
        exact ⟨_, hfailed, d, hd, rfl⟩
  | studentByID id =>
      refine htrue.trans ?_
      rw [Lookup.run, getStudentByID_eq]
      exact exists_once_unlessFailed.trans (and_congr_right fun _ => exists_firstOf)
  | parentByID id =>
      refine htrue.trans ?_
      rw [Lookup.run, getParentByID_eq]
      exact exists_once_unlessFailed.trans (and_congr_right fun _ => exists_firstOf)
  | teacherByID id =>
      refine htrue.trans ?_
      rw [Lookup.run, getTeacherByID_eq]
      exact exists_once_unlessFailed.trans (and_congr_right fun _ => exists_firstOf)
  | userByID id => exact htrue.trans exists_once_getUserByID
  | userNameExists name type =>
      show (∃ answer, (UserHelper.userNameExists b name type).Once answer
        ∧ (answer = true ↔ Lookup.found b type name ≠ none)) ↔ b.failed = false
          ∧ ∃ d, Lookup.found b type name = some d ∧ Doc.data d = []
      simp only [once_userNameExists]
      constructor
      · rintro ⟨answer, ⟨hfailed, d, hd, rfl⟩, hright⟩
        rw [hd] at hright
        exact ⟨hfailed, d, hd, List.isEmpty_iff.mp (hright.mpr (Option.some_ne_none d))⟩
      · rintro ⟨hfailed, d, hd, hnil⟩
        refine ⟨_, ⟨hfailed, d, hd, rfl⟩, ?_⟩
        rw [hd, hnil]
        exact iff_of_true rfl (Option.some_ne_none d)

end

section Example

attribute [local instance] TextOps.ascii

/-- A database with a student document of this name. -/
def oneStudent (name : String) : Backend :=
  ⟨fun _ => (∅ : Collection).insert name (idDoc name), false⟩

/-- In an empty database nobody is found, and the handler waits for ever; of a
user name that is taken it hears that it is not. -/
theorem not_answersOnce :
    ¬ (Lookup.studentByID "s_ann").AnswersOnce ⟨fun _ => ∅, false⟩
      ∧ ¬ (Lookup.userNameExists "s_ann" Strings.student).AnswersOnce (oneStudent "s_ann") := by
  have hnever : (UserHelper.getStudentByID ⟨fun _ => ∅, false⟩ "s_ann").values.length = 0 := by
    decide +kernel
  have hfalse : UserHelper.userNameExists (oneStudent "s_ann") "s_ann" Strings.student =
      pure false := by
    decide +kernel
  have htaken : (Lookup.found (oneStudent "s_ann") Strings.student "s_ann").isSome = true := by
    decide +kernel
  have hwrong : ¬ ∃ answer : Bool,
      (UserHelper.userNameExists (oneStudent "s_ann") "s_ann" Strings.student).Once answer
        ∧ (answer = true ↔ Lookup.found (oneStudent "s_ann") Strings.student "s_ann" ≠ none) := by
    rintro ⟨answer, hanswer, hright⟩
    rw [hfalse, Calls.once_pure] at hanswer
    obtain rfl := hanswer
    cases hright.mpr (Option.isSome_iff_ne_none.mp htaken)
  refine ⟨?_, hwrong⟩
  rintro ⟨value, ⟨hvalues, -⟩, -⟩
  have hlength := congrArg List.length hvalues
  exact absurd (hnever.symm.trans hlength) (by simp)

end Example

end Answers

end GradeIo
