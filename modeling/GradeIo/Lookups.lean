import GradeIo.Classrooms
import GradeIo.Lib.SelfNamed
import GradeIo.Registration
import GradeIo.StoredFields

/-!
# The two lookups of a student

`GetStudentFromID` finds a student by the name of the document, which it
compares with `==`, and `GetStudentByID` by the field `id`, which Firestore
compares. The sign-ups, the operations that link students and the setters are
the events; the lookups agree in every store that they leave, as long as each
event is `Safe` (`agree_of_safe`).

Most events are: a sign-up with a code is not, as it gives its new document
every field but the id.
-/

namespace GradeIo.Lookups

open DocDb Transition App

inductive Event where
  | signUp (e : Registration.Event)
  /-- A teacher submits the popup, on a device with this classroom. -/
  | submitPressed (currentClassroom : Classroom) (studentIDText : Option String)
  | call (c : ReadPaths.Call)

section

variable (ops : TextOps) (dateFromString : String → Option Rat) (description : Rat → String)

def Event.run (σ : World) : Event → World
  | signUp e => after (Registration.handler ops description e) σ
  | submitPressed currentClassroom studentIDText =>
      after (AddStudentPopupController.submitPressed studentIDText) { σ with currentClassroom }
  | call c => after (c.run dateFromString description) σ

def system : System World Event where
  Init σ := σ.store = fun _ => ∅
  step σ e := some (e.run ops dateFromString description σ)

/-- For every id, both find nothing or both find the same document. -/
def Agree (s : Store) : Prop :=
  ∀ id, (DatabaseHelper.getDocumentsFromIDs s Strings.student [id]).head? =
    (DatabaseHelper.getDocsFromKeyValues s Strings.student Strings.id id).head?

/-- The document is there, if it is a student's. -/
def Known (s : Store) (p : DocPath) : Prop := p.collection = Strings.student → (s.get? p).isSome

/-- A sign-up with a form and `SetID` must not meet a name with slashes at an
end, or one that is equal to another text; what writes no id must meet a
document that exists. -/
def Safe (σ : World) : Event → Prop
  | .signUp (.student o form) => ∀ name p,
      UserHelper.generateUserName ops o form.firstName form.lastName Strings.student σ.store
        = .ok name → o.accepted = true → name ++ Strings.arbitraryEmail ∉ σ.accounts →
      documentPath Strings.student name = some p → p.collection = Strings.student →
      p.document = name ∧ TextOps.Alone name
  | .signUp (.parentCode o code) => ∀ res id p,
      Student.ofGivenCode code σ.store = .ok res → res.firstName ≠ some "" →
      UserHelper.generateUserName ops o (res.firstName.getD "") (res.lastName.getD "") "Student"
        σ.store = .ok id →
      documentPath Strings.student ("s_" ++ id) = some p → Known σ.store p
  | .call (.setter (.user (.student s)) c) =>
      (c.write dateFromString description (.user (.student s))).isSome →
      ∀ p, (IUser.student s).ref = some p → Known σ.store p
  | .call (.setUserID (.student _) newID) => ∀ p,
      documentPath Strings.student newID = some p → p.collection = Strings.student →
      p.document = newID ∧ TextOps.Alone newID
  | .call (.addStudent c newStudent) => c.studentIDs ≠ none → ∀ p,
      documentPath Strings.student newStudent = some p → Known σ.store p
  | _ => True

end

/-! ## The lookups and the field -/

section

variable {ops : TextOps} {s : Store}

theorem agree_iff_selfNamed :
    Agree ops s ↔ s.SelfNamed TextOps.Alone Strings.student Strings.id := by
  have hsame : Equivalence TextOps.Same :=
    ⟨TextOps.Same.refl, TextOps.Same.symm, TextOps.Same.trans⟩
  refine Iff.trans (forall_congr' fun id => ?_) (Store.lookups_eq_iff hsame)
  simp only [DatabaseHelper.getDocumentsFromIDs, DatabaseHelper.getDocsFromKeyValues,
    TextOps.contains, List.any_cons, List.any_nil, Bool.or_false]

/-- Then they also answer alike. -/
theorem Agree.answers (h : Agree ops s) (id : String) :
    DatabaseHelper.getStudentFromID s id = UserHelper.getStudentByID s id := by
  have hhead := h id
  unfold DatabaseHelper.getStudentFromID DatabaseHelper.firstFromIDs UserHelper.getStudentByID
  cases hname : DatabaseHelper.getDocumentsFromIDs s Strings.student [id] with
  | nil =>
      cases hfield : DatabaseHelper.getDocsFromKeyValues s Strings.student Strings.id id with
      | nil => rfl
      | cons d' rest => simp [hname, hfield] at hhead
  | cons d rest =>
      cases hfield : DatabaseHelper.getDocsFromKeyValues s Strings.student Strings.id id with
      | nil => simp [hname, hfield] at hhead
      | cons d' rest' =>
          obtain rfl : d = d' := by simpa [hname, hfield] using hhead
          rfl

end

/-! ## Sign-ups -/

section

variable {ops : TextOps} {dateFromString : String → Option Rat} {description : Rat → String}
  {σ : World}

/-- What is addressed below another collection is no student's document. -/
theorem ne_student {c name : String} {p : DocPath} (hne : c ≠ "")
    (hc : c.toList.head? ≠ Strings.student.toList.head?) (hp : documentPath c name = some p) :
    p.collection ≠ Strings.student := by
  intro hcollection
  have hhead := head?_collection_of_documentPath hne hp
  rw [hcollection] at hhead
  exact hc hhead.symm

theorem after_of_unregistered {x : App Bool} (h : Unregistered σ (x.run σ)) :
    (after x σ).store = σ.store := by
  rw [after]
  cases hrun : x.run σ with
  | error e σ' =>
      rw [hrun] at h
      exact h
  | ok b σ' =>
      rw [hrun] at h
      cases b with
      | true => exact h.elim
      | false => exact h

theorem after_of_registers {x : App Bool} {o : Outcome} {form : Form} {type segue : String}
    {fields : List (String × String)} {new : String → IUser}
    (h : Registers ops o form type fields new segue σ (x.run σ)) :
    ∃ name p, UserHelper.generateUserName ops o form.firstName form.lastName type σ.store
        = .ok name
      ∧ documentPath type name = some p
      ∧ (after x σ).store = σ.store.applyAll (mergeAll p (strings ((Strings.id, name) :: fields))) := by
  obtain ⟨name, p, hgen, -, -, hp, hrun⟩ := h
  exact ⟨name, p, hgen, hp, by rw [after, hrun]; rfl⟩

/-- A student's sign-up names its document by the generated name. -/
theorem student_iff (h : σ.store.SelfNamed TextOps.Alone Strings.student Strings.id) (o : Outcome)
    (form : Form) :
    (after (CreateAccountStudent.signUpPressed ops o form) σ).store.SelfNamed TextOps.Alone
        Strings.student Strings.id ↔
      Safe ops dateFromString description σ (.signUp (.student o form)) := by
  rcases CreateAccountStudent.signUpPressed_cases (σ := σ) with hno | hreg
  · rw [after_of_unregistered hno]
    refine iff_of_true h fun name p hgen hacc hnew hp => ?_
    have hrun : (CreateAccountStudent.signUpPressed ops o form).run σ = _ :=
      run_createAccount hgen hacc hnew rfl hp (studentSetters_eq form name)
    rw [hrun] at hno
    exact hno.elim
  · obtain ⟨name, p, hgen, hacc, hnew, hp, hrun⟩ := hreg
    have hstore : (after (CreateAccountStudent.signUpPressed ops o form) σ).store =
        σ.store.applyAll (mergeAll p (strings ((Strings.id, name) :: studentFields form))) := by
      rw [after, hrun]
      rfl
    rw [hstore, strings, List.map_cons, h.mergeAll_iff]
    -- the id is the first field that is set, and no other has its key
    constructor
    · intro hafter name' p' hgen' _ _ hp' hcollection
      obtain rfl : name = name' := Except.ok.inj (hgen.symm.trans hgen')
      obtain rfl : p = p' := Option.some.inj (hp.symm.trans hp')
      obtain ⟨hfield, halone⟩ : some (Value.string name) = some (.string p.document)
        ∧ TextOps.Alone p.document := hafter hcollection
      injection hfield with hfield
      injection hfield with hfield
      exact ⟨hfield.symm, hfield ▸ halone⟩
    · intro hsafe hcollection
      obtain ⟨hname, halone⟩ := hsafe name p hgen hacc hnew hp hcollection
      show some (Value.string name) = some (.string p.document) ∧ TextOps.Alone p.document
      rw [hname]
      exact ⟨rfl, halone⟩

/-- The other two forms are for other collections. -/
theorem adult_kept (h : σ.store.SelfNamed TextOps.Alone Strings.student Strings.id)
    {x : App Bool} {o : Outcome} {form : Form} {type segue : String}
    {fields : List (String × String)} {new : String → IUser}
    (hne : type ≠ "") (htype : type.toList.head? ≠ Strings.student.toList.head?)
    (hx : Unregistered σ (x.run σ)
      ∨ form.isValid ops = true ∧ Registers ops o form type fields new segue σ (x.run σ)) :
    (after x σ).store.SelfNamed TextOps.Alone Strings.student Strings.id := by
  rcases hx with hno | ⟨-, hreg⟩
  · rw [after_of_unregistered hno]
    exact h
  · obtain ⟨name, p, -, hp, hstore⟩ := after_of_registers hreg
    rw [hstore, strings, List.map_cons, h.mergeAll_iff]
    exact fun hstudent => absurd hstudent (ne_student hne htype hp)

/-- The code of a sign-up that gets as far as a name is the name of a document. -/
theorem path_of_givenCode (h : σ.store.SelfNamed TextOps.Alone Strings.student Strings.id)
    (hplain : σ.store.PlainNames) {code : String} {res : Student}
    (hcode : Student.ofGivenCode code σ.store = .ok res) :
    documentPath Strings.student code = some ⟨Strings.student, code⟩
      ∧ (σ.store.get? ⟨Strings.student, code⟩).isSome := by
  obtain ⟨-, m, d, hfound, -⟩ := Student.ofGivenCode_eq_ok_iff.mp hcode
  have hfield := (h m d hfound.get).1
  rw [hfound.field] at hfield
  injection hfield with hfield
  obtain rfl : code = m := by injection hfield
  have hthere : (σ.store.get? ⟨Strings.student, code⟩).isSome :=
    Option.isSome_of_eq_some hfound.get
  exact ⟨(hplain _ hthere).path _, hthere⟩

theorem parentCode_iff (h : σ.store.SelfNamed TextOps.Alone Strings.student Strings.id)
    (hplain : σ.store.PlainNames) (o : Outcome) (code : String) :
    (after (CreateAccountStudent.signUpParentCodePressed ops description o code) σ).store.SelfNamed
        TextOps.Alone Strings.student Strings.id ↔
      Safe ops dateFromString description σ (.signUp (.parentCode o code)) := by
  have hcases : Unregistered σ
      ((CreateAccountStudent.signUpParentCodePressed ops description o code).run σ) ∨ _ :=
    signUpParentCode_cases
  rcases hcases with hno | ⟨res, id, p, hcode, hname, hgen, hp, hrun⟩
  · rw [after_of_unregistered hno]
    refine iff_of_true h fun res id p hcode hname hgen hp => ?_
    rw [run_signUpParentCode hcode hname hgen, run_migrate hp,
      (path_of_givenCode h hplain hcode).1] at hno
    exact hno.elim
  · obtain ⟨hq, hthere⟩ := path_of_givenCode h hplain hcode
    rw [hq] at hrun
    have hafter : after (CreateAccountStudent.signUpParentCodePressed ops description o code) σ =
        σ.migrated description res id p ⟨Strings.student, code⟩ := by
      rw [after, hrun]
    rw [hafter]
    have hlookup : (strings (migratedFields description res)).reverse.lookup Strings.id = none :=
      rfl
    constructor
    · -- unless it was there, the new document lacks the id
      intro hsame res' id' p' hcode' hname' hgen' hp' hcollection
      obtain rfl : res = res' := Except.ok.inj (hcode.symm.trans hcode')
      obtain rfl : id = id' := Except.ok.inj (hgen.symm.trans hgen')
      obtain rfl : p = p' := Option.some.inj (hp.symm.trans hp')
      by_cases hpq : p = ⟨Strings.student, code⟩
      · rw [hpq]
        exact hthere
      · have hget : (σ.migrated description res id p ⟨Strings.student, code⟩).store.get? p = _ :=
          get?_migrated_self
        rw [if_neg hpq] at hget
        obtain ⟨c, n⟩ := p
        obtain rfl : c = Strings.student := hcollection
        have hfield := hsame n _ hget
        rw [Doc.getElem?_merge, hlookup, Option.none_or] at hfield
        exact (h.getD_field rfl).mp hfield
    · intro hsafe
      have hknown := hsafe res id p hcode hname hgen hp
      have hcopied : (σ.copied description res id p).store.SelfNamed TextOps.Alone
          Strings.student Strings.id := by
        refine (Store.SelfNamed.mergeAll_iff h).mpr fun hcollection => ?_
        exact (h.getD_field hcollection).mpr (hknown hcollection)
      exact hcopied.delete _

/-! ## Linking -/

theorem saveProperty_eq_some {collection name key : String} {v : Value} {w : Write}
    (hw : DatabaseHelper.savePropertyToDatabase collection name key v = some w) :
    ∃ q, documentPath collection name = some q ∧ w = .setMerge q key v := by
  obtain ⟨q, hq, rfl⟩ := Option.map_eq_some_iff.mp hw
  exact ⟨q, hq, rfl⟩

/-- The writes of a link, by the documents that they are to. -/
theorem onlyWrites_addStudent {P : Write → Prop} (c : Classroom) (x : String)
    (hclass : ∀ w n, documentPath Strings.class n = some w.path → P w)
    (hstudent : ∀ q v, documentPath Strings.student x = some q → P (.setMerge q Strings.classID v)) :
    OnlyWrites P (c.addStudent x) := by
  refine OnlyWrites.unwrap_bind fun ids _ => ?_
  refine OnlyWrites.bind (OnlyWrites.perform fun w hw => ?_) fun _ => ?_
  · obtain ⟨q, hq, rfl⟩ := saveProperty_eq_some hw
    exact hclass _ _ hq
  · refine OnlyWrites.bind (OnlyWrites.perform fun w hw => ?_) fun _ => ?_
    · obtain ⟨q, hq, rfl⟩ := saveProperty_eq_some hw
      exact hstudent q _ hq
    · refine OnlyWrites.unwrap_bind fun r hr => ?_
      obtain ⟨id, -, hpath⟩ := Option.bind_eq_some_iff.mp hr
      refine OnlyWrites.bind (OnlyWrites.perform fun w hw => ?_) fun _ => OnlyWrites.pure _
      obtain rfl := Option.some.inj hw
      exact hclass _ _ hpath

theorem onlyWrites_add {P : Write → Prop} (x : String) (res : Student)
    (hclass : ∀ w n, documentPath Strings.class n = some w.path → P w)
    (hstudent : ∀ q v, documentPath Strings.student x = some q → P (.setMerge q Strings.classID v))
    (hres : ∀ q v, (IUser.student res).ref = some q → P (.setMerge q Strings.classID v)) :
    OnlyWrites P (AddStudentPopupController.add x res) := by
  refine OnlyWrites.bind OnlyWrites.get fun σ => OnlyWrites.unwrap_bind fun newClass _ => ?_
  refine OnlyWrites.bind (OnlyWrites.perform fun w hw => ?_) fun _ => ?_
  · obtain ⟨q, hq, rfl⟩ := DatabaseHelper.saveUserPropertyToDoc_eq_some hw
    exact hres q _ hq
  · exact OnlyWrites.bind (onlyWrites_addStudent _ x hclass hstudent) fun _ =>
      OnlyWrites.setCurrentClassroom _

theorem onlyWrites_addChild {P : Write → Prop} (parent : Parent) (x : String) (res : Student)
    (hparent : ∀ w n, documentPath Strings.parent n = some w.path → P w)
    (hres : ∀ q v, (IUser.student res).ref = some q → P (.setMerge q Strings.parentID v)) :
    OnlyWrites P (Parent.add parent x res) := by
  refine OnlyWrites.unwrap_bind fun id _ => OnlyWrites.unwrap_bind fun r hr => ?_
  refine OnlyWrites.bind (OnlyWrites.perform fun w hw => ?_) fun _ =>
    OnlyWrites.perform fun w hw => ?_
  · obtain rfl := Option.some.inj hw
    exact hparent _ _ hr
  · obtain ⟨q, hq, rfl⟩ := DatabaseHelper.saveUserPropertyToDoc_eq_some hw
    exact hres q _ hq

/-- Elsewhere, or another field of the student's document. -/
def Touches (x : String) (w : Write) : Prop :=
  w.path.collection ≠ Strings.student
    ∨ ∃ k v, w = .setMerge ⟨Strings.student, x⟩ k v ∧ k ≠ Strings.id

/-- A student that is found by name has just this name, and it for an id. -/
theorem path_of_fetched (h : σ.store.SelfNamed TextOps.Alone Strings.student Strings.id)
    (hplain : σ.store.PlainNames) {x : String} {res : Student}
    (hget : DatabaseHelper.getStudentFromID σ.store x = .ok res) :
    (σ.store.get? ⟨Strings.student, x⟩).isSome
      ∧ documentPath Strings.student x = some ⟨Strings.student, x⟩
      ∧ (IUser.student res).ref = some ⟨Strings.student, x⟩ := by
  obtain ⟨m, d, hnamed, hres⟩ := DatabaseHelper.getStudentFromID_eq_ok.mp hget
  obtain ⟨hfield, halone⟩ := h m d hnamed.get
  obtain rfl : x = m := halone x hnamed.same
  have hthere : (σ.store.get? ⟨Strings.student, x⟩).isSome := Option.isSome_of_eq_some hnamed.get
  have hpath := (hplain _ hthere).path Strings.student
  have hid : (IUser.student res).id = some x :=
    UserHelper.Kind.id_of_ofDictionary (k := .student) (Option.map_eq_some_iff.mpr ⟨res, hres, rfl⟩)
      hfield
  refine ⟨hthere, hpath, ?_⟩
  rw [IUser.ref, hid]
  exact hpath

theorem submitPressed_kept (h : σ.store.SelfNamed TextOps.Alone Strings.student Strings.id)
    (hplain : σ.store.PlainNames) (studentIDText : Option String) :
    (after (AddStudentPopupController.submitPressed studentIDText) σ).store.SelfNamed
      TextOps.Alone Strings.student Strings.id := by
  unfold AddStudentPopupController.submitPressed
  rw [after_bind, run_performSegue]
  cases studentIDText with
  | none => exact h
  | some x =>
      simp only [after_detach, after_ask_bind]
      cases hget : DatabaseHelper.getStudentFromID σ.store x with
      | error e => exact h
      | ok res =>
          obtain ⟨hthere, hpath, href⟩ := path_of_fetched h hplain hget
          have hstudent : ∀ q v, some (⟨Strings.student, x⟩ : DocPath) = some q →
              Touches x (.setMerge q Strings.classID v) := by
            rintro q v ⟨⟩
            exact Or.inr ⟨_, v, rfl, by decide⟩
          obtain ⟨ws, hws, hstore⟩ := onlyWrites_add (P := Touches x) x res
            (fun w n hn => Or.inl (ne_student (by decide) (by decide) hn))
            (fun q v hq => hstudent q v (hpath.symm.trans hq))
            (fun q v hq => hstudent q v (href.symm.trans hq))
            { σ with screens := σ.screens ++ ["TSLNav"] }
          rw [hstore]
          exact h.applyAll hthere hws

theorem addChild_kept (h : σ.store.SelfNamed TextOps.Alone Strings.student Strings.id)
    (hplain : σ.store.PlainNames) (parent : Parent) (x : String) :
    (after (do let _ ← parent.addStudent x) σ).store.SelfNamed TextOps.Alone Strings.student
      Strings.id := by
  have hstore : (after (do let _ ← parent.addStudent x) σ).store =
      (after (do
        let res ← ask fun s => DatabaseHelper.getStudentFromID s x
        Parent.add parent x res) σ).store := by
    rw [Parent.addStudent, after_bind_pure, after_bind_pure, after_detach]
  rw [hstore, after_ask_bind]
  cases hget : DatabaseHelper.getStudentFromID σ.store x with
  | error e => exact h
  | ok res =>
      obtain ⟨hthere, hpath, href⟩ := path_of_fetched h hplain hget
      obtain ⟨ws, hws, hstore⟩ := onlyWrites_addChild (P := Touches x) parent x res
        (fun w n hn => Or.inl (ne_student (by decide) (by decide) hn))
        (fun q v hq => by
          obtain rfl := Option.some.inj (href.symm.trans hq)
          exact Or.inr ⟨_, v, rfl, by decide⟩) σ
      rw [hstore]
      exact h.applyAll hthere hws

/-! ## Calls -/

/-- A write that is made from a name, below another collection. -/
def Elsewhere (w : Write) : Prop :=
  ∃ c name, documentPath c name = some w.path ∧ c ≠ ""
    ∧ c.toList.head? ≠ Strings.student.toList.head?

theorem Elsewhere.ne {w : Write} (h : Elsewhere w) : w.path.collection ≠ Strings.student := by
  obtain ⟨c, name, hp, hne, hc⟩ := h
  exact ne_student hne hc hp

theorem Elsewhere.addressed {w : Write} (h : Elsewhere w) : w.Addressed := by
  obtain ⟨c, name, hp, -⟩ := h
  exact ⟨c, name, hp⟩

theorem elsewhere_class {w : Write} {n : String} (h : documentPath Strings.class n = some w.path) :
    Elsewhere w := ⟨_, n, h, by decide, by decide⟩

theorem elsewhere_made {m : ReadPaths.Model} {w : Write} (h : ReadPaths.Made m w)
    (hm : m ≠ .student) : Elsewhere w := by
  obtain ⟨name, hp⟩ := h.path
  refine ⟨m.collection, name, hp, ?_, ?_⟩
  · cases m <;> decide
  · cases m <;> first | exact absurd rfl hm | decide

/-- A user's setter writes one text to the user's document, and never the id. -/
theorem setter_user {u : IUser} {c : Setter} {w : Write}
    (hw : c.write dateFromString description (.user u) = some w) :
    ∃ q key v, u.ref = some q ∧ w = .setMerge q key v ∧ key ≠ Strings.id := by
  obtain ⟨key, text, -, hkey, hsave⟩ := ReadPaths.setter_user hw
  obtain ⟨q, hq, rfl⟩ := DatabaseHelper.saveUserPropertyToDoc_eq_some hsave
  exact ⟨q, key, _, hq, rfl, hkey⟩

/-- A user of another class has no document among the students'. -/
theorem elsewhere_user {u : IUser} {q : DocPath} {key : String} {v : Value}
    (hu : ∀ s, u ≠ .student s) (hq : u.ref = some q) : Elsewhere (.setMerge q key v) := by
  cases u with
  | student s => exact absurd rfl (hu s)
  | base u => exact ⟨"BaseUser", _, hq, by decide, by decide⟩
  | teacher u => exact ⟨"Teacher", _, hq, by decide, by decide⟩
  | parent u => exact ⟨"Parent", _, hq, by decide, by decide⟩

/-- The calls on assignments and classrooms, less `AddStudent`. -/
theorem onlyWrites_elsewhere {c : ReadPaths.Call} (hc : c.model ≠ none) :
    OnlyWrites Elsewhere (c.run dateFromString description) := by
  obtain ⟨m, hm⟩ := Option.ne_none_iff_exists'.mp hc
  refine OnlyWrites.mono (fun w hw => elsewhere_made hw ?_) (ReadPaths.made_run hm)
  rintro rfl
  cases c with
  | setter o c => cases o <;> cases hm
  | _ => cases hm

/-- A setter of a student, or of another user. -/
theorem setter_iff (h : σ.store.SelfNamed TextOps.Alone Strings.student Strings.id) (u : IUser)
    (c : Setter) :
    (after (ReadPaths.Call.run dateFromString description (.setter (.user u) c)) σ).store.SelfNamed
        TextOps.Alone Strings.student Strings.id ↔
      Safe ops dateFromString description σ (.call (.setter (.user u) c)) := by
  rw [ReadPaths.Call.run, after_perform]
  cases hw : c.write dateFromString description (.user u) with
  | none =>
      refine iff_of_true h ?_
      cases u with
      | student s => exact fun hsome => by simp [hw] at hsome
      | _ => trivial
  | some w =>
      obtain ⟨q, key, v, hq, rfl, hkey⟩ := setter_user hw
      have helse : (∀ s, u ≠ .student s) →
          (σ.store.apply (.setMerge q key v)).SelfNamed TextOps.Alone Strings.student
            Strings.id := fun hu =>
        have helsewhere : Elsewhere (.setMerge q key v) := elsewhere_user hu hq
        (Store.selfNamed_apply_of_ne helsewhere.ne).mpr h
      cases u with
      | student s =>
          simp only [h.setMerge_iff, if_neg hkey, Safe, hw, hq]
          simp [Known]
      | base u => exact iff_of_true (helse fun s => by simp) trivial
      | teacher u => exact iff_of_true (helse fun s => by simp) trivial
      | parent u => exact iff_of_true (helse fun s => by simp) trivial

theorem setUserID_iff (h : σ.store.SelfNamed TextOps.Alone Strings.student Strings.id) (u : IUser)
    (newID : String) :
    (after (ReadPaths.Call.run dateFromString description (.setUserID u newID)) σ).store.SelfNamed
        TextOps.Alone Strings.student Strings.id ↔
      Safe ops dateFromString description σ (.call (.setUserID u newID)) := by
  rw [ReadPaths.Call.run, after_perform]
  have helse : (∀ s, u.withID newID ≠ .student s) → ∀ q, (u.withID newID).ref = some q →
      (σ.store.apply (.setMerge q Strings.id (.string newID))).SelfNamed TextOps.Alone
        Strings.student Strings.id := fun hu q hq =>
    (Store.selfNamed_apply_of_ne (elsewhere_user hu hq).ne).mpr h
  rw [IUser.setID, DatabaseHelper.saveUserPropertyToDoc]
  cases hq : (u.withID newID).ref with
  | none =>
      refine iff_of_true h ?_
      cases u with
      | student s =>
          intro p hp
          exact absurd (hq.symm.trans hp) (by simp)
      | _ => trivial
  | some q =>
      cases u with
      | student s =>
          have hpath : documentPath Strings.student newID = some q := hq
          have hname : newID = q.document ∧ TextOps.Alone q.document ↔
              q.document = newID ∧ TextOps.Alone newID := by
            constructor
            · intro h
              exact ⟨h.1.symm, h.1 ▸ h.2⟩
            · intro h
              exact ⟨h.1.symm, h.1 ▸ h.2⟩
          simp only [Option.map_some, h.setMerge_iff, if_true, Safe, hpath, Option.some.injEq,
            forall_eq', Value.string.injEq, hname]
      | base u => exact iff_of_true (helse (fun s => by simp [IUser.withID]) q hq) trivial
      | teacher u => exact iff_of_true (helse (fun s => by simp [IUser.withID]) q hq) trivial
      | parent u => exact iff_of_true (helse (fun s => by simp [IUser.withID]) q hq) trivial

theorem addStudent_iff (h : σ.store.SelfNamed TextOps.Alone Strings.student Strings.id)
    (c : Classroom) (x : String) :
    (after (ReadPaths.Call.run dateFromString description (.addStudent c x)) σ).store.SelfNamed
        TextOps.Alone Strings.student Strings.id ↔
      Safe ops dateFromString description σ (.call (.addStudent c x)) := by
  have hstore := Classrooms.Call.after_run (.addStudent x) c σ
  rw [ReadPaths.Call.run, after_bind_pure]
  rw [Classrooms.Call.run, Classrooms.Call.writes] at hstore
  rw [hstore]
  cases hids : c.studentIDs with
  | none => exact iff_of_true h fun hsome => absurd hids hsome
  | some ids =>
      have hclass : ∀ (s : Store) (w : Write) (n : String),
          documentPath Strings.class n = some w.path →
          ((s.apply w).SelfNamed TextOps.Alone Strings.student Strings.id ↔
            s.SelfNamed TextOps.Alone Strings.student Strings.id) := fun s w n hn =>
        Store.selfNamed_apply_of_ne (elsewhere_class hn).ne
      have hcopy := hclass σ.store (.setMerge ⟨Strings.class, Strings.studentIDs⟩ Strings.students
        (.array ((ids ++ [x]).map .string))) Strings.studentIDs
        (documentPath_of_no_slash (by decide) (by decide))
      generalize hs₁ : σ.store.apply (.setMerge ⟨Strings.class, Strings.studentIDs⟩
        Strings.students (.array ((ids ++ [x]).map .string))) = s₁ at hcopy
      rw [DatabaseHelper.savePropertyToDatabase]
      cases hq : documentPath Strings.student x with
      | none =>
          simp only [setStudents_eq, Option.map_none, Classrooms.issued, Store.applyAll_cons,
            Store.applyAll_nil, hs₁]
          exact iff_of_true (hcopy.mpr h) fun _ p hp => absurd (hq.symm.trans hp) (by simp)
      | some q =>
          have hthere : q.collection = Strings.student → s₁.get? q = σ.store.get? q := by
            intro hcollection
            rw [← hs₁]
            refine Store.get?_apply_of_ne _ fun hpath => ?_
            rw [hpath] at hcollection
            have hne : Strings.class ≠ Strings.student := by decide
            exact hne hcollection
          have hsaved : (s₁.apply (.setMerge q Strings.classID
              (c.id.elim .null .string))).SelfNamed TextOps.Alone Strings.student Strings.id ↔
                Known σ.store q := by
            rw [(hcopy.mpr h).setMerge_iff, if_neg (by decide)]
            exact forall_congr' fun hcollection => by rw [hthere hcollection]
          have hsafe : Safe ops dateFromString description σ (.call (.addStudent c x)) ↔
              Known σ.store q := by
            simp [Safe, hids, hq]
          rw [hsafe, ← hsaved]
          cases hr : c.ref with
          | none =>
              simp only [setStudents_eq, Option.map_some, Option.map_none, Classrooms.issued,
                Store.applyAll_cons, Store.applyAll_nil, hs₁]
          | some r =>
              obtain ⟨id, -, hp⟩ := Option.bind_eq_some_iff.mp hr
              simp only [setStudents_eq, Option.map_some, Classrooms.issued, Store.applyAll_cons,
                Store.applyAll_nil, hs₁]
              exact hclass _ (.unionMerge r Strings.studentIDs (.string x)) id hp

/-! ## Runs -/

theorem elsewhere_kept (h : σ.store.SelfNamed TextOps.Alone Strings.student Strings.id) {α : Type}
    {x : App α} (hx : OnlyWrites Elsewhere x) :
    (after x σ).store.SelfNamed TextOps.Alone Strings.student Strings.id := by
  obtain ⟨ws, hws, hstore⟩ := hx σ
  rw [hstore, Store.selfNamed_congr fun n => Store.get?_applyAll_of_ne fun w hw => ?_]
  · exact h
  · intro hpath
    exact (hws w hw).ne (by rw [← hpath])

theorem run_selfNamed_iff (h : σ.store.SelfNamed TextOps.Alone Strings.student Strings.id)
    (hplain : σ.store.PlainNames) (e : Event) :
    (e.run ops dateFromString description σ).store.SelfNamed TextOps.Alone Strings.student
        Strings.id ↔
      Safe ops dateFromString description σ e := by
  cases e with
  | signUp e =>
      cases e with
      | student o form => exact student_iff h o form
      | teacher o form =>
          exact iff_of_true (adult_kept h (by decide) (by decide)
            CreateAccountTeacher.signUpPressed_cases) trivial
      | parent o form =>
          exact iff_of_true (adult_kept h (by decide) (by decide)
            CreateAccountParent.signUpPressed_cases) trivial
      | parentCode o code => exact parentCode_iff h hplain o code
  | submitPressed c text =>
      exact iff_of_true (submitPressed_kept (σ := { σ with currentClassroom := c }) h hplain text)
        trivial
  | call c =>
      cases c with
      | addStudentToParent u n => exact iff_of_true (addChild_kept h hplain u n) trivial
      | addStudent k n => exact addStudent_iff h k n
      | setUserID u n => exact setUserID_iff h u n
      | setter o k =>
          cases o with
          | user u => exact setter_iff h u k
          | assignment a =>
              exact iff_of_true (elsewhere_kept h (onlyWrites_elsewhere (by
                simp [ReadPaths.Call.model]))) trivial
      | _ =>
          exact iff_of_true (elsewhere_kept h (onlyWrites_elsewhere (by
            simp [ReadPaths.Call.model]))) trivial

/-- Every write is to a document that is addressed by a name. -/
theorem onlyWrites_addressed (c : ReadPaths.Call) :
    OnlyWrites Write.Addressed (c.run dateFromString description) := by
  have helsewhere : c.model ≠ none → OnlyWrites Write.Addressed (c.run dateFromString description) :=
    fun hc => OnlyWrites.mono (fun w => Elsewhere.addressed) (onlyWrites_elsewhere hc)
  cases c with
  | addStudentToParent u n =>
      refine OnlyWrites.bind (OnlyWrites.bind (OnlyWrites.detach ?_) fun _ => OnlyWrites.pure _)
        fun _ => OnlyWrites.pure _
      exact OnlyWrites.bind (OnlyWrites.ask _) fun res =>
        onlyWrites_addChild u n res (fun _ n hn => ⟨_, n, hn⟩) fun _ _ hq => ⟨_, _, hq⟩
  | addStudent k n =>
      exact OnlyWrites.bind (onlyWrites_addStudent k n (fun _ n hn => ⟨_, n, hn⟩)
        fun _ _ hq => ⟨_, _, hq⟩) fun _ => OnlyWrites.pure _
  | setUserID u n =>
      refine OnlyWrites.perform fun w hw => ?_
      obtain ⟨q, hq, rfl⟩ := DatabaseHelper.saveUserPropertyToDoc_eq_some hw
      exact ⟨_, _, hq⟩
  | setter o k =>
      cases o with
      | user u =>
          refine OnlyWrites.perform fun w hw => ?_
          obtain ⟨q, key, v, hq, rfl, -⟩ := setter_user hw
          exact ⟨_, _, hq⟩
      | assignment a => exact helsewhere (by simp [ReadPaths.Call.model])
  | _ => exact helsewhere (by simp [ReadPaths.Call.model])

theorem mergeAll_plainNames {s : Store} (hplain : s.PlainNames) {c n : String} {p : DocPath}
    (hp : documentPath c n = some p) (fs : Dict) : (s.applyAll (mergeAll p fs)).PlainNames :=
  hplain.applyAll fun w hw => ⟨c, n, by rw [path_of_mem_mergeAll hw, hp]⟩

theorem form_plainNames (hplain : σ.store.PlainNames) {x : App Bool} {o : Outcome} {form : Form}
    {type segue : String} {fields : List (String × String)} {new : String → IUser}
    (hx : Unregistered σ (x.run σ) ∨ Registers ops o form type fields new segue σ (x.run σ)) :
    (after x σ).store.PlainNames := by
  rcases hx with hno | hreg
  · rw [after_of_unregistered hno]
    exact hplain
  · obtain ⟨name, p, -, hp, hstore⟩ := after_of_registers hreg
    rw [hstore]
    exact mergeAll_plainNames hplain hp _

theorem run_plainNames (hplain : σ.store.PlainNames) (e : Event) :
    (e.run ops dateFromString description σ).store.PlainNames := by
  have hwrites : ∀ {α : Type} {x : App α} {σ : World}, σ.store.PlainNames →
      OnlyWrites Write.Addressed x → (after x σ).store.PlainNames := by
    intro α x σ hplain hx
    obtain ⟨ws, hws, hstore⟩ := hx σ
    rw [hstore]
    exact hplain.applyAll hws
  cases e with
  | signUp e =>
      cases e with
      | student o form => exact form_plainNames hplain CreateAccountStudent.signUpPressed_cases
      | teacher o form =>
          exact form_plainNames hplain (CreateAccountTeacher.signUpPressed_cases.imp_right And.right)
      | parent o form =>
          exact form_plainNames hplain (CreateAccountParent.signUpPressed_cases.imp_right And.right)
      | parentCode o code =>
          rw [Event.run, Registration.handler]
          have hcases : Unregistered σ
              ((CreateAccountStudent.signUpParentCodePressed ops description o code).run σ) ∨ _ :=
            signUpParentCode_cases
          rcases hcases with hno | ⟨res, id, p, -, -, -, hp, hrun⟩
          · rw [after_of_unregistered hno]
            exact hplain
          · have hcopied : (σ.copied description res id p).store.PlainNames :=
              mergeAll_plainNames hplain hp _
            rw [after, hrun]
            cases hq : documentPath Strings.student code with
            | none => exact hcopied
            | some q =>
                have hdelete : ∀ w ∈ [Write.delete q], w.Addressed := by
                  intro w hw
                  obtain rfl := List.mem_singleton.mp hw
                  exact ⟨_, _, hq⟩
                exact hcopied.applyAll hdelete
  | submitPressed c text =>
      refine hwrites (σ := { σ with currentClassroom := c }) hplain ?_
      refine OnlyWrites.bind (OnlyWrites.performSegue _) fun _ => ?_
      cases text with
      | none => exact OnlyWrites.pure _
      | some x =>
          exact OnlyWrites.detach (OnlyWrites.bind (OnlyWrites.ask _) fun res =>
            onlyWrites_add x res (fun _ n hn => ⟨_, n, hn⟩) (fun _ _ hq => ⟨_, _, hq⟩)
              fun _ _ hq => ⟨_, _, hq⟩)
  | call c => exact hwrites hplain (onlyWrites_addressed c)

/-- As long as every event is safe, the lookups agree and every student's
document has the id that names it; and the next event keeps it so exactly if
it is safe too. -/
theorem agree_of_safe
    (h : (system ops dateFromString description).Run (Safe ops dateFromString description) σ) :
    Agree ops σ.store
      ∧ (∀ id, DatabaseHelper.getStudentFromID σ.store id = UserHelper.getStudentByID σ.store id)
      ∧ (∀ n d, σ.store.get? ⟨Strings.student, n⟩ = some d → d[Strings.id]? = some (.string n))
      ∧ ∀ e, Agree ops (e.run ops dateFromString description σ).store ↔
        Safe ops dateFromString description σ e := by
  obtain ⟨hself, hplain⟩ := h.invariant
    (I := fun σ => σ.store.SelfNamed TextOps.Alone Strings.student Strings.id
      ∧ σ.store.PlainNames) (by
      intro σ hσ
      rw [show σ.store = fun _ => ∅ from hσ]
      exact ⟨Store.SelfNamed.empty _ _ _, Store.PlainNames.empty⟩) (by
      rintro σ e σ' ⟨hself, hplain⟩ hsafe hs
      obtain rfl := Option.some.inj hs
      exact ⟨(run_selfNamed_iff hself hplain e).mpr hsafe, run_plainNames hplain e⟩)
  have hagree := agree_iff_selfNamed.mpr hself
  refine ⟨hagree, hagree.answers, fun n d hd => (hself n d hd).1, fun e => ?_⟩
  rw [agree_iff_selfNamed]
  exact run_selfNamed_iff hself hplain e

end

/-! ## Ann, and someone who types her id as a code -/

section Example

attribute [local instance] TextOps.ascii

open Registration

abbrev asciiSystem : System World Event := system TextOps.ascii (fun _ => none) fun _ => "0.0"

abbrev annEvent : Event := .signUp (.student accepting annForm)

theorem init_emptyWorld : asciiSystem.Init emptyWorld := rfl

theorem step_annEvent : asciiSystem.step emptyWorld annEvent = some annWorld := by
  have hafter : after (CreateAccountStudent.signUpPressed TextOps.ascii accepting annForm)
      emptyWorld = annWorld := by
    rw [after, run_ann]
  exact congrArg some hafter

theorem safe_annEvent :
    Safe TextOps.ascii (fun _ => none) (fun _ => "0.0") emptyWorld annEvent := by
  intro name p hgen _ _ hp _
  have hname : UserHelper.generateUserName TextOps.ascii accepting annForm.firstName
      annForm.lastName Strings.student emptyWorld.store = .ok "s_leeann" := rfl
  obtain rfl : "s_leeann" = name := Except.ok.inj (hname.symm.trans hgen)
  have hpath : documentPath Strings.student "s_leeann" = some annPath := by decide
  obtain rfl : annPath = p := Option.some.inj (hpath.symm.trans hp)
  exact ⟨rfl, TextOps.alone_ascii _⟩

/-- Once Ann has signed up, both lookups find her. -/
theorem agree_of_safe_ann :
    Agree TextOps.ascii annWorld.store
      ∧ (∀ id, DatabaseHelper.getStudentFromID annWorld.store id =
          UserHelper.getStudentByID annWorld.store id)
      ∧ (∀ n d, annWorld.store.get? ⟨Strings.student, n⟩ = some d →
          d[Strings.id]? = some (.string n))
      ∧ ∀ e, Agree TextOps.ascii
          (e.run TextOps.ascii (fun _ => none) (fun _ => "0.0") annWorld).store ↔
        Safe TextOps.ascii (fun _ => none) (fun _ => "0.0") annWorld e := by
  have h₀ : asciiSystem.Run (Safe TextOps.ascii (fun _ => none) fun _ => "0.0") emptyWorld :=
    .init init_emptyWorld
  exact agree_of_safe (h₀.step safe_annEvent step_annEvent)

/-- The copy of her document has no id. -/
theorem not_agree_of_ann_and_code :
    ∃ σ, asciiSystem.Reachable σ ∧ ¬ Agree TextOps.ascii σ.store := by
  have h₀ : asciiSystem.Reachable emptyWorld := .init init_emptyWorld
  refine ⟨_, (h₀.step trivial step_annEvent).step
    (a := .signUp (.parentCode accepting "s_leeann")) trivial rfl, ?_⟩
  have hempty : emptyWorld.store.SelfNamed TextOps.Alone Strings.student Strings.id :=
    Store.SelfNamed.empty _ _ _
  have hplain : emptyWorld.store.PlainNames := Store.PlainNames.empty
  have hann : annWorld.store.SelfNamed TextOps.Alone Strings.student Strings.id := by
    have hkept : (annEvent.run TextOps.ascii (fun _ => none) (fun _ => "0.0")
        emptyWorld).store.SelfNamed TextOps.Alone Strings.student Strings.id :=
      (run_selfNamed_iff hempty hplain annEvent).mpr safe_annEvent
    rwa [Option.some.inj step_annEvent] at hkept
  have hannPlain : annWorld.store.PlainNames := by
    have hkept : (annEvent.run TextOps.ascii (fun _ => none) (fun _ => "0.0")
        emptyWorld).store.PlainNames := run_plainNames hplain annEvent
    rwa [Option.some.inj step_annEvent] at hkept
  rw [agree_iff_selfNamed, run_selfNamed_iff hann hannPlain]
  intro hsafe
  have hcode : Student.ofGivenCode "s_leeann" annWorld.store = .ok annStudent := rfl
  have hexists : (annWorld.store.get? annPath).isSome = true := by decide
  have hplainName : UserHelper.plainUserName TextOps.ascii (annStudent.firstName.getD "")
      (annStudent.lastName.getD "") "Student" = .ok "s_leeann" := rfl
  have hgen : UserHelper.generateUserName TextOps.ascii accepting (annStudent.firstName.getD "")
      (annStudent.lastName.getD "") "Student" annWorld.store = .ok "s_leeann0" := by
    rw [generateUserName_eq hplainName (by decide : _ = some annPath) rfl, if_pos hexists]
    rfl
  have hknown := hsafe annStudent "s_leeann0" ⟨Strings.student, "s_s_leeann0"⟩ hcode (by decide)
    hgen (by decide) rfl
  exact absurd hknown (by decide)

end Example

end GradeIo.Lookups
