import GradeIo.Lib.Growth
import GradeIo.Lookups

/-!
# What stays

The events of `Lookups`: sign-ups of all kinds, the popup of a teacher, and the
setters and add operations, in any order, from any store.

`Writes` says what an event can write. Three results follow for whole
runs: a document stays with all its fields unless it is the student document
that a typed code names, and then a copy of it was stored (`stays_or_copied`);
and the lists that link classes, assignments and students only grow at their
end, without repeats (`memberships_grow`).
-/

namespace GradeIo.Persistence

open DocDb Transition App Lookups

/-! ## The writes of an event -/

/-- The lists of ids that link the classes of objects. -/
inductive MembershipList where
  | studentIDs
  | assignmentIDs
  | children
deriving DecidableEq

namespace MembershipList

def collection : MembershipList → String
  | studentIDs => Strings.class
  | assignmentIDs => Strings.class
  | children => Strings.parent

def key : MembershipList → String
  | studentIDs => Strings.studentIDs
  | assignmentIDs => Strings.assignmentIDs
  | children => Strings.students

end MembershipList

/-- Below the collection of the list: it, or one nested in it. -/
def Below (c : String) (p : DocPath) : Prop := p.collection.toList.head? = c.toList.head?

theorem below_of_documentPath {c name : String} {p : DocPath} (hne : c ≠ "")
    (h : documentPath c name = some p) : Below c p :=
  head?_collection_of_documentPath hne h

/-- Neither null, nor a list in the place of a teacher's id. -/
def Tidy (k : String) (v : Value) : Prop :=
  v ≠ .null ∧ (k = Strings.teacherID → ∀ vs, v ≠ .array vs)

/-- Not one of the two calls that write what the listeners cannot read: the
meeting info, which goes to the teacher's id, and a student added to a class
without an id. -/
def Tame : Event → Prop
  | .call (.setMeetingInfo _) => False
  | .call (.addStudent c _) => c.id ≠ none
  | _ => True

/-- No membership list is set, only the document that a code names is deleted,
and what is set is tidy unless the event is one of the two. -/
def Writes (e : Event) : Write → Prop
  | .setMerge p k v => (∀ l : MembershipList, Below l.collection p → k ≠ l.key)
      ∧ (Tame e → Tidy k v)
  | .unionMerge _ k _ => k ≠ Strings.teacherID
  | .unionUpdate _ k _ => k ≠ Strings.teacherID
  | .delete p => ∃ o code, e = .signUp (.parentCode o code)
      ∧ documentPath Strings.student code = some p

section

variable {ops : TextOps} {dateFromString : String → Option Rat} {description : Rat → String}
  {e : Event} {p : DocPath} {k c name : String} {v : Value} {w : Write}

theorem tidy_string (k text : String) : Tidy k (.string text) :=
  ⟨Value.noConfusion, fun _ _ => Value.noConfusion⟩

theorem tidy_array (h : k ≠ Strings.teacherID) (vs : List Value) : Tidy k (.array vs) :=
  ⟨Value.noConfusion, fun hk => absurd hk h⟩

/-- Below a collection that has no membership list. -/
theorem writes_below (hne : c ≠ "") (hp : documentPath c name = some p)
    (hc : ∀ l : MembershipList, c.toList.head? = l.collection.toList.head? → k ≠ l.key)
    (hv : Tame e → Tidy k v) : Writes e (.setMerge p k v) :=
  ⟨fun l hl => hc l ((below_of_documentPath hne hp).symm.trans hl), hv⟩

/-- A property of a user, none of which is a membership list. -/
theorem writes_user {u : IUser} {text : String}
    (hk : ∀ m ∈ ReadPaths.Model.ofUser u, k ∈ m.texts)
    (hw : DatabaseHelper.saveUserPropertyToDoc u k text = some w) : Writes e w := by
  obtain ⟨q, hq, rfl⟩ := DatabaseHelper.saveUserPropertyToDoc_eq_some hw
  have htext : ∀ {m : ReadPaths.Model}, k ∈ m.texts → ∀ l : MembershipList,
      m.collection.toList.head? = l.collection.toList.head? → k ≠ l.key := by
    rintro m hm l hl rfl
    cases m <;> cases l <;> first | exact absurd hl (by decide) | exact absurd hm (by decide)
  cases u with
  | base u =>
      have hq : documentPath "BaseUser" (u.id.getD "") = some q := hq
      exact writes_below (by decide) hq (fun l hl => by cases l <;> exact absurd hl (by decide))
        fun _ => tidy_string k text
  | student u =>
      exact writes_below (c := Strings.student) (by decide) hq
        (htext (m := .student) (hk .student rfl)) fun _ => tidy_string k text
  | teacher u =>
      exact writes_below (c := Strings.teacher) (by decide) hq
        (htext (m := .teacher) (hk .teacher rfl)) fun _ => tidy_string k text
  | parent u =>
      exact writes_below (c := Strings.parent) (by decide) hq
        (htext (m := .parent) (hk .parent rfl)) fun _ => tidy_string k text

theorem writes_saveProperty (hne : c ≠ "")
    (hc : ∀ l : MembershipList, c.toList.head? = l.collection.toList.head? → k ≠ l.key)
    (hv : Tame e → Tidy k v)
    (hw : DatabaseHelper.savePropertyToDatabase c name k v = some w) : Writes e w := by
  obtain ⟨q, hq, rfl⟩ := saveProperty_eq_some hw
  exact writes_below hne hq hc hv

theorem writes_save {a : Assignment} (hv : Tidy k v) (hw : a.save k v = some w) :
    Writes e w := by
  obtain ⟨q, hq, rfl⟩ := Assignment.save_eq_some hw
  obtain ⟨id, -, hp⟩ := Option.bind_eq_some_iff.mp hq
  exact writes_below (c := Strings.assignment) (by decide) hp
    (fun l hl => by cases l <;> exact absurd hl (by decide)) fun _ => hv

theorem writes_student {q : DocPath} (hq : documentPath Strings.student name = some q)
    (hv : Tame e → Tidy k v) : Writes e (.setMerge q k v) :=
  writes_below (by decide) hq (fun l hl => by cases l <;> exact absurd hl (by decide)) hv

/-- What an assignment's setters save. -/
theorem tidy_of_allows (h : ReadPaths.Model.assignment.Allows k v) : Tidy k v := by
  cases v with
  | string text => exact tidy_string k text
  | null => exact absurd h.1 (by decide)
  | timestamp t => exact ⟨Value.noConfusion, fun _ _ => Value.noConfusion⟩
  | array vs =>
      refine tidy_array ?_ vs
      rintro rfl
      rcases h with ⟨hk, -⟩ | ⟨-, hk, -⟩ | ⟨-, hk, -⟩ <;> exact absurd hk (by decide)
  | _ => exact h.elim

theorem writes_union (h : k ≠ Strings.teacherID) : Writes e (.unionMerge p k v) := h

/-! ### Calls -/

theorem writes_addStudent (x : String) {cl : Classroom} (hid : Tame e → cl.id ≠ none) :
    OnlyWrites (Writes e) (cl.addStudent x) := by
  refine OnlyWrites.unwrap_bind fun ids _ => ?_
  refine OnlyWrites.bind (OnlyWrites.perform fun w hw => ?_) fun _ => ?_
  · exact writes_saveProperty (by decide) (fun l hl => by
      cases l <;> first | decide | exact absurd hl (by decide))
      (fun _ => tidy_array (by decide) _) hw
  · refine OnlyWrites.bind (OnlyWrites.perform fun w hw => ?_) fun _ => ?_
    · obtain ⟨q, hq, rfl⟩ := saveProperty_eq_some hw
      refine writes_student hq fun htame => ?_
      obtain ⟨id, hid⟩ := Option.ne_none_iff_exists'.mp (hid htame)
      rw [hid]
      exact tidy_string _ id
    · refine OnlyWrites.unwrap_bind fun r _ => ?_
      refine OnlyWrites.bind (OnlyWrites.perform fun w hw => ?_) fun _ => OnlyWrites.pure _
      obtain rfl := Option.some.inj hw
      exact writes_union (by decide)

theorem writes_studentRef {s : Student} {key text : String} {w : Write}
    (hw : DatabaseHelper.saveUserPropertyToDoc (.student s) key text = some w) :
    Writes e w := by
  obtain ⟨q, hq, rfl⟩ := DatabaseHelper.saveUserPropertyToDoc_eq_some hw
  exact writes_student hq fun _ => tidy_string key text

theorem writes_add (x : String) (res : Student) :
    OnlyWrites (Writes e) (AddStudentPopupController.add x res) := by
  refine OnlyWrites.bind OnlyWrites.get fun σ => OnlyWrites.unwrap_bind fun newClass hclass => ?_
  refine OnlyWrites.bind (OnlyWrites.perform fun w hw => writes_studentRef hw) fun _ => ?_
  have hid : Tame e → σ.currentClassroom.id ≠ none := fun _ hnone => by
    rw [hnone] at hclass
    cases hclass
  exact OnlyWrites.bind (writes_addStudent x hid) fun _ => OnlyWrites.setCurrentClassroom _

theorem writes_addChild (parent : Parent) (x : String) (res : Student) :
    OnlyWrites (Writes e) (Parent.add parent x res) := by
  refine OnlyWrites.unwrap_bind fun id _ => OnlyWrites.unwrap_bind fun r _ => ?_
  refine OnlyWrites.bind (OnlyWrites.perform fun w hw => ?_) fun _ =>
    OnlyWrites.perform fun w hw => writes_studentRef hw
  obtain rfl := Option.some.inj hw
  exact writes_union (by decide)

theorem writes_call (call : ReadPaths.Call) :
    OnlyWrites (Writes (.call call)) (call.run dateFromString description) := by
  cases call with
  | setter o c =>
      refine OnlyWrites.perform fun w hw => ?_
      cases o with
      | assignment a =>
          obtain ⟨k, v, hallows, hsave⟩ := ReadPaths.setter_assignment hw
          exact writes_save (tidy_of_allows hallows) hsave
      | user u =>
          obtain ⟨k, text, hk, -, hsave⟩ := ReadPaths.setter_user hw
          exact writes_user hk hsave
  | setUserID u newID =>
      exact OnlyWrites.perform fun w hw =>
        writes_user (ReadPaths.Model.mem_texts_of_mem_userTexts (by decide)) hw
  | setAssignmentID newID =>
      exact OnlyWrites.perform fun w hw => writes_saveProperty (c := Strings.assignment) (by decide)
        (fun l hl => by cases l <;> exact absurd hl (by decide)) (fun _ => tidy_string _ _) hw
  | clearResults a =>
      exact OnlyWrites.perform fun w hw => writes_save (tidy_array (by decide) _) hw
  | setProblems a ps =>
      refine OnlyWrites.perform fun w hw => ?_
      have hw : a.setProblems ps = some w := hw
      rw [Assignment.setProblems] at hw
      split at hw
      · exact writes_save (tidy_array (by decide) _) hw
      · cases hw
  | addProblem a question answer =>
      refine OnlyWrites.perform fun w hw => ?_
      obtain ⟨id, -, hw⟩ := Option.bind_eq_some_iff.mp hw
      obtain ⟨q, -, rfl⟩ := Option.map_eq_some_iff.mp hw
      exact writes_union (by decide)
  | addResult a newResult =>
      refine OnlyWrites.perform fun w hw => ?_
      obtain ⟨id, -, hw⟩ := Option.bind_eq_some_iff.mp hw
      obtain ⟨q, -, rfl⟩ := Option.map_eq_some_iff.mp hw
      have hne : Strings.results ≠ Strings.teacherID := by decide
      exact hne
  | addStudentToParent parent newStudent =>
      refine OnlyWrites.bind (OnlyWrites.bind (OnlyWrites.detach ?_) fun _ => OnlyWrites.pure _)
        fun _ => OnlyWrites.pure _
      exact OnlyWrites.bind (OnlyWrites.ask _) fun res => writes_addChild parent newStudent res
  | addAssignment cl newAssignment =>
      refine OnlyWrites.perform fun w hw => ?_
      obtain ⟨⟨c', w'⟩, hadd, rfl⟩ := Option.map_eq_some_iff.mp hw
      obtain ⟨id, r, -, rfl⟩ := Classroom.addAssignment_eq_some hadd
      exact writes_union (by decide)
  | addStudent cl newStudent =>
      exact OnlyWrites.bind (writes_addStudent newStudent id) fun _ => OnlyWrites.pure _
  | setClassName cl newName =>
      refine OnlyWrites.perform fun w hw => ?_
      obtain ⟨id, -, hw⟩ := Option.bind_eq_some_iff.mp hw
      exact writes_saveProperty (by decide) (fun l _ => by cases l <;> decide)
        (fun _ => tidy_string _ _) hw
  -- a list of students, but a parent's key: `children` is no list of a class
  | setStudents newStudents =>
      exact OnlyWrites.perform fun w hw => writes_saveProperty (by decide) (fun l hl => by
        cases l <;> first | decide | exact absurd hl (by decide))
        (fun _ => tidy_array (by decide) _) hw
  | setMeetingInfo newMeetingInfo =>
      exact OnlyWrites.perform fun w hw => writes_saveProperty (by decide)
        (fun l _ => by cases l <;> decide) (fun htame => htame.elim) hw
  | setAssignments newAssignments =>
      exact OnlyWrites.perform fun w hw => writes_saveProperty (by decide)
        (fun l _ => by cases l <;> decide) (fun _ => tidy_array (by decide) _) hw
  -- the other setters that address a document by the name of a field
  | _ =>
      exact OnlyWrites.perform fun w hw => writes_saveProperty (by decide)
        (fun l _ => by cases l <;> decide) (fun _ => tidy_string _ _) hw

/-! ### Sign-ups -/

variable {σ : World}

/-- Some writes of the event lead from one store to the other. -/
def Leads (e : Event) (s s' : Store) : Prop := ∃ ws, (∀ w ∈ ws, Writes e w) ∧ s' = s.applyAll ws

theorem Leads.refl (s : Store) : Leads e s s := ⟨[], by simp, rfl⟩

theorem leads_mergeAll {fields : List (String × String)} (s : Store)
    (hfields : ∀ f ∈ fields, Writes e (.setMerge p f.1 (.string f.2))) :
    Leads e s (s.applyAll (mergeAll p (strings fields))) := by
  refine ⟨_, fun w hw => ?_, rfl⟩
  obtain ⟨f, hf, rfl⟩ := List.mem_map.mp hw
  obtain ⟨g, hg, rfl⟩ := List.mem_map.mp hf
  exact hfields g hg

/-- The fields that a form is stored in. -/
def formKeys : List String := Strings.phone :: ReadPaths.Model.userTexts

theorem ne_key (hk : k ∈ formKeys) (l : MembershipList) : k ≠ l.key := by
  rintro rfl
  cases l <;> exact absurd hk (by decide)

theorem leads_form {x : App Bool} {o : Outcome} {form : Form} {type segue : String}
    {fields : List (String × String)} {new : String → IUser} (hne : type ≠ "")
    (hfields : ∀ f ∈ fields, f.1 ∈ formKeys)
    (hx : Unregistered σ (x.run σ) ∨ Registers ops o form type fields new segue σ (x.run σ)) :
    Leads e σ.store (after x σ).store := by
  rcases hx with hno | hreg
  · rw [after_of_unregistered hno]
    exact Leads.refl _
  · obtain ⟨name, p, -, hp, hstore⟩ := after_of_registers hreg
    rw [hstore]
    refine leads_mergeAll _ fun f hf => writes_below hne hp (fun l _ => ne_key ?_ l)
      fun _ => tidy_string _ _
    rcases List.mem_cons.mp hf with rfl | hf
    · exact List.mem_cons_of_mem _ List.mem_cons_self
    · exact hfields f hf

theorem studentFields_texts (form : Form) :
    ∀ f ∈ studentFields form, f.1 ∈ ReadPaths.Model.userTexts := by
  intro f hf
  simp only [studentFields, List.mem_cons, List.not_mem_nil, or_false] at hf
  rcases hf with rfl | rfl <;> simp [ReadPaths.Model.userTexts]

theorem adultFields_keys (form : Form) : ∀ f ∈ adultFields form, f.1 ∈ formKeys := by
  intro f hf
  simp only [adultFields, List.mem_cons, List.not_mem_nil, or_false] at hf
  rcases hf with rfl | rfl | rfl | rfl <;> simp [formKeys, ReadPaths.Model.userTexts]

theorem Leads.of_onlyWrites {α : Type} {x : App α} (h : OnlyWrites (Writes e) x) (σ : World) :
    Leads e σ.store (after x σ).store := h σ

/-- A sign-up with a code copies a document and deletes the one that it names. -/
theorem leads_parentCode (o : Outcome) (code : String) :
    Leads (.signUp (.parentCode o code)) σ.store
      (after (CreateAccountStudent.signUpParentCodePressed ops description o code) σ).store := by
  have hcases : Unregistered σ
      ((CreateAccountStudent.signUpParentCodePressed ops description o code).run σ) ∨ _ :=
    signUpParentCode_cases
  rcases hcases with hno | ⟨res, id, p, -, -, -, hp, hrun⟩
  · rw [after_of_unregistered hno]
    exact Leads.refl _
  · have hcopied : Leads (.signUp (.parentCode o code)) σ.store
        (σ.copied description res id p).store :=
      leads_mergeAll _ fun f _ => writes_student hp fun _ => tidy_string _ _
    rw [after, hrun]
    cases hq : documentPath Strings.student code with
    | none => exact hcopied
    | some q =>
        obtain ⟨ws, hws, hstore⟩ := hcopied
        refine ⟨ws ++ [.delete q], fun w hw => ?_, ?_⟩
        · rcases List.mem_append.mp hw with hw | hw
          · exact hws w hw
          · obtain rfl := List.mem_singleton.mp hw
            exact ⟨o, code, rfl, hq⟩
        · have hmigrated : (σ.migrated description res id p q).store =
              (σ.copied description res id p).store.apply (.delete q) := rfl
          rw [hmigrated, hstore, Store.applyAll, Store.applyAll, List.foldl_append]
          rfl

theorem leads_run (e : Event) (σ : World) :
    Leads e σ.store (e.run ops dateFromString description σ).store := by
  cases e with
  | signUp e =>
      cases e with
      | student o form =>
          exact leads_form (by decide)
            (fun f hf => List.mem_cons_of_mem _ (studentFields_texts form f hf))
            CreateAccountStudent.signUpPressed_cases
      | teacher o form =>
          exact leads_form (by decide) (adultFields_keys form)
            (CreateAccountTeacher.signUpPressed_cases.imp_right And.right)
      | parent o form =>
          exact leads_form (by decide) (adultFields_keys form)
            (CreateAccountParent.signUpPressed_cases.imp_right And.right)
      | parentCode o code => exact leads_parentCode o code
  | submitPressed c text =>
      refine Leads.of_onlyWrites (x := AddStudentPopupController.submitPressed text) ?_
        { σ with currentClassroom := c }
      refine OnlyWrites.bind (OnlyWrites.performSegue _) fun _ => ?_
      cases text with
      | none => exact OnlyWrites.pure _
      | some x =>
          exact OnlyWrites.detach (OnlyWrites.bind (OnlyWrites.ask _) fun res => writes_add x res)
  | call c => exact Leads.of_onlyWrites (writes_call c) σ

/-! ## Runs -/

variable (ops dateFromString description) in
/-- The world after the events, one after another. -/
def afterAll (es : List Event) (σ : World) : World :=
  es.foldl (fun σ e => e.run ops dateFromString description σ) σ

/-- What all writes of the events do to a document, the run does. -/
theorem grows_afterAll {R : Growth} (hR : R.Lawful) (p : DocPath) :
    ∀ {es : List Event} {σ : World}, (∀ e ∈ es, ∀ w, Writes e w → w.Grows R) →
      R p (σ.store.get? p) ((afterAll ops dateFromString description es σ).store.get? p)
  | [], _, _ => hR.refl _ _
  | e :: es, σ, h => by
      have hleads : Leads e σ.store (e.run ops dateFromString description σ).store := leads_run e σ
      obtain ⟨ws, hws, hstore⟩ := hleads
      have hstep : R p (σ.store.get? p) ((e.run ops dateFromString description σ).store.get? p) := by
        rw [hstore]
        exact hR.applyAll p fun w hw => h e List.mem_cons_self w (hws w hw)
      exact hR.trans hstep (grows_afterAll hR p fun e' he' => h e' (List.mem_cons_of_mem _ he'))

/-! ### Membership lists -/

/-- Whatever happens, the lists of ids keep what they have, in its place, and
no id comes to be in one of them twice. -/
theorem memberships_grow (es : List Event) (σ : World) (l : MembershipList) (n : String) :
    let before := elements (σ.store.field ⟨l.collection, n⟩ l.key)
    let now := elements ((afterAll ops dateFromString description es σ).store.field
      ⟨l.collection, n⟩ l.key)
    before <+: now ∧ (before.Nodup → now.Nodup) := by
  have hwrites : ∀ e ∈ es, ∀ w, Writes e w →
      w.Grows (Growth.growsAt (Below l.collection) l.key) := by
    intro e _ w hw
    refine Growth.grows_growsAt ?_ ?_
    · rintro p k v rfl hp
      exact hw.1 l hp
    · rintro p rfl hp
      obtain ⟨o, code, -, hcode⟩ := hw
      -- the collection of a deleted document begins with another letter
      have hstudent := below_of_documentPath (by decide) hcode
      have hhead := hp.symm.trans hstudent
      cases l <;> exact absurd hhead (by decide)
  exact grows_afterAll (Growth.growsAt_lawful _ _) ⟨l.collection, n⟩ hwrites rfl

/-! ### Documents -/

/-- The document is there with all fields that the other has. -/
def Stays (o o' : Option Doc) : Prop := o'.isSome ∧ ∀ k, Growth.Has o k → Growth.Has o' k

variable (ops description) in
/-- What a sign-up with the code leaves of the document that the code names:
the student whose id is the code is stored under a new name, and the document
is gone, also when the new name is its own. -/
structure Copied (o : Outcome) (code : String) (s s' : Store) (p : DocPath)
    (res : Student) (newID : String) (q : DocPath) : Prop where
  named : documentPath Strings.student code = some p
  gone : s'.get? p = none
  /-- The first student with this id, whatever the name of the document. -/
  fetched : ∃ m d, s.Found Strings.student Strings.id (.string code) m d
    ∧ Student.ofDictionary (Doc.data d) = some res
  generated : UserHelper.generateUserName ops o (res.firstName.getD "") (res.lastName.getD "")
    "Student" s = .ok newID
  renamed : documentPath Strings.student ("s_" ++ newID) = some q
  copied : q ≠ p → ∃ d, s'.get? q = some d
    ∧ ∀ f ∈ migratedFields description res, d[f.1]? = some (.string f.2)

theorem merge_strings {d : Doc} {fields : List (String × String)}
    (h : (fields.map Prod.fst).Nodup) :
    ∀ f ∈ fields, (d.merge (strings fields))[f.1]? = some (.string f.2) := by
  intro f hf
  have hmem : (f.1, Value.string f.2) ∈ (strings fields).reverse := by
    rw [List.mem_reverse]
    exact List.mem_map_of_mem (f := fun f : String × String => (f.1, Value.string f.2)) hf
  have hkeys : ((strings fields).reverse.map Prod.fst).Nodup := by
    rw [List.map_reverse, List.nodup_reverse, strings, List.map_map]
    exact h
  rw [Doc.getElem?_merge, (Keyed.lookup_eq_some_iff_mem hkeys).mpr hmem, Option.some_or]

theorem nodup_migratedFields (res : Student) :
    ((migratedFields description res).map Prod.fst).Nodup := by
  have hkeys : (migratedFields description res).map Prod.fst =
      [Strings.bio, Strings.email, Strings.classID, Strings.firstName, Strings.lastName,
        Strings.gpa, Strings.photoPath, Strings.pronouns] := rfl
  rw [hkeys]
  decide

/-- One event. -/
theorem run_stays (e : Event) {σ : World} (hp : (σ.store.get? p).isSome) :
    Stays (σ.store.get? p) ((e.run ops dateFromString description σ).store.get? p)
      ∨ ∃ o code res newID q, e = .signUp (.parentCode o code)
        ∧ Copied ops description o code σ.store (e.run ops dateFromString description σ).store p
          res newID q := by
  by_cases hlost : ∃ o code, e = .signUp (.parentCode o code)
      ∧ documentPath Strings.student code = some p
  · obtain ⟨o, code, rfl, hq⟩ := hlost
    have hcases : Unregistered σ
        ((CreateAccountStudent.signUpParentCodePressed ops description o code).run σ) ∨ _ :=
      signUpParentCode_cases
    rcases hcases with hno | ⟨res, newID, q, hcode, -, hgen, hpath, hrun⟩
    · have hstore : (Event.run ops dateFromString description σ
          (.signUp (.parentCode o code))).store = σ.store := after_of_unregistered hno
      rw [hstore]
      exact Or.inl ⟨hp, fun _ => id⟩
    · have hstore : Event.run ops dateFromString description σ (.signUp (.parentCode o code)) =
          σ.migrated description res newID q p := by
        rw [hq] at hrun
        exact after_of_ok hrun
      refine Or.inr ⟨o, code, res, newID, q, rfl, ?_⟩
      rw [hstore]
      exact {
        named := hq
        gone := get?_migrated_deleted
        fetched := (Student.ofGivenCode_eq_ok_iff.mp hcode).2
        generated := hgen
        renamed := hpath
        copied := fun hqp => by
          have hget : (σ.migrated description res newID q p).store.get? q = _ := get?_migrated_self
          rw [if_neg hqp] at hget
          exact ⟨_, hget, merge_strings (nodup_migratedFields res)⟩ }
  -- nothing else deletes
  · left
    have hgrows : Growth.keepsFields (fun q => ∃ o code, e = .signUp (.parentCode o code)
        ∧ documentPath Strings.student code = some q) p (σ.store.get? p)
        ((afterAll ops dateFromString description [e] σ).store.get? p) := by
      refine grows_afterAll (Growth.keepsFields_lawful _) p fun e' he' w hw => ?_
      obtain rfl := List.mem_singleton.mp he'
      refine Growth.grows_keepsFields ?_
      rintro q rfl
      exact hw
    exact ⟨(hgrows hlost).1 hp, (hgrows hlost).2⟩

/-- In every run, a document stays with all the fields that it has; or one of
the events is a sign-up with its name as the code, which it has reached with
all its fields, and which stores the student with this id anew. -/
theorem stays_or_copied (es : List Event) {σ : World} (hp : (σ.store.get? p).isSome) :
    Stays (σ.store.get? p) ((afterAll ops dateFromString description es σ).store.get? p)
      ∨ ∃ pre o code post res newID q, es = pre ++ .signUp (.parentCode o code) :: post
        ∧ Stays (σ.store.get? p) ((afterAll ops dateFromString description pre σ).store.get? p)
        ∧ Copied ops description o code (afterAll ops dateFromString description pre σ).store
          (afterAll ops dateFromString description (pre ++ [.signUp (.parentCode o code)]) σ).store
          p res newID q := by
  induction es generalizing σ with
  | nil => exact Or.inl ⟨hp, fun _ => id⟩
  | cons e es ih =>
      rcases run_stays e hp with hstays | ⟨o, code, res, newID, q, rfl, hcopied⟩
      · rcases ih hstays.1 with hrest |
          ⟨pre, o, code, post, res, newID, q, rfl, hpre, hcopied⟩
        · exact Or.inl ⟨hrest.1, fun k => hrest.2 k ∘ hstays.2 k⟩
        · exact Or.inr ⟨e :: pre, o, code, post, res, newID, q, rfl,
            ⟨hpre.1, fun k => hpre.2 k ∘ hstays.2 k⟩, hcopied⟩
      · exact Or.inr ⟨[], o, code, es, res, newID, q, rfl, ⟨hp, fun _ => id⟩, hcopied⟩

end

/-! ## Ann's document and her id as a code -/

/-- Ann has signed up, and someone types her id as a parent code: her document
is gone, and she is stored anew. -/
theorem stays_or_copied_ann :
    let e : Event := .signUp (.parentCode Registration.accepting "s_leeann")
    let s := Registration.annWorld.store
    let s' := (afterAll TextOps.ascii (fun _ => none) (fun _ => "0.0") [e]
      Registration.annWorld).store
    ∃ res newID q, Copied TextOps.ascii (fun _ => "0.0") Registration.accepting "s_leeann" s s'
      Registration.annPath res newID q := by
  intro e s s'
  have hgone : s'.get? Registration.annPath = none := by decide +kernel
  have hthere : (s.get? Registration.annPath).isSome := by decide
  rcases stays_or_copied [e] hthere with
    ⟨hstays, -⟩ | ⟨pre, o, code, post, res, newID, q, heq, -, hcopied⟩
  · rw [hgone] at hstays
    cases hstays
  · cases pre with
    | nil =>
        obtain ⟨heq, -⟩ := List.cons.inj heq
        obtain ⟨rfl, rfl⟩ : Registration.accepting = o ∧ "s_leeann" = code := by
          injection heq with heq
          injection heq with ho hcode
          exact ⟨ho, hcode⟩
        exact ⟨res, newID, q, hcopied⟩
    | cons e' pre => simp at heq

end GradeIo.Persistence
