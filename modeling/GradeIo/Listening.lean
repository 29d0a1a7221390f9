import GradeIo.Callbacks
import GradeIo.Lib.Catchup
import GradeIo.Lib.Listener
import GradeIo.Persistence
import GradeIo.ReadPaths

/-!
# Objects that follow what the application writes

An assignment, a classroom or a user listens to its document while sign-ups,
popups, setters and add operations change the store. Snapshots may be left out
or delivered again, but not out of order.

On the documents that the events leave, a listener traps in two cases only
(`reads_iff`): a student's class that is null, and a list in the place of a
teacher's id. Without the events that cause them, an object that has been given
any of the snapshots is as if it had read the last one alone
(`follows_last`).
-/

namespace GradeIo.Listening

open DocDb Transition App Lookups Persistence ReadPaths

/-- The class of a listening object. -/
def Object : Model → IListenable → Prop
  | .assignment, .assignment _ => True
  | .classroom, .classroom _ => True
  | .student, .user (.student _) => True
  | .teacher, .user (.teacher _) => True
  | .parent, .user (.parent _) => True
  | _, _ => False

/-- What the listener of the class cannot read. -/
def Unreadable (m : Model) (d : Doc) : Prop :=
  (m = .student ∧ d[Strings.classID]? = some .null)
    ∨ (m = .classroom ∧ ∃ vs, d[Strings.teacherID]? = some (.array vs))

/-! ## Reading one document after another -/

section

variable {α : Type} {as : Value → Option α} {d d' : Doc} {k : String} {old new : Option α}

/-- The field of the later document is read over the one of the earlier. -/
theorem castField_absorb (hk : (d[k]?).isSome → (d'[k]?).isSome)
    (h : castField as d k old = some new) : castField as d' k new = castField as d' k old := by
  unfold castField at h ⊢
  cases hv' : d'[k]? with
  | some v' => rfl
  | none =>
      cases hv : d[k]? with
      | some v => simp [hv, hv'] at hk
      | none =>
          rw [hv] at h
          exact h.symm

theorem gpaField_absorb (hk : (d[Strings.gpa]?).isSome → (d'[Strings.gpa]?).isSome)
    (gpa : Option Rat) : gpaField d' (gpaField d gpa) = gpaField d' gpa := by
  unfold gpaField
  cases hv' : d'[Strings.gpa]? with
  | some v' => rfl
  | none =>
      cases hv : d[Strings.gpa]? with
      | some v => simp [hv, hv'] at hk
      | none => rfl

theorem castList_absorb {ofDictionary : Dict → Option α} {old new : Option (List α)}
    (hk : (d[k]?.bind (asArray asDict)).isSome → (d'[k]?.bind (asArray asDict)).isSome)
    (h : Assignment.castList ofDictionary d k old = some new) :
    Assignment.castList ofDictionary d' k new = Assignment.castList ofDictionary d' k old := by
  unfold Assignment.castList at h ⊢
  cases hv' : d'[k]?.bind (asArray asDict) with
  | some ds' => rfl
  | none =>
      cases hv : d[k]?.bind (asArray asDict) with
      | some ds => simp [hv, hv'] at hk
      | none =>
          rw [hv] at h
          exact h.symm

end

/-- The later document has the fields of the earlier one. -/
def Older (d d' : Doc) : Prop := ∀ k : String, (d[k]?).isSome → (d'[k]?).isSome

section

variable {d d' : Doc}

theorem BaseUser.absorb (hk : Older d d') {u u' : BaseUser}
    (h : u.setPropertiesFromDoc d = some u') :
    u'.setPropertiesFromDoc d' = u.setPropertiesFromDoc d' := by
  obtain ⟨h₁, h₂, h₃, h₄, h₅, h₆, hid, htype⟩ := BaseUser.setPropertiesFromDoc_eq_some.mp h
  ext1 w
  simp only [BaseUser.setPropertiesFromDoc_eq_some, castField_absorb (hk _) h₁,
    castField_absorb (hk _) h₂, castField_absorb (hk _) h₃, castField_absorb (hk _) h₄,
    castField_absorb (hk _) h₅, castField_absorb (hk _) h₆, hid, htype]

theorem Student.absorb (hk : Older d d') {s s' : Student}
    (h : s.setPropertiesFromDoc d = some s') :
    s'.setPropertiesFromDoc d' = s.setPropertiesFromDoc d' := by
  obtain ⟨hbase, hgpa, hclass, hparent⟩ := Student.setPropertiesFromDoc_eq_some.mp h
  ext1 w
  simp only [Student.setPropertiesFromDoc_eq_some, BaseUser.absorb hk hbase, hgpa,
    gpaField_absorb (hk _), castField_absorb (hk _) hclass, hparent]

theorem Teacher.absorb (hk : Older d d') {t t' : Teacher}
    (h : t.setPropertiesFromDoc d = some t') :
    t'.setPropertiesFromDoc d' = t.setPropertiesFromDoc d' := by
  obtain ⟨hbase, hclass, hphone⟩ := Teacher.setPropertiesFromDoc_eq_some.mp h
  ext1 w
  simp only [Teacher.setPropertiesFromDoc_eq_some, BaseUser.absorb hk hbase,
    castField_absorb (hk _) hclass, hphone]

theorem Parent.absorb (hk : Older d d') {p p' : Parent}
    (h : p.setPropertiesFromDoc d = some p') :
    p'.setPropertiesFromDoc d' = p.setPropertiesFromDoc d' := by
  obtain ⟨hbase, hstudents, hphone⟩ := Parent.setPropertiesFromDoc_eq_some.mp h
  ext1 w
  simp only [Parent.setPropertiesFromDoc_eq_some, BaseUser.absorb hk hbase,
    castField_absorb (hk _) hstudents, hphone]

theorem Classroom.absorb (hk : Older d d') {c c' : Classroom}
    (h : c.setPropertiesFromDoc d = some c') :
    c'.setPropertiesFromDoc d' = c.setPropertiesFromDoc d' := by
  obtain ⟨h₁, h₂, h₃, h₄, h₅, hid⟩ := Classroom.setPropertiesFromDoc_eq_some.mp h
  ext1 w
  simp only [Classroom.setPropertiesFromDoc_eq_some, castField_absorb (hk _) h₁,
    castField_absorb (hk _) h₂, castField_absorb (hk _) h₃, castField_absorb (hk _) h₄,
    castField_absorb (hk _) h₅, hid]

/-- A list of records, where there is one. -/
def RecordLists (d : Doc) : Prop :=
  ∀ k ∈ [Strings.problems, Strings.results], (d[k]?).isSome → (d[k]?.bind (asArray asDict)).isSome

theorem Assignment.absorb (hk : Older d d') (hlists : RecordLists d') {a a' : Assignment}
    (h : a.setPropertiesFromDoc d = some a') :
    a'.setPropertiesFromDoc d' = a.setPropertiesFromDoc d' := by
  obtain ⟨h₁, h₂, h₃, h₄, h₅, h₆, hid, hname⟩ := Assignment.setPropertiesFromDoc_eq_some.mp h
  have hlist : ∀ k ∈ [Strings.problems, Strings.results],
      (d[k]?.bind (asArray asDict)).isSome → (d'[k]?.bind (asArray asDict)).isSome := by
    intro k hmem hsome
    refine hlists k hmem (hk k ?_)
    cases hv : d[k]? with
    | none => simp [hv] at hsome
    | some v => rfl
  ext1 w
  simp only [Assignment.setPropertiesFromDoc_eq_some,
    castList_absorb (hlist _ (by simp)) h₁, castList_absorb (hlist _ (by simp)) h₂,
    castField_absorb (hk _) h₃, castField_absorb (hk _) h₄, castField_absorb (hk _) h₅,
    castField_absorb (hk _) h₆, hid, hname]

end

/-! ## What the events leave -/

section

variable {m : Model} {d : Doc}

theorem recordLists_of_allows (h : ∀ k v, d[k]? = some v → Model.assignment.Allows k v) :
    RecordLists d := by
  intro k hk hsome
  obtain ⟨v, hv⟩ := Option.isSome_iff_exists.mp hsome
  simp only [List.mem_cons, List.not_mem_nil, or_false] at hk
  rcases hk with rfl | rfl
  · obtain ⟨ps, rfl⟩ := Model.problems_of_allows (h _ v hv)
    have hdicts : asArray asDict (.array (ps.map fun p => .map p.getDictionary)) = _ :=
      asArray_asDict_map Problem.getDictionary ps
    rw [hv, Option.bind_some]
    exact Option.isSome_of_eq_some hdicts
  · obtain ⟨rs, rfl⟩ := Model.results_of_allows (h _ v hv)
    have hdicts : asArray asDict (.array (rs.map fun r => .map r.getDictionary)) = _ :=
      asArray_asDict_map Result.getDictionary rs
    rw [hv, Option.bind_some]
    exact Option.isSome_of_eq_some hdicts

/-- Every assignment document can be read. -/
theorem assignment_reads (h : ∀ k v, d[k]? = some v → Model.assignment.Allows k v)
    (a : Assignment) : ∃ a', a.setPropertiesFromDoc d = some a' := by
  have htext : ∀ {k}, k ∉ [Strings.dueDate, Strings.results, Strings.problems] →
      Holds asString d k := fun hk => holds_text h (by simp [Model.lists]) (by simp) hk
  obtain ⟨-, hresults⟩ := castList_of_holds Result.decode_getDictionary
    Result.ofDictionary_getDictionary (fun v hv => Model.results_of_allows (h Strings.results v hv))
  obtain ⟨-, hproblems⟩ := castList_of_holds Problem.decode_getDictionary
    Problem.ofDictionary_getDictionary
    (fun v hv => Model.problems_of_allows (h Strings.problems v hv))
  have hdate : Holds Assignment.asDate d Strings.dueDate := by
    intro v hv
    have hallow := h _ v hv
    cases v with
    | timestamp t => exact ⟨by simp, t, rfl⟩
    | string s =>
        have hnot : Strings.dueDate ∉ Model.assignment.texts := by decide
        exact absurd hallow hnot
    | null => exact absurd hallow.1 (by decide)
    | array vs =>
        rcases hallow with ⟨hk, -⟩ | ⟨-, hk, -⟩ | ⟨-, hk, -⟩ <;> exact absurd hk (by decide)
    | _ => exact hallow.elim
  exact ⟨⟨_, _, _, a.id, _, _, _, a.name⟩, Assignment.setPropertiesFromDoc_eq_some.mpr
    ⟨hproblems _, hresults _, hdate.cast _, (htext (by decide)).cast _,
      (htext (by decide)).cast _, (htext (by decide)).cast _, rfl, rfl⟩⟩

/-- A student's document can be read unless the class is null. -/
theorem student_reads_iff (h : ∀ k v, d[k]? = some v → Model.student.Allows k v) (s : Student) :
    (∃ s', s.setPropertiesFromDoc d = some s') ↔ d[Strings.classID]? ≠ some .null := by
  have hfields := student_fields h
  constructor
  · rintro ⟨s', hs'⟩ hnull
    have hclass := (Student.setPropertiesFromDoc_eq_some.mp hs').2.2.1
    simp [castField, hnull, asString] at hclass
  · intro hnull
    have hclass : Holds asString d Strings.classID := by
      intro v hv
      have hallow := h _ v hv
      cases v with
      | string s => exact ⟨by simp, s, rfl⟩
      | null => exact absurd hv hnull
      | timestamp t => exact absurd hallow.1 (by decide)
      | array vs =>
          rcases hallow with ⟨hk, -⟩ | ⟨hm, -⟩ | ⟨hm, -⟩
          · exact absurd hk (by decide)
          · exact absurd hm (by decide)
          · exact absurd hm (by decide)
      | _ => exact hallow.elim
    exact ⟨⟨snapshotUser d s.toBaseUser, gpaField d s.gpa, _, s.parentID⟩,
      Student.setPropertiesFromDoc_eq_some.mpr ⟨hfields.snapshot _, rfl, hclass.cast _, rfl⟩⟩

theorem teacher_reads (h : ∀ k v, d[k]? = some v → Model.teacher.Allows k v) (t : Teacher) :
    ∃ t', t.setPropertiesFromDoc d = some t' := by
  have hclass : Holds asString d Strings.classID :=
    holds_text h (by decide) (by decide) (by decide)
  exact ⟨⟨⟨snapshotUser d t.toBaseUser, t.phone⟩, _⟩, Teacher.setPropertiesFromDoc_eq_some.mpr
    ⟨(teacher_fields h).snapshot _, hclass.cast _, rfl⟩⟩

theorem parent_reads (h : ∀ k v, d[k]? = some v → Model.parent.Allows k v) (p : Parent) :
    ∃ p', p.setPropertiesFromDoc d = some p' := by
  have hstudents : Holds (asArray asString) d Strings.students :=
    holds_list h (by decide) (by decide) (by decide)
  exact ⟨⟨⟨snapshotUser d p.toBaseUser, p.phone⟩, _⟩, Parent.setPropertiesFromDoc_eq_some.mpr
    ⟨(parent_fields h).snapshot _, hstudents.cast _, rfl⟩⟩

/-- A class can be read unless the meeting info is in the place of the teacher. -/
theorem classroom_reads_iff (h : ∀ k v, d[k]? = some v → Model.classroom.Allows k v)
    (c : Classroom) :
    (∃ c', c.setPropertiesFromDoc d = some c') ↔
      ∀ vs, d[Strings.teacherID]? ≠ some (.array vs) := by
  constructor
  · rintro ⟨c', hc'⟩ vs hvs
    have hteacher := (Classroom.setPropertiesFromDoc_eq_some.mp hc').1
    simp [castField, hvs, asString] at hteacher
  · intro harray
    have hteacher : Holds asString d Strings.teacherID := by
      intro v hv
      have hallow := h _ v hv
      cases v with
      | string s => exact ⟨by simp, s, rfl⟩
      | array vs => exact absurd hv (harray vs)
      | null => exact absurd hallow.1 (by decide)
      | timestamp t => exact absurd hallow.1 (by decide)
      | _ => exact hallow.elim
    have hname : Holds asString d Strings.name :=
      holds_text h (by decide) (by decide) (by decide)
    have hstudents : Holds (asArray asString) d Strings.studentIDs :=
      holds_list h (by decide) (by decide) (by decide)
    have hassignments : Holds (asArray asString) d Strings.assignmentIDs :=
      holds_list h (by decide) (by decide) (by decide)
    have hinfo : d[Strings.meetingInfo]? = none :=
      getElem?_eq_none h (by decide) (by decide) (by decide)
    exact ⟨⟨c.id, _, _, _, _, _⟩, Classroom.setPropertiesFromDoc_eq_some.mpr
      ⟨hteacher.cast _, hstudents.cast _, hassignments.cast _, hname.cast _,
        castField_of_none hinfo _, rfl⟩⟩

/-- On a document of its class, with what the events write, an object traps in
the two cases only. -/
theorem reads_iff_of_allows (h : ∀ k v, d[k]? = some v → m.Allows k v) {o : IListenable}
    (ho : Object m o) : (o.setPropertiesFromDoc d).isSome ↔ ¬ Unreadable m d := by
  have hmap : ∀ {α : Type} {x : Option α} {f : α → IListenable}, (x.map f).isSome ↔
      ∃ a, x = some a := fun {α x f} => by rw [Option.isSome_map, Option.isSome_iff_exists]
  cases o with
  | assignment a =>
      cases m with
      | assignment =>
          refine hmap.trans (iff_of_true (assignment_reads h a) ?_)
          rintro (⟨hm, -⟩ | ⟨hm, -⟩) <;> cases hm
      | _ => exact ho.elim
  | classroom c =>
      cases m with
      | classroom =>
          refine hmap.trans ((classroom_reads_iff h c).trans ?_)
          simp [Unreadable]
      | _ => exact ho.elim
  | user u =>
      refine hmap.trans ?_
      cases u with
      | base u => cases m <;> exact ho.elim
      | student s =>
          cases m with
          | student =>
              have hread := student_reads_iff h s
              simp only [← Option.isSome_iff_exists] at hread ⊢
              simpa [IUser.setPropertiesFromDoc, Unreadable] using hread
          | _ => exact ho.elim
      | teacher t =>
          cases m with
          | teacher =>
              obtain ⟨t', ht'⟩ := teacher_reads h t
              refine iff_of_true ⟨.teacher t', by rw [IUser.setPropertiesFromDoc, ht']; rfl⟩ ?_
              rintro (⟨hm, -⟩ | ⟨hm, -⟩) <;> cases hm
          | _ => exact ho.elim
      | parent p =>
          cases m with
          | parent =>
              obtain ⟨p', hp'⟩ := parent_reads h p
              refine iff_of_true ⟨.parent p', by rw [IUser.setPropertiesFromDoc, hp']; rfl⟩ ?_
              rintro (⟨hm, -⟩ | ⟨hm, -⟩) <;> cases hm
          | _ => exact ho.elim

end

/-! ## Runs -/

section

variable {ops : TextOps} {dateFromString : String → Option Rat} {description : Rat → String}
  {σ : World} {e : Event} {m : Model} {n : String} {d : Doc}

theorem fits_deleted (p : DocPath) : (Write.delete p).Fits schema := trivial

/-- A part of a program that keeps its value. -/
theorem onlyWrites_of_discard {α : Type} {P : Write → Prop} {x : App α}
    (h : OnlyWrites P (do let _ ← x)) : OnlyWrites P x := by
  intro σ
  obtain ⟨ws, hws, hstore⟩ := h σ
  rw [after_bind_pure] at hstore
  exact ⟨ws, hws, hstore⟩

theorem fits_add [TextOps] (x : String) (res : Student) :
    OnlyWrites (Write.Fits schema) (AddStudentPopupController.add x res) := by
  refine OnlyWrites.bind OnlyWrites.get fun σ => OnlyWrites.unwrap_bind fun newClass _ => ?_
  refine OnlyWrites.bind (OnlyWrites.perform fun w hw => ?_) fun _ => ?_
  · exact fits_user (Model.mem_texts_student (by decide)) hw
  · have hcall : OnlyWrites (Write.Fits schema)
        ((ReadPaths.Call.addStudent σ.currentClassroom x).run (fun _ => none) fun _ => "") :=
      fits_run _
    exact OnlyWrites.bind (onlyWrites_of_discard hcall) fun _ => OnlyWrites.setCurrentClassroom _

/-- Text, in fields that hold text in the class. -/
theorem fits_strings {s : Store} {p : DocPath} {fields : List (String × String)}
    (hs : s.Fits schema) (hp : documentPath m.collection n = some p)
    (hfields : ∀ f ∈ fields, f.1 ∈ m.texts) : (s.applyAll (mergeAll p (strings fields))).Fits schema := by
  refine hs.applyAll fun w hw => ?_
  obtain ⟨f, hf, rfl⟩ := List.mem_map.mp hw
  obtain ⟨g, hg, rfl⟩ := List.mem_map.mp hf
  exact schema_of_documentPath hp (Model.allows_text (hfields g hg) g.2)

theorem fits_form {x : App Bool} {o : Outcome} {form : Form} {segue : String}
    {fields : List (String × String)} {new : String → IUser} (hs : σ.store.Fits schema)
    (hid : Strings.id ∈ m.texts) (hfields : ∀ f ∈ fields, f.1 ∈ m.texts)
    (hx : Unregistered σ (x.run σ) ∨ Registers ops o form m.collection fields new segue σ (x.run σ)) :
    (after x σ).store.Fits schema := by
  rcases hx with hno | hreg
  · rw [after_of_unregistered hno]
    exact hs
  · obtain ⟨name, p, -, hp, hstore⟩ := after_of_registers hreg
    rw [hstore]
    refine fits_strings hs hp fun f hf => ?_
    rcases List.mem_cons.mp hf with rfl | hf
    · exact hid
    · exact hfields f hf

theorem fits_parentCode (hs : σ.store.Fits schema) (o : Outcome) (code : String) :
    (after (CreateAccountStudent.signUpParentCodePressed ops description o code) σ).store.Fits
      schema := by
  have hcases : Unregistered σ
      ((CreateAccountStudent.signUpParentCodePressed ops description o code).run σ) ∨ _ :=
    signUpParentCode_cases
  rcases hcases with hno | ⟨res, id, p, -, -, -, hp, hrun⟩
  · rw [after_of_unregistered hno]
    exact hs
  · have hcopied : (σ.copied description res id p).store.Fits schema := by
      refine fits_strings (m := .student) hs hp fun f hf => ?_
      simp only [migratedFields, List.mem_cons, List.not_mem_nil, or_false] at hf
      rcases hf with rfl | rfl | rfl | rfl | rfl | rfl | rfl | rfl <;>
        simp [Model.texts, Model.userTexts]
    rw [after, hrun]
    cases hq : documentPath Strings.student code with
    | none => exact hcopied
    | some q => exact hcopied.apply (fits_deleted q)

theorem fits_event (hs : σ.store.Fits schema) (e : Event) :
    (e.run ops dateFromString description σ).store.Fits schema := by
  have hwrites : ∀ {α : Type} {x : App α} {σ : World}, σ.store.Fits schema →
      OnlyWrites (Write.Fits schema) x → (after x σ).store.Fits schema := by
    intro α x σ hs hx
    obtain ⟨ws, hws, hstore⟩ := hx σ
    rw [hstore]
    exact hs.applyAll hws
  have hstudent : ∀ form : Form, ∀ f ∈ studentFields form, f.1 ∈ Model.student.texts := by
    intro form f hf
    exact List.mem_append_right _ (studentFields_texts form f hf)
  cases e with
  | signUp e =>
      cases e with
      | student o form =>
          exact fits_form (m := .student) hs (by decide) (hstudent form)
            CreateAccountStudent.signUpPressed_cases
      | teacher o form =>
          exact fits_form (m := .teacher) hs (by decide) (adultFields_keys form)
            (CreateAccountTeacher.signUpPressed_cases.imp_right And.right)
      | parent o form =>
          exact fits_form (m := .parent) hs (by decide) (adultFields_keys form)
            (CreateAccountParent.signUpPressed_cases.imp_right And.right)
      | parentCode o code => exact fits_parentCode hs o code
  | submitPressed c text =>
      refine hwrites (σ := { σ with currentClassroom := c }) hs ?_
      refine OnlyWrites.bind (OnlyWrites.performSegue _) fun _ => ?_
      cases text with
      | none => exact OnlyWrites.pure _
      | some x =>
          exact OnlyWrites.detach (OnlyWrites.bind (OnlyWrites.ask _) fun res => fits_add x res)
  | call c => exact hwrites hs (fits_run c)

theorem allows_of_run {ok : World → Event → Prop}
    (h : (Lookups.system ops dateFromString description).Run ok σ)
    (hd : σ.store.get? ⟨m.collection, n⟩ = some d) : ∀ k v, d[k]? = some v → m.Allows k v := by
  have hfits : σ.store.Fits schema := by
    refine h.invariant (I := fun σ => σ.store.Fits schema) ?_ ?_
    · rintro σ hσ
      rw [show σ.store = fun _ => ∅ from hσ]
      exact Store.Fits.empty schema
    · rintro σ e σ' hσ - hs
      obtain rfl := Option.some.inj hs
      exact fits_event hσ e
  exact fun k v hv => hfits _ _ _ hd k v hv m rfl

/-- In every store that the events leave, an object traps on the snapshot of a
document exactly if it is one of the two. -/
theorem reads_iff (h : (Lookups.system ops dateFromString description).Reachable σ)
    (hd : σ.store.get? ⟨m.collection, n⟩ = some d) {o : IListenable} (ho : Object m o) :
    (o.setPropertiesFromDoc d).isSome ↔ ¬ Unreadable m d :=
  reads_iff_of_allows (allows_of_run h hd) ho

/-! ### Tame events -/

/-- A field of any collection. -/
def tidySchema : Schema := fun _ k v => Tidy k v

theorem fits_of_writes (he : Tame e) {w : Write} (hw : Writes e w) : w.Fits tidySchema := by
  cases w with
  | setMerge p k v => exact hw.2 he
  | unionMerge p k v => exact fun _ _ => tidy_array hw _
  | unionUpdate p k v => exact fun _ _ => tidy_array hw _
  | delete p => trivial

theorem tidy_event (hs : σ.store.Fits tidySchema) (he : Tame e) :
    (e.run ops dateFromString description σ).store.Fits tidySchema := by
  have hleads : Leads e σ.store (e.run ops dateFromString description σ).store := leads_run e σ
  obtain ⟨ws, hws, hstore⟩ := hleads
  rw [hstore]
  exact hs.applyAll fun w hw => fits_of_writes he (hws w hw)

theorem not_unreadable (h : d.Fits tidySchema m.collection) : ¬ Unreadable m d := by
  rintro (⟨-, hnull⟩ | ⟨-, vs, harray⟩)
  · exact (h _ _ hnull).1 rfl
  · exact (h _ _ harray).2 rfl vs rfl

/-- Both hold along a run of tame events. -/
structure Typed (s : Store) : Prop where
  fits : s.Fits schema
  tidy : s.Fits tidySchema

theorem Typed.afterAll :
    ∀ {es : List Event} {σ : World}, Typed σ.store → (∀ e ∈ es, Tame e) →
      Typed (afterAll ops dateFromString description es σ).store
  | [], _, h, _ => h
  | e :: _, _, h, hes =>
      have hstep : Typed (e.run ops dateFromString description _).store :=
        ⟨fits_event h.fits e, tidy_event h.tidy (hes e List.mem_cons_self)⟩
      hstep.afterAll fun e' he' => hes e' (List.mem_cons_of_mem _ he')

theorem typed_of_run (h : (Lookups.system ops dateFromString description).Run (fun _ e => Tame e) σ) :
    Typed σ.store := by
  refine h.invariant (I := fun σ => Typed σ.store) ?_ ?_
  · rintro σ hσ
    rw [show σ.store = fun _ => ∅ from hσ]
    exact ⟨Store.Fits.empty schema, Store.Fits.empty tidySchema⟩
  · rintro σ e σ' hσ he hs
    obtain rfl := Option.some.inj hs
    exact ⟨fits_event hσ.fits e, tidy_event hσ.tidy he⟩

/-- The snapshot of a document, also of one that does not exist. -/
theorem Typed.snapshot {s : Store} (h : Typed s) (m : Model) (n : String) :
    (∀ k v, (s.snapshot ⟨m.collection, n⟩)[k]? = some v → m.Allows k v)
      ∧ ¬ Unreadable m (s.snapshot ⟨m.collection, n⟩) := by
  unfold Store.snapshot
  cases hd : s.get? ⟨m.collection, n⟩ with
  | none =>
      refine ⟨fun k v hv => ?_, not_unreadable (Doc.Fits.empty _ _)⟩
      simp at hv
  | some d => exact ⟨fun k v hv => h.fits _ _ _ hd k v hv m rfl, not_unreadable (h.tidy _ _ _ hd)⟩

/-! ### Snapshots of one document -/

theorem has_iff {s : Store} {p : DocPath} {k : String} :
    Growth.Has (s.get? p) k ↔ ((s.snapshot p)[k]?).isSome := by
  unfold Growth.Has Store.snapshot
  cases s.get? p <;> simp

theorem afterAll_append (es es' : List Event) (σ : World) :
    afterAll ops dateFromString description (es ++ es') σ =
      afterAll ops dateFromString description es' (afterAll ops dateFromString description es σ) := by
  rw [afterAll, List.foldl_append]
  rfl

/-- No event is a sign-up with the document's name as its code. -/
def NotNamed (es : List Event) (p : DocPath) : Prop :=
  ∀ o code, .signUp (.parentCode o code) ∈ es → documentPath Strings.student code ≠ some p

variable {es : List Event}

theorem older_afterAll {p : DocPath} (hes : NotNamed es p) (σ : World) :
    Older (σ.store.snapshot p)
      ((afterAll ops dateFromString description es σ).store.snapshot p) := by
  intro k hk
  have hwrites : ∀ e ∈ es, ∀ w, Writes e w → w.Grows (Growth.keepsFields fun q => q ≠ p) := by
    intro e he w hw
    refine Growth.grows_keepsFields ?_
    rintro q rfl rfl
    obtain ⟨o, code, rfl, hcode⟩ := hw
    exact hes o code he hcode
  have hgrows : Growth.keepsFields (fun q => q ≠ p) p (σ.store.get? p)
      ((afterAll ops dateFromString description es σ).store.get? p) :=
    grows_afterAll (Growth.keepsFields_lawful _) p hwrites
  exact has_iff.mp ((hgrows (by simp)).2 k (has_iff.mpr hk))

variable (ops dateFromString description) in
/-- The snapshot of a document after the first `i` events. -/
def version (es : List Event) (σ : World) (p : DocPath) (i : Nat) : Doc :=
  (afterAll ops dateFromString description (es.take i) σ).store.snapshot p

theorem version_older {p : DocPath} (hes : NotNamed es p) (σ : World) {i j : Nat} (hij : i ≤ j) :
    Older (version ops dateFromString description es σ p i)
      (version ops dateFromString description es σ p j) := by
  have hsplit : es.take j = es.take i ++ (es.take j).drop i := by
    have htake : (es.take j).take i = es.take i := by rw [List.take_take, Nat.min_eq_left hij]
    rw [← htake, List.take_append_drop]
  have hrest : NotNamed ((es.take j).drop i) p := fun o code he =>
    hes o code (List.mem_of_mem_take (List.mem_of_mem_drop he))
  unfold version
  rw [hsplit, afterAll_append]
  exact older_afterAll hrest _

theorem object_setPropertiesFromDoc {o o' : IListenable} (ho : Object m o)
    (h : o.setPropertiesFromDoc d = some o') : Object m o' := by
  cases o with
  | assignment a =>
      obtain ⟨a', -, rfl⟩ := Option.map_eq_some_iff.mp h
      cases m <;> exact ho
  | classroom c =>
      obtain ⟨c', -, rfl⟩ := Option.map_eq_some_iff.mp h
      cases m <;> exact ho
  | user u =>
      obtain ⟨u', hu, rfl⟩ := Option.map_eq_some_iff.mp h
      cases u <;>
        · obtain ⟨v, -, rfl⟩ := Option.map_eq_some_iff.mp hu
          cases m <;> exact ho

/-- What a later document leaves of an earlier one is nothing. -/
theorem absorb {d d' : Doc} (hk : Older d d')
    (hd' : ∀ k v, d'[k]? = some v → m.Allows k v) {o o' : IListenable} (ho : Object m o)
    (h : o.setPropertiesFromDoc d = some o') :
    o'.setPropertiesFromDoc d' = o.setPropertiesFromDoc d' := by
  cases o with
  | assignment a =>
      obtain ⟨a', ha, rfl⟩ := Option.map_eq_some_iff.mp h
      cases m with
      | assignment =>
          exact congrArg (Option.map _) (Assignment.absorb hk (recordLists_of_allows hd') ha)
      | _ => exact ho.elim
  | classroom c =>
      obtain ⟨c', hc, rfl⟩ := Option.map_eq_some_iff.mp h
      exact congrArg (Option.map _) (Classroom.absorb hk hc)
  | user u =>
      obtain ⟨u', hu, rfl⟩ := Option.map_eq_some_iff.mp h
      refine congrArg (Option.map _) ?_
      cases u with
      | base u =>
          obtain ⟨v, hv, rfl⟩ := Option.map_eq_some_iff.mp hu
          exact congrArg (Option.map _) (BaseUser.absorb hk hv)
      | student s =>
          obtain ⟨v, hv, rfl⟩ := Option.map_eq_some_iff.mp hu
          exact congrArg (Option.map _) (Student.absorb hk hv)
      | teacher t =>
          obtain ⟨v, hv, rfl⟩ := Option.map_eq_some_iff.mp hu
          exact congrArg (Option.map _) (Teacher.absorb hk hv)
      | parent p =>
          obtain ⟨v, hv, rfl⟩ := Option.map_eq_some_iff.mp hu
          exact congrArg (Option.map _) (Parent.absorb hk hv)

/-- An object of a class listens while tame events happen, none of which
deletes its document. Whichever of the snapshots it is given, in order, it
never traps, and it ends as if it had been given the last of them alone. -/
theorem follows_last
    (h : (Lookups.system ops dateFromString description).Run (fun _ e => Tame e) σ)
    (hes : ∀ e ∈ es, Tame e) (hnot : NotNamed es ⟨m.collection, n⟩) {o : IListenable}
    (ho : Object m o) {delivered : List Nat} (horder : delivered.Pairwise (· ≤ ·)) :
    let snapshots := delivered.map (version ops dateFromString description es σ ⟨m.collection, n⟩)
    (snapshots.foldlM IListenable.setPropertiesFromDoc o).isSome
      ∧ snapshots.foldlM IListenable.setPropertiesFromDoc o =
        snapshots.getLast?.elim (some o) o.setPropertiesFromDoc := by
  intro snapshots
  have htyped : ∀ i, Typed (afterAll ops dateFromString description (es.take i) σ).store := fun i =>
    (typed_of_run h).afterAll fun e he => hes e (List.mem_of_mem_take he)
  have hreads : ∀ o, Object m o → ∀ d ∈ snapshots,
      ∃ o', IListenable.setPropertiesFromDoc o d = some o' ∧ Object m o' := by
    intro o ho d hd
    obtain ⟨i, -, rfl⟩ := List.mem_map.mp hd
    obtain ⟨hallows, hreadable⟩ := (htyped i).snapshot m n
    obtain ⟨o', ho'⟩ := Option.isSome_iff_exists.mp ((reads_iff_of_allows hallows ho).mpr hreadable)
    exact ⟨o', ho', object_setPropertiesFromDoc ho ho'⟩
  have habsorbs : Catchup.Absorbs IListenable.setPropertiesFromDoc Older (Object m) snapshots := by
    refine ⟨hreads, fun o o' ho d _ d' hd' hk hread => ?_⟩
    obtain ⟨i, -, rfl⟩ := List.mem_map.mp hd'
    exact absorb hk ((htyped i).snapshot m n).1 ho hread
  have hlast := habsorbs.foldlM_eq_last
    (List.pairwise_map.mpr (horder.imp fun hij => version_older hnot σ hij)) ho
  refine ⟨?_, hlast⟩
  rw [hlast]
  cases hd : snapshots.getLast? with
  | none => rfl
  | some d =>
      obtain ⟨o', ho', -⟩ := hreads o ho d (List.mem_of_getLast? hd)
      exact Option.isSome_of_eq_some ho'

end

/-! ## Ann's object -/

section Example

open Registration

theorem tame_run_ann : asciiSystem.Run (fun _ e => Tame e) annWorld := by
  have h₀ : asciiSystem.Run (fun _ e => Tame e) emptyWorld := .init init_emptyWorld
  have htame : Tame annEvent := trivial
  exact h₀.step htame step_annEvent

abbrev annObject : IListenable := .user (.student (Student.new "s_leeann"))

/-- What Ann's sign-up has stored can be read. -/
theorem reads_iff_ann : ∃ d, annWorld.store.get? annPath = some d
    ∧ ((annObject.setPropertiesFromDoc d).isSome ↔ ¬ Unreadable .student d) := by
  have hthere : (annWorld.store.get? annPath).isSome := by decide
  obtain ⟨d, hd⟩ := Option.isSome_iff_exists.mp hthere
  have hreach : asciiSystem.Reachable annWorld := tame_run_ann.weaken fun _ _ _ => trivial
  exact ⟨d, hd, reads_iff (m := .student) hreach hd trivial⟩

/-- Ann sets her bio; the second snapshot comes twice. -/
theorem follows_last_ann :
    let es : List Lookups.Event :=
      [.call (.setter (.user (.student (Student.new "s_leeann"))) (.setBio "hello"))]
    let snapshots := [0, 1, 1].map
      (version TextOps.ascii (fun _ => none) (fun _ => "0.0") es annWorld annPath)
    (snapshots.foldlM IListenable.setPropertiesFromDoc annObject).isSome
      ∧ snapshots.foldlM IListenable.setPropertiesFromDoc annObject =
        snapshots.getLast?.elim (some annObject) annObject.setPropertiesFromDoc := by
  intro es
  have htame : ∀ e ∈ es, Tame e := by
    intro e he
    obtain rfl := List.mem_singleton.mp he
    trivial
  have hnot : NotNamed es annPath := by
    intro o code he
    simp [es] at he
  have hobject : Object .student annObject := trivial
  exact follows_last (m := .student) tame_run_ann htame hnot hobject (by decide)

end Example

end GradeIo.Listening
