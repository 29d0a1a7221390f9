import GradeIo.StoredFields

/-!
# The two ways to read a document

A document is read by the decoder as a whole (`init?(dictionary:)`) or copied
field by field into an object (`SetPropertiesFromDoc`). The documents in
question are those that the setters and the add operations leave.

On such a document the two ways agree if and only if it holds none of the
fields that one of them does not understand (`agree_iff`).
-/

namespace GradeIo.ReadPaths

open DocDb Transition Keyed

/-! ## Agreement -/

/-- The document decodes, and every object with its id that reads a snapshot of
it agrees with what is decoded. -/
def BothWays {C : Type} (ofDictionary : Dict → Option C) (read : C → Doc → Option C)
    (id : C → Option String) (Agree : Doc → C → C → Prop) (n : String) (d : Doc) : Prop :=
  ∃ decoded, ofDictionary (Doc.data d) = some decoded
    ∧ ∀ o, id o = some n → ∃ o', read o d = some o' ∧ Agree d decoded o'

/-- Every property that one of the two fills is the same. -/
structure AssignmentsAgree (d : Doc) (a o : Assignment) : Prop where
  results : d[Strings.results]? ≠ none → a.results = o.results
  problems : d[Strings.problems]? ≠ none → a.problems = o.problems
  dueDate : d[Strings.dueDate]? ≠ none → a.dueDate = o.dueDate
  id : d[Strings.id]? ≠ none → a.id = o.id
  classID : d[Strings.classID]? ≠ none → a.classID = o.classID
  filePath : d[Strings.filePath]? ≠ none → a.filePath = o.filePath
  description : d[Strings.description]? ≠ none → a.description = o.description
  name : d[Strings.name]? ≠ none → a.name = o.name

structure UsersAgree (d : Doc) (u o : BaseUser) : Prop where
  id : d[Strings.id]? ≠ none → u.id = o.id
  firstName : d[Strings.firstName]? ≠ none → u.firstName = o.firstName
  lastName : d[Strings.lastName]? ≠ none → u.lastName = o.lastName
  email : d[Strings.email]? ≠ none → u.email = o.email
  bio : d[Strings.bio]? ≠ none → u.bio = o.bio
  photoPath : d[Strings.photoPath]? ≠ none → u.photoPath = o.photoPath
  pronouns : d[Strings.pronouns]? ≠ none → u.pronouns = o.pronouns
  userType : d["userType"]? ≠ none → u.userType = o.userType

structure StudentsAgree (d : Doc) (s o : Student) : Prop where
  base : UsersAgree d s.toBaseUser o.toBaseUser
  gpa : d[Strings.gpa]? ≠ none → s.gpa = o.gpa
  classID : d[Strings.classID]? ≠ none → s.classID = o.classID
  parentID : d[Strings.parentID]? ≠ none → s.parentID = o.parentID

structure TeachersAgree (d : Doc) (t o : Teacher) : Prop where
  base : UsersAgree d t.toBaseUser o.toBaseUser
  phone : d[Strings.phone]? ≠ none → t.phone = o.phone
  classID : d[Strings.classID]? ≠ none → t.classID = o.classID

structure ParentsAgree (d : Doc) (p o : Parent) : Prop where
  base : UsersAgree d p.toBaseUser o.toBaseUser
  phone : d[Strings.phone]? ≠ none → p.phone = o.phone
  students : d[Strings.students]? ≠ none → p.students = o.students

/-- The two ways have different keys for the meeting info. -/
structure ClassroomsAgree (d : Doc) (c o : Classroom) : Prop where
  id : d[Strings.id]? ≠ none → c.id = o.id
  teacherID : d[Strings.teacherID]? ≠ none → c.teacherID = o.teacherID
  studentIDs : d[Strings.studentIDs]? ≠ none → c.studentIDs = o.studentIDs
  assignmentIDs : d[Strings.assignmentIDs]? ≠ none → c.assignmentIDs = o.assignmentIDs
  name : d[Strings.name]? ≠ none → c.name = o.name
  meetingInfo : d["meetingInfo"]? ≠ none ∨ d[Strings.meetingInfo]? ≠ none →
    c.meetingInfo = o.meetingInfo

def Model.ReadsAgree : Model → String → Doc → Prop
  | assignment => BothWays Assignment.ofDictionary Assignment.setPropertiesFromDoc Assignment.id
      AssignmentsAgree
  | student => BothWays Student.ofDictionary Student.setPropertiesFromDoc (fun s => s.id)
      StudentsAgree
  | teacher => BothWays Teacher.ofDictionary Teacher.setPropertiesFromDoc (fun t => t.id)
      TeachersAgree
  | parent => BothWays Parent.ofDictionary Parent.setPropertiesFromDoc (fun p => p.id)
      ParentsAgree
  | classroom => BothWays Classroom.ofDictionary Classroom.setPropertiesFromDoc Classroom.id
      ClassroomsAgree

/-- The document holds its own name as the id, if any, and no field that one of
the two ways cannot read or does not know. -/
def Model.Readable (m : Model) (n : String) (d : Doc) : Prop :=
  (d[Strings.id]? = none ∨ d[Strings.id]? = some (.string n)) ∧
    match m with
    | assignment => d[Strings.dueDate]? = none ∧ d[Strings.name]? = none
    | student => d[Strings.gpa]? = none ∧ d[Strings.parentID]? = none
        ∧ d[Strings.classID]? ≠ some .null
    | teacher => d[Strings.phone]? = none
    | parent => d[Strings.phone]? = none
    | classroom => ∀ vs, d[Strings.teacherID]? ≠ some (.array vs)

section

variable {m : Model} {d : Doc} {n k : String}

theorem holds_text (h : ∀ k v, d[k]? = some v → m.Allows k v) (hlist : k ∉ m.lists)
    (hnull : ¬ (m = .student ∧ k = Strings.classID))
    (hassignment : k ∉ [Strings.dueDate, Strings.results, Strings.problems]) :
    Holds asString d k := by
  intro v hv
  have hallow := h k v hv
  cases v with
  | string s => exact ⟨by simp, s, rfl⟩
  | null => exact absurd hallow hnull
  | timestamp t =>
      obtain ⟨-, rfl⟩ := hallow
      exact absurd List.mem_cons_self hassignment
  | array vs =>
      rcases hallow with ⟨hk, -⟩ | ⟨-, rfl, -⟩ | ⟨-, rfl, -⟩
      · exact absurd hk hlist
      · exact absurd (by simp) hassignment
      · exact absurd (by simp) hassignment
  | _ => exact hallow.elim

theorem holds_list (h : ∀ k v, d[k]? = some v → m.Allows k v) (htext : k ∉ m.texts)
    (hassignment : m ≠ .assignment) (hstudent : m ≠ .student) :
    Holds (asArray asString) d k := by
  intro v hv
  obtain ⟨l, rfl⟩ := Model.list_of_allows (h k v hv) htext hassignment hstudent
  have hstring : ∀ text : String, asString (.string text) = some text := fun _ => rfl
  exact ⟨by simp, l, asArray_map hstring l⟩

/-- A field that nothing writes. -/
theorem getElem?_eq_none (h : ∀ k v, d[k]? = some v → m.Allows k v) (htext : k ∉ m.texts)
    (hlist : k ∉ m.lists)
    (hother : k ∉ [Strings.dueDate, Strings.results, Strings.problems, Strings.classID]) :
    d[k]? = none := by
  cases hv : d[k]? with
  | none => rfl
  | some v =>
      exfalso
      have hallow := h k v hv
      cases v with
      | string s => exact htext hallow
      | null => exact hother (by simp [hallow.2])
      | timestamp t => exact hother (by simp [hallow.2])
      | array vs =>
          rcases hallow with ⟨hk, -⟩ | ⟨-, rfl, -⟩ | ⟨-, rfl, -⟩
          · exact hlist hk
          · exact hother (by simp)
          · exact hother (by simp)
      | _ => exact hallow

/-- The documents are JSON but for the dates. -/
theorem isValidJSONObject_data (h : ∀ k v, d[k]? = some v → m.Allows k v)
    (hdate : m = .assignment → d[Strings.dueDate]? = none) :
    isValidJSONObject (Doc.data d) = true := by
  refine isValidJSONObject_iff.mpr fun ⟨k, v⟩ hp => ?_
  have hv := Doc.mem_data.mp hp
  have hallow := h k v hv
  cases v with
  | timestamp t =>
      obtain ⟨hm, rfl⟩ := hallow
      rw [hdate hm] at hv
      cases hv
  | array vs =>
      rcases hallow with ⟨-, l, rfl⟩ | ⟨-, -, rs, rfl⟩ | ⟨-, -, ps, rfl⟩
      · exact Result.isJSONList_map _ (fun _ => rfl) l
      · exact Result.isJSONList_map _ (fun r => r.isValid_getDictionary) rs
      · exact Result.isJSONList_map _ (fun p => p.isValid_getDictionary) ps
  | string s => rfl
  | null => rfl
  | _ => exact hallow.elim

/-! ### Assignments -/

/-- How the decoder reads a list of encoded elements. -/
def asList {α : Type} (decode : Dict → Option α) : Value → Option (List α) :=
  asArray fun v => (asDict v).bind decode

theorem asList_map {α : Type} {enc : α → Dict} {decode : Dict → Option α}
    (h : ∀ x, decode (enc x) = some x) (xs : List α) :
    asList decode (.array (xs.map fun x => .map (enc x))) = some xs := by
  have hdecode : ∀ x, (asDict (.map (enc x))).bind decode = some x := h
  exact asArray_map hdecode xs

/-- Both ways read a list of encoded elements, or leave it. -/
theorem castList_of_holds {α : Type} {enc : α → Dict} {decode ofDictionary : Dict → Option α}
    (hdec : ∀ x, decode (enc x) = some x) (hof : ∀ x, ofDictionary (enc x) = some x)
    (h : ∀ v, d[k]? = some v → ∃ xs : List α, v = .array (xs.map fun x => .map (enc x))) :
    Holds (asList decode) d k ∧ ∀ old, Assignment.castList ofDictionary d k old =
      some ((valueAt (asList decode) d k).or old) := by
  refine ⟨fun v hv => ?_, fun old => ?_⟩
  · obtain ⟨xs, rfl⟩ := h v hv
    exact ⟨by simp, xs, asList_map hdec xs⟩
  · cases hv : d[k]? with
    | none => simp [Assignment.castList, valueAt, hv]
    | some v =>
        obtain ⟨xs, rfl⟩ := h v hv
        rw [Assignment.castList_map hof hv, valueAt, hv, Option.bind_some, asList_map hdec, Option.some_or]

theorem valueAt_string (h : d[k]? = some (.string n)) : valueAt asString d k = some n := by
  rw [valueAt, h]
  rfl

/-- The id that is decoded is the object's if it is the document's name. -/
theorem id_agrees_iff (hid : Holds asString d Strings.id) :
    (d[Strings.id]? ≠ none → valueAt asString d Strings.id = some n) ↔
      (d[Strings.id]? = none ∨ d[Strings.id]? = some (.string n)) := by
  cases hv : d[Strings.id]? with
  | none => simp
  | some v =>
      obtain ⟨-, x, hx⟩ := hid v hv
      obtain ⟨s, rfl⟩ : ∃ s, v = .string s := by
        cases v with
        | string s => exact ⟨s, rfl⟩
        | _ => cases hx
      rw [valueAt_string hv]
      simp

/-- What the decoder makes of a document without a date. -/
def decodedAssignment (d : Doc) : Assignment where
  results := valueAt (asList Result.decode) d Strings.results
  problems := valueAt (asList Problem.decode) d Strings.problems
  dueDate := none
  id := valueAt asString d Strings.id
  classID := valueAt asString d Strings.classID
  filePath := valueAt asString d Strings.filePath
  description := valueAt asString d Strings.description
  name := valueAt asString d Strings.name

theorem ofDictionary_assignment (h : ∀ k v, d[k]? = some v → Model.assignment.Allows k v)
    (hdate : d[Strings.dueDate]? = none) :
    Assignment.ofDictionary (Doc.data d) = some (decodedAssignment d) := by
  have htext : ∀ {k}, k ∉ [Strings.dueDate, Strings.results, Strings.problems] →
      Holds asString d k := fun hk => holds_text h (by simp [Model.lists]) (by simp) hk
  obtain ⟨hresults, -⟩ := castList_of_holds Result.decode_getDictionary
    Result.ofDictionary_getDictionary (fun v hv => Model.results_of_allows (h Strings.results v hv))
  obtain ⟨hproblems, -⟩ := castList_of_holds Problem.decode_getDictionary
    Problem.ofDictionary_getDictionary
    (fun v hv => Model.problems_of_allows (h Strings.problems v hv))
  have hdate' : decodeIfPresent asTimestamp (Doc.data d) Strings.dueDate = some none := by
    rw [decodeIfPresent, Doc.lookup_data, hdate]
  have hresults := hresults.decode
  have hproblems := hproblems.decode
  rw [asList] at hresults hproblems
  rw [Assignment.ofDictionary, initDictionary, if_pos (isValidJSONObject_data h fun _ => hdate),
    Assignment.decode]
  simp only [hresults, hproblems, hdate', (htext (k := Strings.id) (by decide)).decode,
    (htext (k := Strings.classID) (by decide)).decode,
    (htext (k := Strings.filePath) (by decide)).decode,
    (htext (k := Strings.description) (by decide)).decode,
    (htext (k := Strings.name) (by decide)).decode, Option.bind_eq_bind, Option.bind_some]
  rfl

theorem ofDictionary_assignment_none (h : ∀ k v, d[k]? = some v → Model.assignment.Allows k v)
    (hdate : d[Strings.dueDate]? ≠ none) : Assignment.ofDictionary (Doc.data d) = none := by
  obtain ⟨v, hv⟩ := Option.ne_none_iff_exists'.mp hdate
  have hallow := h _ v hv
  have hinvalid : v.isJSON = false := by
    cases v with
    | string s =>
        have hnot : Strings.dueDate ∉ Model.assignment.texts := by decide
        exact absurd hallow hnot
    | null => exact absurd hallow.2 (by decide)
    | timestamp t => rfl
    | array vs =>
        rcases hallow with ⟨hk, -⟩ | ⟨-, hk, -⟩ | ⟨-, hk, -⟩
        · exact absurd hk (by decide)
        · exact absurd hk (by decide)
        · exact absurd hk (by decide)
    | _ => exact hallow.elim
  exact initDictionary_of_invalid (isValidJSONObject_eq_false (Doc.mem_data.mpr hv) hinvalid)

/-- What a snapshot makes of an object. -/
theorem snapshot_assignment (h : ∀ k v, d[k]? = some v → Model.assignment.Allows k v)
    (hdate : d[Strings.dueDate]? = none) (o : Assignment) :
    o.setPropertiesFromDoc d = some
      { o with
        results := (decodedAssignment d).results.or o.results
        problems := (decodedAssignment d).problems.or o.problems
        classID := (decodedAssignment d).classID.or o.classID
        filePath := (decodedAssignment d).filePath.or o.filePath
        description := (decodedAssignment d).description.or o.description } := by
  have htext : ∀ {k}, k ∉ [Strings.dueDate, Strings.results, Strings.problems] →
      Holds asString d k := fun hk => holds_text h (by simp [Model.lists]) (by simp) hk
  obtain ⟨-, hresults⟩ := castList_of_holds Result.decode_getDictionary
    Result.ofDictionary_getDictionary (fun v hv => Model.results_of_allows (h Strings.results v hv))
  obtain ⟨-, hproblems⟩ := castList_of_holds Problem.decode_getDictionary
    Problem.ofDictionary_getDictionary
    (fun v hv => Model.problems_of_allows (h Strings.problems v hv))
  exact Assignment.setPropertiesFromDoc_eq_some.mpr ⟨hproblems _, hresults _,
    castField_of_none hdate _, (htext (by decide)).cast _, (htext (by decide)).cast _,
    (htext (by decide)).cast _, rfl, rfl⟩

theorem assignment_agree_iff (h : ∀ k v, d[k]? = some v → Model.assignment.Allows k v)
    (n : String) : Model.assignment.ReadsAgree n d ↔ Model.assignment.Readable n d := by
  have htext : ∀ {k}, k ∉ [Strings.dueDate, Strings.results, Strings.problems] →
      Holds asString d k := fun hk => holds_text h (by simp [Model.lists]) (by simp) hk
  have hid := id_agrees_iff (n := n) (htext (k := Strings.id) (by decide))
  constructor
  · rintro ⟨a, hdec, hagree⟩
    have hdate : d[Strings.dueDate]? = none := by
      by_contra hdate
      rw [ofDictionary_assignment_none h hdate] at hdec
      cases hdec
    rw [ofDictionary_assignment h hdate] at hdec
    obtain rfl := Option.some.inj hdec
    -- an object that has nothing but its id
    obtain ⟨o', hread, hsame⟩ := hagree ⟨none, none, none, some n, none, none, none, none⟩ rfl
    rw [snapshot_assignment h hdate] at hread
    obtain rfl := Option.some.inj hread
    refine ⟨hid.mp hsame.id, hdate, ?_⟩
    by_contra hname
    exact hname ((valueAt_eq_none_iff (htext (by decide))).mp (hsame.name hname))
  · rintro ⟨hidn, hdate, hname⟩
    obtain ⟨hresults, -⟩ := castList_of_holds Result.decode_getDictionary
      Result.ofDictionary_getDictionary
      (fun v hv => Model.results_of_allows (h Strings.results v hv))
    obtain ⟨hproblems, -⟩ := castList_of_holds Problem.decode_getDictionary
      Problem.ofDictionary_getDictionary
      (fun v hv => Model.problems_of_allows (h Strings.problems v hv))
    refine ⟨_, ofDictionary_assignment h hdate, fun o ho =>
      ⟨_, snapshot_assignment h hdate o, ?_⟩⟩
    exact
      { results := fun hk => hresults.or_eq hk _
        problems := fun hk => hproblems.or_eq hk _
        dueDate := fun hk => absurd hdate hk
        id := fun hk => (hid.mpr hidn hk).trans ho.symm
        classID := fun hk => (htext (by decide)).or_eq hk _
        filePath := fun hk => (htext (by decide)).or_eq hk _
        description := fun hk => (htext (by decide)).or_eq hk _
        name := fun hk => absurd hname hk }

/-! ### Users -/

/-- What the decoder makes of the fields of a user. -/
def decodedUser (d : Doc) : BaseUser where
  id := valueAt asString d Strings.id
  firstName := valueAt asString d Strings.firstName
  lastName := valueAt asString d Strings.lastName
  email := valueAt asString d Strings.email
  bio := valueAt asString d Strings.bio
  photoPath := valueAt asString d Strings.photoPath
  pronouns := valueAt asString d Strings.pronouns
  userType := valueAt asString d "userType"

/-- What a snapshot makes of the properties of a user. -/
def snapshotUser (d : Doc) (o : BaseUser) : BaseUser :=
  { o with
    firstName := (decodedUser d).firstName.or o.firstName
    lastName := (decodedUser d).lastName.or o.lastName
    email := (decodedUser d).email.or o.email
    bio := (decodedUser d).bio.or o.bio
    photoPath := (decodedUser d).photoPath.or o.photoPath
    pronouns := (decodedUser d).pronouns.or o.pronouns }

/-- The fields of a user hold text, and nothing writes the type. -/
structure UserFields (d : Doc) : Prop where
  text : ∀ k ∈ Model.userTexts, Holds asString d k
  userType : d["userType"]? = none

theorem UserFields.decode (h : UserFields d) :
    BaseUser.decode (Doc.data d) = some (decodedUser d) := by
  have htype : Holds asString d "userType" := holds_of_none h.userType
  rw [BaseUser.decode]
  simp only [(h.text Strings.id (by decide)).decode, (h.text Strings.firstName (by decide)).decode,
    (h.text Strings.lastName (by decide)).decode, (h.text Strings.email (by decide)).decode,
    (h.text Strings.bio (by decide)).decode, (h.text Strings.photoPath (by decide)).decode,
    (h.text Strings.pronouns (by decide)).decode, htype.decode, Option.bind_eq_bind,
    Option.bind_some]
  rfl

theorem UserFields.snapshot (h : UserFields d) (o : BaseUser) :
    o.setPropertiesFromDoc d = some (snapshotUser d o) :=
  BaseUser.setPropertiesFromDoc_eq_some.mpr ⟨(h.text _ (by decide)).cast _,
    (h.text _ (by decide)).cast _, (h.text _ (by decide)).cast _, (h.text _ (by decide)).cast _,
    (h.text _ (by decide)).cast _, (h.text _ (by decide)).cast _, rfl, rfl⟩

theorem UserFields.sameBase_iff (h : UserFields d) {o : BaseUser} (ho : o.id = some n) :
    UsersAgree d (decodedUser d) (snapshotUser d o) ↔
      (d[Strings.id]? = none ∨ d[Strings.id]? = some (.string n)) := by
  have hid := id_agrees_iff (n := n) (h.text Strings.id (by decide))
  constructor
  · exact fun hagree => hid.mp fun hk => (hagree.id hk).trans ho
  · intro hidn
    exact
      { id := fun hk => (hid.mpr hidn hk).trans ho.symm
        firstName := fun hk => (h.text _ (by decide)).or_eq hk _
        lastName := fun hk => (h.text _ (by decide)).or_eq hk _
        email := fun hk => (h.text _ (by decide)).or_eq hk _
        bio := fun hk => (h.text _ (by decide)).or_eq hk _
        photoPath := fun hk => (h.text _ (by decide)).or_eq hk _
        pronouns := fun hk => (h.text _ (by decide)).or_eq hk _
        userType := fun hk => absurd h.userType hk }

/-- A user that has nothing but its id. -/
def bareUser (n : String) : BaseUser := ⟨some n, none, none, none, none, none, none, none⟩

theorem student_fields (h : ∀ k v, d[k]? = some v → Model.student.Allows k v) : UserFields d where
  text k hk := by
    refine holds_text h (by simp [Model.lists]) ?_ ?_
    · rintro ⟨-, rfl⟩
      exact absurd hk (by decide)
    · intro hother
      simp only [List.mem_cons, List.not_mem_nil, or_false] at hother
      rcases hother with rfl | rfl | rfl <;> exact absurd hk (by decide)
  userType := getElem?_eq_none h (by decide) (by decide) (by decide)

theorem teacher_fields (h : ∀ k v, d[k]? = some v → Model.teacher.Allows k v) : UserFields d where
  text k hk := by
    refine holds_text h (by simp [Model.lists]) (by simp) fun hother => ?_
    simp only [List.mem_cons, List.not_mem_nil, or_false] at hother
    rcases hother with rfl | rfl | rfl <;> exact absurd hk (by decide)
  userType := getElem?_eq_none h (by decide) (by decide) (by decide)

theorem parent_fields (h : ∀ k v, d[k]? = some v → Model.parent.Allows k v) : UserFields d where
  text k hk := by
    refine holds_text h ?_ (by simp) fun hother => ?_
    · intro hlist
      obtain rfl := List.mem_singleton.mp hlist
      exact absurd hk (by decide)
    · simp only [List.mem_cons, List.not_mem_nil, or_false] at hother
      rcases hother with rfl | rfl | rfl <;> exact absurd hk (by decide)
  userType := getElem?_eq_none h (by decide) (by decide) (by decide)

theorem student_agree_iff (h : ∀ k v, d[k]? = some v → Model.student.Allows k v) (n : String) :
    Model.student.ReadsAgree n d ↔ Model.student.Readable n d := by
  have hfields := student_fields h
  have hparent : Holds asString d Strings.parentID :=
    holds_text h (by decide) (by decide) (by decide)
  constructor
  · rintro ⟨s, hdec, hagree⟩
    obtain ⟨o', hread, hsame⟩ := hagree ⟨bareUser n, none, none, none⟩ rfl
    obtain ⟨hbase, hgpa, hclass, hparentID⟩ := Student.setPropertiesFromDoc_eq_some.mp hread
    rw [hfields.snapshot] at hbase
    obtain ⟨hvalid, hdec⟩ := Option.ite_none_right_eq_some.mp hdec
    simp only [Student.decode, hfields.decode, Option.bind_eq_bind, Option.bind_eq_some_iff] at hdec
    obtain ⟨gpa, hgpa', classID, hclass', parentID, hparentID', _, hbase', hs⟩ := hdec
    obtain rfl := Option.some.inj hbase'
    obtain rfl := Option.some.inj hs
    refine ⟨?_, ?_, ?_, ?_⟩
    · exact (hfields.sameBase_iff rfl).mp (Option.some.inj hbase ▸ hsame.base)
    · -- text is no number
      by_contra hk
      obtain ⟨v, hv⟩ := Option.ne_none_iff_exists'.mp hk
      obtain ⟨hne, text, htext⟩ := holds_text h (by decide) (by decide) (by decide) v hv
      cases v with
      | string text => simp [decodeIfPresent, Doc.lookup_data, hv] at hgpa'
      | _ => cases htext
    · by_contra hk
      rw [hparent.decode] at hparentID'
      obtain rfl := Option.some.inj hparentID'
      exact hk ((valueAt_eq_none_iff hparent).mp ((hsame.parentID hk).trans hparentID))
    · intro hnull
      simp [castField, hnull, asString] at hclass
  · rintro ⟨hidn, hgpa, hparentID, hnull⟩
    have hclass : Holds asString d Strings.classID := by
      intro v hv
      have hallow := h _ v hv
      cases v with
      | string s => exact ⟨by simp, s, rfl⟩
      | null => exact absurd hv hnull
      | timestamp t => exact absurd hallow.1 (by decide)
      | array vs =>
          rcases hallow with ⟨hk, -⟩ | ⟨hm, -⟩ | ⟨hm, -⟩
          · exact absurd hk (by decide)
          · exact absurd hm (by decide)
          · exact absurd hm (by decide)
      | _ => exact hallow.elim
    have hgpa' : decodeIfPresent asNumber (Doc.data d) Strings.gpa = some none := by
      rw [decodeIfPresent, Doc.lookup_data, hgpa]
    refine ⟨⟨decodedUser d, none, valueAt asString d Strings.classID,
      valueAt asString d Strings.parentID⟩, ?_, fun o ho => ⟨⟨snapshotUser d o.toBaseUser, o.gpa,
        (valueAt asString d Strings.classID).or o.classID, o.parentID⟩, ?_, ?_⟩⟩
    · rw [Student.ofDictionary, initDictionary, if_pos (isValidJSONObject_data h (by simp)),
        Student.decode]
      simp only [hgpa', hclass.decode, hparent.decode, hfields.decode, Option.bind_eq_bind,
        Option.bind_some]
    · refine Student.setPropertiesFromDoc_eq_some.mpr ⟨hfields.snapshot _, ?_, hclass.cast _, rfl⟩
      rw [gpaField, hgpa]
    · exact
        { base := (hfields.sameBase_iff ho).mpr hidn
          gpa := fun hk => absurd hgpa hk
          classID := fun hk => hclass.or_eq hk _
          parentID := fun hk => absurd hparentID hk }

theorem BaseAdult.decode_eq (hfields : UserFields d) (hphone : Holds asString d Strings.phone) :
    BaseAdult.decode (Doc.data d) = some ⟨decodedUser d, valueAt asString d Strings.phone⟩ := by
  rw [BaseAdult.decode]
  simp only [hphone.decode, hfields.decode, Option.bind_eq_bind, Option.bind_some]

theorem teacher_agree_iff (h : ∀ k v, d[k]? = some v → Model.teacher.Allows k v) (n : String) :
    Model.teacher.ReadsAgree n d ↔ Model.teacher.Readable n d := by
  have hfields := teacher_fields h
  have hphone : Holds asString d Strings.phone :=
    holds_text h (by decide) (by decide) (by decide)
  have hclass : Holds asString d Strings.classID :=
    holds_text h (by decide) (by decide) (by decide)
  have hdec : Teacher.ofDictionary (Doc.data d) = some
      ⟨⟨decodedUser d, valueAt asString d Strings.phone⟩, valueAt asString d Strings.classID⟩ := by
    rw [Teacher.ofDictionary, initDictionary, if_pos (isValidJSONObject_data h (by simp)),
      Teacher.decode]
    simp only [hclass.decode, BaseAdult.decode_eq hfields hphone, Option.bind_eq_bind,
      Option.bind_some]
  have hread : ∀ o : Teacher, o.setPropertiesFromDoc d = some
      ⟨⟨snapshotUser d o.toBaseUser, o.phone⟩, (valueAt asString d Strings.classID).or o.classID⟩ :=
    fun o => Teacher.setPropertiesFromDoc_eq_some.mpr ⟨hfields.snapshot _, hclass.cast _, rfl⟩
  constructor
  · rintro ⟨t, ht, hagree⟩
    obtain rfl := Option.some.inj (hdec.symm.trans ht)
    obtain ⟨o', ho', hsame⟩ := hagree ⟨⟨bareUser n, none⟩, none⟩ rfl
    obtain rfl := Option.some.inj ((hread _).symm.trans ho')
    refine ⟨(hfields.sameBase_iff rfl).mp hsame.base, ?_⟩
    by_contra hk
    exact hk ((valueAt_eq_none_iff hphone).mp (hsame.phone hk))
  · rintro ⟨hidn, hnone⟩
    exact ⟨_, hdec, fun o ho => ⟨_, hread o,
      { base := (hfields.sameBase_iff ho).mpr hidn
        phone := fun hk => absurd hnone hk
        classID := fun hk => hclass.or_eq hk _ }⟩⟩

theorem parent_agree_iff (h : ∀ k v, d[k]? = some v → Model.parent.Allows k v) (n : String) :
    Model.parent.ReadsAgree n d ↔ Model.parent.Readable n d := by
  have hfields := parent_fields h
  have hphone : Holds asString d Strings.phone :=
    holds_text h (by decide) (by decide) (by decide)
  have hstudents : Holds (asArray asString) d Strings.students :=
    holds_list h (by decide) (by decide) (by decide)
  have hdec : Parent.ofDictionary (Doc.data d) = some
      ⟨⟨decodedUser d, valueAt asString d Strings.phone⟩,
        valueAt (asArray asString) d Strings.students⟩ := by
    rw [Parent.ofDictionary, initDictionary, if_pos (isValidJSONObject_data h (by simp)),
      Parent.decode]
    simp only [hstudents.decode, BaseAdult.decode_eq hfields hphone, Option.bind_eq_bind,
      Option.bind_some]
  have hread : ∀ o : Parent, o.setPropertiesFromDoc d = some
      ⟨⟨snapshotUser d o.toBaseUser, o.phone⟩,
        (valueAt (asArray asString) d Strings.students).or o.students⟩ :=
    fun o => Parent.setPropertiesFromDoc_eq_some.mpr ⟨hfields.snapshot _, hstudents.cast _, rfl⟩
  constructor
  · rintro ⟨q, hq, hagree⟩
    obtain rfl := Option.some.inj (hdec.symm.trans hq)
    obtain ⟨o', ho', hsame⟩ := hagree ⟨⟨bareUser n, none⟩, none⟩ rfl
    obtain rfl := Option.some.inj ((hread _).symm.trans ho')
    refine ⟨(hfields.sameBase_iff rfl).mp hsame.base, ?_⟩
    by_contra hk
    exact hk ((valueAt_eq_none_iff hphone).mp (hsame.phone hk))
  · rintro ⟨hidn, hnone⟩
    exact ⟨_, hdec, fun o ho => ⟨_, hread o,
      { base := (hfields.sameBase_iff ho).mpr hidn
        phone := fun hk => absurd hnone hk
        students := fun hk => hstudents.or_eq hk _ }⟩⟩

/-! ### Classrooms -/

/-- The teacher's id of a class is text, or the list that the meeting info
leaves in its place. -/
theorem classroom_agree_iff (h : ∀ k v, d[k]? = some v → Model.classroom.Allows k v)
    (n : String) : Model.classroom.ReadsAgree n d ↔ Model.classroom.Readable n d := by
  have hidText : Holds asString d Strings.id :=
    holds_text h (by decide) (by decide) (by decide)
  have hname : Holds asString d Strings.name :=
    holds_text h (by decide) (by decide) (by decide)
  have hstudents : Holds (asArray asString) d Strings.studentIDs :=
    holds_list h (by decide) (by decide) (by decide)
  have hassignments : Holds (asArray asString) d Strings.assignmentIDs :=
    holds_list h (by decide) (by decide) (by decide)
  have hinfo : d["meetingInfo"]? = none := getElem?_eq_none h (by decide) (by decide) (by decide)
  have hInfo : d[Strings.meetingInfo]? = none :=
    getElem?_eq_none h (by decide) (by decide) (by decide)
  have hid := id_agrees_iff (n := n) hidText
  have hteacher : (∀ vs, d[Strings.teacherID]? ≠ some (.array vs)) →
      Holds asString d Strings.teacherID := by
    intro harray v hv
    have hallow := h _ v hv
    cases v with
    | string s => exact ⟨by simp, s, rfl⟩
    | array vs => exact absurd hv (harray vs)
    | null => exact absurd hallow.1 (by decide)
    | timestamp t => exact absurd hallow.1 (by decide)
    | _ => exact hallow.elim
  have hdec : ∀ teacherID, decodeIfPresent asString (Doc.data d) Strings.teacherID = some teacherID →
      Classroom.ofDictionary (Doc.data d) = some
        ⟨valueAt asString d Strings.id, teacherID, valueAt (asArray asString) d Strings.studentIDs,
          valueAt (asArray asString) d Strings.assignmentIDs, valueAt asString d Strings.name,
          none⟩ := by
    intro teacherID hteacherID
    have hinfo' : decodeIfPresent asStringDict (Doc.data d) "meetingInfo" = some none := by
      rw [decodeIfPresent, Doc.lookup_data, hinfo]
    rw [Classroom.ofDictionary, initDictionary, if_pos (isValidJSONObject_data h (by simp)),
      Classroom.decode]
    simp only [hidText.decode, hteacherID, hstudents.decode, hassignments.decode, hname.decode,
      hinfo', Option.bind_eq_bind, Option.bind_some]
  constructor
  · rintro ⟨c, hc, hagree⟩
    have harray : ∀ vs, d[Strings.teacherID]? ≠ some (.array vs) := by
      intro vs hvs
      obtain ⟨-, hc⟩ := Option.ite_none_right_eq_some.mp hc
      simp [Classroom.decode, decodeIfPresent, Doc.lookup_data, hvs, asString] at hc
    refine ⟨?_, harray⟩
    obtain rfl := Option.some.inj ((hdec _ (hteacher harray).decode).symm.trans hc)
    obtain ⟨o', ho', hsame⟩ := hagree ⟨some n, none, none, none, none, none⟩ rfl
    obtain ⟨-, -, -, -, -, hid'⟩ := Classroom.setPropertiesFromDoc_eq_some.mp ho'
    exact hid.mp fun hk => (hsame.id hk).trans hid'
  · rintro ⟨hidn, harray⟩
    have hteacher := hteacher harray
    refine ⟨_, hdec _ hteacher.decode, fun o ho => ⟨⟨o.id,
      (valueAt asString d Strings.teacherID).or o.teacherID,
      (valueAt (asArray asString) d Strings.studentIDs).or o.studentIDs,
      (valueAt (asArray asString) d Strings.assignmentIDs).or o.assignmentIDs,
      (valueAt asString d Strings.name).or o.name, o.meetingInfo⟩, ?_, ?_⟩⟩
    · exact Classroom.setPropertiesFromDoc_eq_some.mpr ⟨hteacher.cast _, hstudents.cast _,
        hassignments.cast _, hname.cast _, castField_of_none hInfo _, rfl⟩
    · exact
        { id := fun hk => (hid.mpr hidn hk).trans ho.symm
          teacherID := fun hk => hteacher.or_eq hk _
          studentIDs := fun hk => hstudents.or_eq hk _
          assignmentIDs := fun hk => hassignments.or_eq hk _
          name := fun hk => hname.or_eq hk _
          meetingInfo := fun hk => (hk.elim (fun hk => absurd hinfo hk) fun hk => absurd hInfo hk) }

/-- On every document that the calls can leave, the two ways agree exactly if
it is readable. -/
theorem agree_iff [TextOps] {dateFromString : String → Option Rat} {description : Rat → String}
    {σ : World} (hσ : (system dateFromString description).Reachable σ)
    (hd : σ.store.get? ⟨m.collection, n⟩ = some d) : m.ReadsAgree n d ↔ m.Readable n d := by
  have h := allows_of_reachable hσ hd
  cases m with
  | assignment => exact assignment_agree_iff h n
  | student => exact student_agree_iff h n
  | teacher => exact teacher_agree_iff h n
  | parent => exact parent_agree_iff h n
  | classroom => exact classroom_agree_iff h n

end

/-! ## Two documents -/

section Example

attribute [local instance] TextOps.ascii

def ann : IUser := .student (Student.new "s_ann")

/-- Ann signs up, corrects her name and is added to a class. -/
def annCalls : List Call :=
  [.setUserID ann "s_ann", .setter (.user ann) (.setFirstName "An"),
    .setter (.user ann) (.setLastName "Lee"), .setter (.user ann) (.setFirstName "Ann"),
    .addStudent ⟨some "art", none, some [], none, none, none⟩ "s_ann"]

def annDoc : Doc :=
  ((((∅ : Doc).insert Strings.id (.string "s_ann")).insert Strings.firstName (.string "Ann")).insert
    Strings.lastName (.string "Lee")).insert Strings.classID (.string "art")

theorem agree_annDoc :
    ∃ σ, (system (fun _ => none) fun _ => "").replay emptyWorld annCalls = some σ
      ∧ σ.store.get? ⟨"Student", "s_ann"⟩ = some annDoc
      ∧ Model.student.ReadsAgree "s_ann" annDoc := by
  have h₀ : (system (fun _ => none) fun _ => "").Init emptyWorld := rfl
  obtain ⟨σ, hσ⟩ : ∃ σ, (system (fun _ => none) fun _ => "").replay emptyWorld annCalls = some σ :=
    ⟨_, rfl⟩
  have hd : σ.store.get? ⟨"Student", "s_ann"⟩ = some annDoc := by
    obtain rfl := Option.some.inj hσ
    decide +kernel
  have hreadable : Model.student.Readable "s_ann" annDoc :=
    ⟨Or.inr (by decide), by decide, by decide, by decide⟩
  have hagree : Model.student.ReadsAgree "s_ann" annDoc :=
    (agree_iff (m := .student) (System.reachable_of_replay h₀ hσ) hd).mpr hreadable
  exact ⟨σ, hσ, hd, hagree⟩

/-- An assignment with a due date does not decode. -/
theorem not_agree_dueDate :
    ∃ σ d, (system (fun _ => some 0) fun _ => "").Reachable σ
      ∧ σ.store.get? ⟨"Assignment", "quiz"⟩ = some d
      ∧ ¬ Model.assignment.ReadsAgree "quiz" d := by
  let σ := App.after ((Call.setter (.assignment (Assignment.new "quiz" 0))
    (.setDueDate "01/01/01")).run (fun _ => some 0) fun _ => "") emptyWorld
  have h₀ : (system (fun _ => some 0) fun _ => "").Init emptyWorld := rfl
  have hσ : (system (fun _ => some 0) fun _ => "").Reachable σ := .step (.init h₀) trivial rfl
  have hd : σ.store.get? ⟨"Assignment", "quiz"⟩ =
      some ((∅ : Doc).insert Strings.dueDate (.timestamp 0)) := by decide
  refine ⟨σ, _, hσ, hd, ?_⟩
  rintro ⟨a, hdec, -⟩
  have hnone : Assignment.ofDictionary
      (Doc.data ((∅ : Doc).insert Strings.dueDate (.timestamp 0))) = none := by decide
  rw [hnone] at hdec
  cases hdec

end Example

end GradeIo.ReadPaths
