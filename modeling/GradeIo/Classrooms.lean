import GradeIo.AddStudent
import GradeIo.Effects
import GradeIo.Lib.Listener
import GradeIo.Snapshots

/-!
# Two classrooms

The setters and the add methods of two classrooms, called in any order.
`Call.writes` is what a call writes, in program order; `Last` is what was last
set through a classroom, and `GivesBack` that a snapshot of its document shows
it.

Only `SetName` and `AddAssignment` keep to the classroom's own document: the
other methods address a document by the name of a field. What one classroom
was given is kept for as long as such a call is made on a classroom whose
document has that name by chance (`given_back_of_safe`).
-/

namespace GradeIo.Classrooms

open DocDb Transition Keyed

inductive Call where
  | setTeacherID (newTeacherID : String)
  | setStudents (newStudents : List String)
  | setAssignments (newAssignments : List String)
  | setName (newName : String)
  | setMeetingInfo (newMeetingInfo : List String)
  | addAssignment (newAssignment : String)
  | addStudent (newStudent : String)

namespace Call

/-- The call, made on `c`; it gives the object afterwards. -/
def run (c : Classroom) : Call → App Classroom
  | setTeacherID v => do App.perform (Classroom.setTeacherID v); pure c
  | setStudents v => do App.perform (Classroom.setStudents v); pure c
  | setAssignments v => do App.perform (Classroom.setAssignments v); pure c
  | setName v => do App.perform (c.setName v); pure c
  | setMeetingInfo v => do App.perform (Classroom.setMeetingInfo v); pure c
  | addAssignment x => do
      let (c', w) ← App.unwrap (c.addAssignment x)
      App.perform (some w)
      pure c'
  | addStudent x => c.addStudent x

/-- The writes in program order; the first that is `none` traps. -/
def writes (c : Classroom) : Call → List (Option Write)
  | setTeacherID v => [Classroom.setTeacherID v]
  | setStudents v => [Classroom.setStudents v]
  | setAssignments v => [Classroom.setAssignments v]
  | setName v => [c.setName v]
  | setMeetingInfo v => [Classroom.setMeetingInfo v]
  | addAssignment x => [(c.addAssignment x).map Prod.snd]
  | addStudent x =>
      match c.studentIDs with
      | none => [none]
      | some studentIDs =>
          [Classroom.setStudents (studentIDs ++ [x]),
           DatabaseHelper.savePropertyToDatabase Strings.student x Strings.classID
            (c.id.elim .null .string),
           c.ref.map fun r => .unionMerge r Strings.studentIDs (.string x)]

end Call

/-- The writes before the first trap. -/
def issued : List (Option Write) → List Write
  | some w :: ws => w :: issued ws
  | _ => []

/-- What was last set through a classroom. -/
structure Last where
  teacherID : Option String
  studentIDs : Option (List String)
  assignmentIDs : Option (List String)
  name : Option String
  meetingInfo : Option (List String)

def Last.set (l : Last) : Call → Last
  | .setTeacherID v => { l with teacherID := some v }
  | .setStudents v => { l with studentIDs := some v }
  | .setAssignments v => { l with assignmentIDs := some v }
  | .setName v => { l with name := some v }
  | .setMeetingInfo v => { l with meetingInfo := some v }
  | .addAssignment x =>
      { l with assignmentIDs := some (addIfAbsent (l.assignmentIDs.getD []) x) }
  | .addStudent x => { l with studentIDs := some (addIfAbsent (l.studentIDs.getD []) x) }

/-- The object has what was set; as a dictionary of texts it cannot have the
list that was set for the meeting info. -/
structure Last.GivesBack (l : Last) (c : Classroom) : Prop where
  teacherID : ∀ v, l.teacherID = some v → c.teacherID = some v
  studentIDs : ∀ v, l.studentIDs = some v → c.studentIDs = some v
  assignmentIDs : ∀ v, l.assignmentIDs = some v → c.assignmentIDs = some v
  name : ∀ v, l.name = some v → c.name = some v
  meetingInfo : l.meetingInfo = none

structure State where
  obj : Bool → Classroom
  world : World
  last : Bool → Last

/-- A call that traps sets nothing, but what it has written stays. -/
def step (s : State) : Bool × Call → Option State
  | (b, call) => some <| match (call.run (s.obj b)).run s.world with
      | .ok c σ =>
          { obj := Function.update s.obj b c
            world := σ
            last := Function.update s.last b ((s.last b).set call) }
      | .error _ σ => { s with world := σ }

/-- The writes of a call that are to be expected: to the own document, and the
class of the student that is added. -/
def InFrame (p : DocPath) (call : Call) (w : Write) : Prop :=
  w.path = p ∨ ∃ x q v, call = .addStudent x ∧ documentPath Strings.student x = some q
    ∧ w = .setMerge q Strings.classID v

/-- The own document is the one that the method addresses. -/
def Call.Framed (c : Classroom) (p : DocPath) : Call → Prop
  | setTeacherID _ => p = ⟨Strings.class, Strings.teacherID⟩
  | setStudents _ => p = ⟨Strings.class, Strings.studentIDs⟩
  | setAssignments _ => p = ⟨Strings.class, Strings.assignmentIDs⟩
  | setName _ => True
  | setMeetingInfo _ => p = ⟨Strings.class, Strings.meetingInfo⟩
  | addAssignment _ => True
  | addStudent _ => c.studentIDs = none ∨ p = ⟨Strings.class, Strings.studentIDs⟩

/-- The method sets the field that is read. -/
def Call.KeyRead : Call → Prop
  | setStudents _ => False
  | setAssignments _ => False
  | setMeetingInfo _ => False
  | _ => True

/-! ## The writes of a call -/

section

variable {σ : World} {c : Classroom} {p : DocPath}

/-- The own document, by the setters that go to it. -/
theorem setName_eq (hp : c.ref = some p) (v : String) :
    c.setName v = some (.setMerge p Strings.name (.string v)) := by
  obtain ⟨id, hid, hpath⟩ := Option.bind_eq_some_iff.mp hp
  rw [Classroom.setName, hid, Option.bind_some, DatabaseHelper.savePropertyToDatabase, hpath]
  rfl

theorem addAssignment_eq (hp : c.ref = some p) (x : String) :
    c.addAssignment x = c.assignmentIDs.map fun ids =>
      ({ c with assignmentIDs := some (ids ++ [x]) },
        .unionMerge p Strings.assignmentIDs (.string x)) := by
  rw [Classroom.addAssignment, hp]
  cases c.assignmentIDs <;> rfl

theorem Call.after_run (call : Call) (c : Classroom) (σ : World) :
    (App.after (call.run c) σ).store = σ.store.applyAll (issued (call.writes c)) := by
  cases call with
  | setTeacherID v => rfl
  | setStudents v => rfl
  | setAssignments v => rfl
  | setMeetingInfo v => rfl
  | setName v =>
      rw [run, writes, App.after_bind]
      cases c.setName v <;> rfl
  | addAssignment x =>
      rw [run, writes, App.after_bind]
      cases c.addAssignment x <;> rfl
  | addStudent x =>
      rw [run, writes, Classroom.addStudent, App.after_bind]
      cases c.studentIDs with
      | none => rfl
      | some ids =>
          simp only [App.run_unwrap_some, setStudents_eq]
          cases DatabaseHelper.savePropertyToDatabase Strings.student x Strings.classID
              (c.id.elim .null .string) with
          | none => rfl
          | some w => cases c.ref <;> rfl

/-- The setters that address a document by the name of a field. -/
theorem saveClass_eq {name : String} (hne : name ≠ "") (h : '/' ∉ name.toList) (key : String)
    (v : Value) : DatabaseHelper.savePropertyToDatabase Strings.class name key v =
      some (.setMerge ⟨Strings.class, name⟩ key v) := by
  rw [DatabaseHelper.savePropertyToDatabase, documentPath_of_no_slash hne h]
  rfl

/-- A document of a student is no document of a class. -/
theorem student_ne_class {x name : String} {q : DocPath}
    (hq : documentPath Strings.student x = some q) : (⟨Strings.class, name⟩ : DocPath) ≠ q := by
  rintro rfl
  have hhead : Strings.class.toList.head? = Strings.student.toList.head? :=
    head?_collection_of_documentPath (by decide) hq
  exact absurd hhead (by decide)

theorem inFrame_of_ne {call : Call} {name key : String} {v : Value}
    (h : InFrame p call (.setMerge ⟨Strings.class, name⟩ key v)) :
    p = ⟨Strings.class, name⟩ := by
  rcases h with h | ⟨x, q, v', -, hq, heq⟩
  · exact h.symm
  · injection heq with hpath
    exact absurd hpath (student_ne_class hq)

/-- Every write of a call is one to be expected exactly if the own document is
the one that the method addresses. -/
theorem framed_iff (hp : c.ref = some p) (call : Call) :
    (∀ w ∈ issued (call.writes c), InFrame p call w) ↔ call.Framed c p := by
  have hone : ∀ {call : Call} {name key : String} {v : Value},
      (∀ w ∈ [Write.setMerge ⟨Strings.class, name⟩ key v], InFrame p call w) ↔
        p = ⟨Strings.class, name⟩ := by
    intro call name key v
    rw [List.forall_mem_singleton]
    exact ⟨inFrame_of_ne, fun h => Or.inl h.symm⟩
  cases call with
  | setTeacherID v =>
      rw [Call.writes, Classroom.setTeacherID, saveClass_eq (by decide) (by decide)]
      exact hone
  | setStudents v =>
      rw [Call.writes, setStudents_eq]
      exact hone
  | setAssignments v =>
      rw [Call.writes, Classroom.setAssignments, saveClass_eq (by decide) (by decide)]
      exact hone
  | setMeetingInfo v =>
      rw [Call.writes, Classroom.setMeetingInfo, saveClass_eq (by decide) (by decide)]
      exact hone
  | setName v =>
      rw [Call.writes, setName_eq hp]
      exact iff_of_true (fun w hw => Or.inl (by rw [List.mem_singleton.mp hw]; rfl)) trivial
  | addAssignment x =>
      rw [Call.writes, addAssignment_eq hp]
      cases c.assignmentIDs with
      | none => exact iff_of_true (fun w hw => absurd hw List.not_mem_nil) trivial
      | some ids =>
          exact iff_of_true (fun w hw => Or.inl (by rw [List.mem_singleton.mp hw]; rfl)) trivial
  | addStudent x =>
      rw [Call.writes, Call.Framed]
      cases hids : c.studentIDs with
      | none => simp [issued]
      | some ids =>
          simp only [setStudents_eq, hp, Option.map_some, reduceCtorEq, false_or]
          constructor
          · intro h
            exact inFrame_of_ne (h _ List.mem_cons_self)
          · rintro rfl w hw
            have hsave : ∀ w', DatabaseHelper.savePropertyToDatabase Strings.student x
                Strings.classID (c.id.elim .null .string) = some w' →
                InFrame ⟨Strings.class, Strings.studentIDs⟩ (.addStudent x) w' := by
              intro w' hw'
              obtain ⟨q, hq, rfl⟩ := Option.map_eq_some_iff.mp hw'
              exact Or.inr ⟨x, q, _, rfl, hq, rfl⟩
            cases hw' : DatabaseHelper.savePropertyToDatabase Strings.student x Strings.classID
                (c.id.elim .null .string) with
            | none =>
                rw [hw'] at hw
                rw [List.mem_singleton.mp hw]
                exact Or.inl rfl
            | some w' =>
                rw [hw'] at hw
                simp only [issued, List.mem_cons, List.not_mem_nil, or_false] at hw
                rcases hw with rfl | rfl | rfl
                · exact Or.inl rfl
                · exact hsave _ hw'
                · exact Or.inl rfl

end

/-! ## What the documents show -/

/-- The field can be read, and this is what it holds. -/
def Reads {α : Type} (as : Value → Option α) (d : Doc) (k : String) (x : Option α) : Prop :=
  Holds as d k ∧ valueAt as d k = x

section

variable {α : Type} {as : Value → Option α} {d d' : Doc} {k key : String} {x : Option α} {v : Value}

theorem Reads.congr (h : Reads as d k x) (hsame : d'[k]? = d[k]?) : Reads as d' k x := by
  unfold Reads Holds valueAt
  rw [hsame]
  exact h

theorem Reads.insert_of_ne (h : Reads as d k x) (hne : k ≠ key) :
    Reads as (d.insert key v) k x :=
  h.congr (by simp [Std.ExtTreeMap.getElem?_insert, Ne.symm hne])

theorem Reads.union_of_ne (h : Reads as d k x) (hne : k ≠ key) : Reads as (d.union key v) k x :=
  h.congr (Doc.union_of_ne d hne v)

theorem reads_text (d : Doc) (k text : String) :
    Reads asString (d.insert k (.string text)) k (some text) := by
  have hget : (d.insert k (.string text))[k]? = some (.string text) := by simp
  refine ⟨fun v hv => ?_, by rw [valueAt, hget]; rfl⟩
  rw [hget] at hv
  obtain rfl := Option.some.inj hv
  exact ⟨by simp, text, rfl⟩

/-- The union with a list of texts, or with a field that is missing. -/
theorem Reads.union {l : Option (List String)} (h : Reads (asArray asString) d k l)
    (text : String) :
    Reads (asArray asString) (d.union k (.string text)) k
      (some (addIfAbsent (l.getD []) text)) := by
  have hstring : ∀ text : String, asString (.string text) = some text := fun _ => rfl
  have helements : elements d[k]? = (l.getD []).map .string := by
    cases hv : d[k]? with
    | none =>
        rw [← h.2, valueAt, hv]
        rfl
    | some v =>
        obtain ⟨-, texts, htexts⟩ := h.1 v hv
        obtain rfl : l = some texts := by
          rw [← h.2, valueAt, hv, Option.bind_some, htexts]
        rw [asArray_asString_eq_some.mp htexts]
        rfl
  have hget : (d.union k (.string text))[k]? =
      some (.array ((addIfAbsent (l.getD []) text).map .string)) := by
    rw [Doc.union_self, helements, map_addIfAbsent (fun _ _ => Value.string.inj)]
  refine ⟨fun v hv => ?_, ?_⟩
  · rw [hget] at hv
    obtain rfl := Option.some.inj hv
    exact ⟨by simp, _, asArray_map hstring _⟩
  · rw [valueAt, hget, Option.bind_some, asArray_map hstring]

theorem Reads.cast (h : Reads as d k x) (old : Option α) :
    castField as d k old = some (x.or old) := by
  rw [h.1.cast, h.2]

end

/-- A document that can be read, with what was last set. -/
structure Shows (d : Doc) (l : Last) : Prop where
  teacherID : Reads asString d Strings.teacherID l.teacherID
  studentIDs : Reads (asArray asString) d Strings.studentIDs l.studentIDs
  assignmentIDs : Reads (asArray asString) d Strings.assignmentIDs l.assignmentIDs
  name : Reads asString d Strings.name l.name
  info : Holds asStringDict d Strings.meetingInfo
  meetingInfo : l.meetingInfo = none

theorem Shows.givesBack {d : Doc} {l : Last} (h : Shows d l) (o : Classroom) :
    ∃ o', o.setPropertiesFromDoc d = some o' ∧ l.GivesBack o' := by
  refine ⟨⟨o.id, l.teacherID.or o.teacherID, l.studentIDs.or o.studentIDs,
    l.assignmentIDs.or o.assignmentIDs, l.name.or o.name,
    (valueAt asStringDict d Strings.meetingInfo).or o.meetingInfo⟩, ?_, ?_⟩
  · exact Classroom.setPropertiesFromDoc_eq_some.mpr ⟨h.teacherID.cast _, h.studentIDs.cast _,
      h.assignmentIDs.cast _, h.name.cast _, h.info.cast _, rfl⟩
  · exact
      { teacherID := fun v hv => by rw [hv, Option.some_or]
        studentIDs := fun v hv => by rw [hv, Option.some_or]
        assignmentIDs := fun v hv => by rw [hv, Option.some_or]
        name := fun v hv => by rw [hv, Option.some_or]
        meetingInfo := h.meetingInfo }

/-! ## Calls on one of two -/

section

variable {c : Classroom} {p q : DocPath} {σ : World} {l : Last} {call : Call}

/-- A field that the classroom does not read. -/
theorem Shows.insert_of_ne {d : Doc} {key : String} {v : Value} (h : Shows d l)
    (hkey : key ∉ [Strings.teacherID, Strings.studentIDs, Strings.assignmentIDs, Strings.name,
      Strings.meetingInfo]) : Shows (d.insert key v) l := by
  simp only [List.mem_cons, List.not_mem_nil, or_false, not_or] at hkey
  obtain ⟨hteacher, hstudents, hassignments, hname, hinfo⟩ := hkey
  exact ⟨h.teacherID.insert_of_ne (Ne.symm hteacher), h.studentIDs.insert_of_ne (Ne.symm hstudents),
    h.assignmentIDs.insert_of_ne (Ne.symm hassignments), h.name.insert_of_ne (Ne.symm hname),
    (Reads.insert_of_ne ⟨h.info, rfl⟩ (Ne.symm hinfo)).1, h.meetingInfo⟩

theorem Shows.setTeacherID {d : Doc} (h : Shows d l) (text : String) :
    Shows (d.insert Strings.teacherID (.string text)) (l.set (.setTeacherID text)) :=
  ⟨reads_text d _ text, h.studentIDs.insert_of_ne (by decide),
    h.assignmentIDs.insert_of_ne (by decide), h.name.insert_of_ne (by decide),
    (Reads.insert_of_ne ⟨h.info, rfl⟩ (by decide)).1, h.meetingInfo⟩

theorem Shows.setName {d : Doc} (h : Shows d l) (text : String) :
    Shows (d.insert Strings.name (.string text)) (l.set (.setName text)) :=
  ⟨h.teacherID.insert_of_ne (by decide), h.studentIDs.insert_of_ne (by decide),
    h.assignmentIDs.insert_of_ne (by decide), reads_text d _ text,
    (Reads.insert_of_ne ⟨h.info, rfl⟩ (by decide)).1, h.meetingInfo⟩

theorem Shows.addAssignment {d : Doc} (h : Shows d l) (x : String) :
    Shows (d.union Strings.assignmentIDs (.string x)) (l.set (.addAssignment x)) :=
  ⟨h.teacherID.union_of_ne (by decide), h.studentIDs.union_of_ne (by decide),
    h.assignmentIDs.union x, h.name.union_of_ne (by decide),
    (Reads.union_of_ne ⟨h.info, rfl⟩ (by decide)).1, h.meetingInfo⟩

theorem Shows.addStudent {d : Doc} (h : Shows d l) (x : String) :
    Shows (d.union Strings.studentIDs (.string x)) (l.set (.addStudent x)) :=
  ⟨h.teacherID.union_of_ne (by decide), h.studentIDs.union x,
    h.assignmentIDs.union_of_ne (by decide), h.name.union_of_ne (by decide),
    (Reads.union_of_ne ⟨h.info, rfl⟩ (by decide)).1, h.meetingInfo⟩

/-- What a call leaves of the classroom it is made on and of its document. -/
def Kept (p : DocPath) (l : Last) (call : Call) : EStateM.Result Halt World Classroom → Prop
  | .ok c σ => c.ref = some p ∧ Shows (σ.store.snapshot p) (l.set call)
  | .error _ σ => Shows (σ.store.snapshot p) l

theorem Call.kept (hp : c.ref = some p) (hshows : Shows (σ.store.snapshot p) l)
    (hframed : call.Framed c p) (hkey : call.KeyRead) :
    Kept p l call ((call.run c).run σ) := by
  cases call with
  | setStudents v => exact hkey.elim
  | setAssignments v => exact hkey.elim
  | setMeetingInfo v => exact hkey.elim
  | setTeacherID v =>
      obtain rfl : p = ⟨Strings.class, Strings.teacherID⟩ := hframed
      rw [run, Classroom.setTeacherID, saveClass_eq (by decide) (by decide)]
      refine ⟨hp, ?_⟩
      rw [Store.snapshot_setMerge_self]
      exact hshows.setTeacherID v
  | setName v =>
      rw [run, setName_eq hp]
      refine ⟨hp, ?_⟩
      rw [Store.snapshot_setMerge_self]
      exact hshows.setName v
  | addAssignment x =>
      rw [run, addAssignment_eq hp]
      cases c.assignmentIDs with
      | none => exact hshows
      | some ids =>
          refine ⟨hp, ?_⟩
          rw [Store.snapshot_unionMerge_self]
          exact hshows.addAssignment x
  | addStudent x =>
      rw [run, Classroom.addStudent]
      cases hids : c.studentIDs with
      | none => exact hshows
      | some ids =>
          have hor : c.studentIDs = none ∨ p = ⟨Strings.class, Strings.studentIDs⟩ := hframed
          obtain rfl := hor.resolve_left (by rw [hids]; exact Option.some_ne_none ids)
          -- the list is saved under a key that nobody reads
          have hsaved : Shows ((σ.store.apply (.setMerge ⟨Strings.class, Strings.studentIDs⟩
              Strings.students (.array ((ids ++ [x]).map .string)))).snapshot
                ⟨Strings.class, Strings.studentIDs⟩) l := by
            rw [Store.snapshot_setMerge_self]
            exact hshows.insert_of_ne (by decide)
          cases hsave : DatabaseHelper.savePropertyToDatabase Strings.student x Strings.classID
              (c.id.elim .null .string) with
          | none =>
              simp only [EStateM.run_bind, App.run_unwrap_some, setStudents_eq,
                App.run_perform_some, App.run_perform_none]
              exact hsaved
          | some w =>
              obtain ⟨q, hq, rfl⟩ := Option.map_eq_some_iff.mp hsave
              simp only [EStateM.run_bind, App.run_unwrap_some, setStudents_eq,
                App.run_perform_some, hp, EStateM.run_pure]
              refine ⟨hp, ?_⟩
              rw [Store.snapshot_unionMerge_self, Store.snapshot_apply_of_ne _ (student_ne_class hq)]
              exact hsaved.addStudent x

/-- A call that keeps to its frame leaves the other document alone. -/
theorem snapshot_of_framed {name : String} (hp : c.ref = some p)
    (hq : documentPath Strings.class name = some q) (hne : p ≠ q) (hframed : call.Framed c p) :
    (App.after (call.run c) σ).store.snapshot q = σ.store.snapshot q := by
  rw [Call.after_run]
  refine Store.snapshot_applyAll_of_ne _ fun w hw => ?_
  rcases (framed_iff hp call).mpr hframed w hw with hpath | ⟨x, r, v, -, hr, rfl⟩
  · exact hpath ▸ Ne.symm hne
  · rintro rfl
    have hstudent := head?_collection_of_documentPath (by decide) hr
    have hclass := head?_collection_of_documentPath (by decide) hq
    exact absurd (hstudent.symm.trans hclass) (by decide)

end

/-- Two classrooms with a document each, which can be read; what a document
holds counts as set. -/
def system (p : Bool → DocPath) : System State (Bool × Call) where
  Init s := p true ≠ p false
    ∧ ∀ b, (s.obj b).ref = some (p b) ∧ Shows (s.world.store.snapshot (p b)) (s.last b)
  step := step

def SafeStep (p : Bool → DocPath) (s : State) (e : Bool × Call) : Prop :=
  e.2.Framed (s.obj e.1) (p e.1) ∧ e.2.KeyRead

section

variable {p : Bool → DocPath} {s : State}

/-- What the initial states have, after any number of safe calls. -/
theorem kept_of_safe (h : (system p).Run (SafeStep p) s) : (system p).Init s := by
  refine h.invariant (fun _ hs => hs) ?_
  rintro s ⟨b, call⟩ s' ⟨hne, hs⟩ ⟨hframed, hkey⟩ hstep
  refine ⟨hne, fun b' => ?_⟩
  obtain ⟨hp, hshows⟩ := hs b
  have hkept := Call.kept hp hshows hframed hkey
  have hother : b' ≠ b → (App.after (call.run (s.obj b)) s.world).store.snapshot (p b') =
      s.world.store.snapshot (p b') := by
    intro hb
    obtain ⟨id, -, hpath⟩ := Option.bind_eq_some_iff.mp (hs b').1
    refine snapshot_of_framed hp hpath ?_ hframed
    cases b <;> cases b' <;> first | exact absurd rfl hb | exact hne | exact Ne.symm hne
  change step s (b, call) = some s' at hstep
  simp only [step] at hstep
  rw [App.after] at hother
  cases hrun : (call.run (s.obj b)).run s.world with
  | error e σ =>
      rw [hrun] at hstep hkept hother
      obtain rfl := Option.some.inj hstep
      by_cases hb : b' = b
      · subst hb
        exact ⟨hp, hkept⟩
      · refine ⟨(hs b').1, ?_⟩
        show Shows (σ.store.snapshot (p b')) (s.last b')
        rw [hother hb]
        exact (hs b').2
  | ok c σ =>
      rw [hrun] at hstep hkept hother
      obtain rfl := Option.some.inj hstep
      by_cases hb : b' = b
      · subst hb
        simp only [Function.update_self]
        exact hkept
      · simp only [Function.update_of_ne hb]
        refine ⟨(hs b').1, ?_⟩
        rw [hother hb]
        exact (hs b').2

/-- As long as every call is safe, a snapshot of either document gives back
what was last set through its classroom; and a call writes where it should
exactly if its classroom's document is the one that the method addresses. -/
theorem given_back_of_safe (h : (system p).Run (SafeStep p) s) :
    (∀ (b : Bool) (o : Classroom),
        ∃ o', o.setPropertiesFromDoc (s.world.store.snapshot (p b)) = some o'
          ∧ (s.last b).GivesBack o')
      ∧ ∀ (b : Bool) (call : Call), (∀ w ∈ issued (call.writes (s.obj b)), InFrame (p b) call w)
        ↔ call.Framed (s.obj b) (p b) := by
  obtain ⟨-, hs⟩ := kept_of_safe h
  exact ⟨fun b o => (hs b).2.givesBack o, fun b call => framed_iff (hs b).1 call⟩

end

/-! ## Two new classrooms -/

def newRefs (b : Bool) : DocPath :=
  ⟨Strings.class, if b then "math" else "art"⟩

def twoNew : State where
  obj b := Classroom.new (if b then "math" else "art")
  world := emptyWorld
  last _ := ⟨none, none, none, none, none⟩

theorem shows_empty : Shows ∅ ⟨none, none, none, none, none⟩ := by
  have hreads : ∀ {α : Type} (as : Value → Option α) (k : String),
      Reads as (∅ : Doc) k none := by
    intro α as k
    have hget : (∅ : Doc)[k]? = none := by simp
    exact ⟨holds_of_none hget, by rw [valueAt, hget]; rfl⟩
  exact ⟨hreads _ _, hreads _ _, hreads _ _, hreads _ _, (hreads asStringDict _).1, rfl⟩

theorem twoNew_ref (b : Bool) : (twoNew.obj b).ref = some (newRefs b) := by
  cases b <;> decide

theorem init_twoNew : (system newRefs).Init twoNew :=
  ⟨by decide, fun b => ⟨twoNew_ref b, shows_empty⟩⟩

/-- The name of one classroom and an assignment of the other come back. -/
theorem given_back_of_safe_twoNew :
    ∃ s, (system newRefs).replay twoNew
        [(true, .setName "Math"), (false, .addAssignment "quiz")] = some s
      ∧ (∀ (b : Bool) (o : Classroom),
        ∃ o', o.setPropertiesFromDoc (s.world.store.snapshot (newRefs b)) = some o'
          ∧ (s.last b).GivesBack o')
      ∧ ∀ (b : Bool) (call : Call),
        (∀ w ∈ issued (call.writes (s.obj b)), InFrame (newRefs b) call w)
          ↔ call.Framed (s.obj b) (newRefs b) := by
  have h₀ : (system newRefs).Run (SafeStep newRefs) twoNew := .init init_twoNew
  have hname : ∀ s, SafeStep newRefs s (true, .setName "Math") := fun _ => ⟨trivial, trivial⟩
  have hquiz : ∀ s, SafeStep newRefs s (false, .addAssignment "quiz") :=
    fun _ => ⟨trivial, trivial⟩
  exact ⟨_, rfl, given_back_of_safe ((h₀.step (hname _) rfl).step (hquiz _) rfl)⟩

/-- The teacher of a class is written to a document that no class has. -/
theorem not_given_back_teacherID :
    ∃ s, (system newRefs).Reachable s ∧ ¬ ((∀ (b : Bool) (o : Classroom),
        ∃ o', o.setPropertiesFromDoc (s.world.store.snapshot (newRefs b)) = some o'
          ∧ (s.last b).GivesBack o')
      ∧ ∀ (b : Bool) (call : Call),
        ∀ w ∈ issued (call.writes (s.obj b)), InFrame (newRefs b) call w) := by
  have h₀ : (system newRefs).Reachable twoNew := .init init_twoNew
  refine ⟨_, h₀.step (a := (true, .setTeacherID "t_kim")) trivial rfl, ?_⟩
  rintro ⟨hback, -⟩
  obtain ⟨o', hread, hlast⟩ := hback true (Classroom.new "math")
  have hteacher : o'.teacherID = some "t_kim" := hlast.teacherID "t_kim" rfl
  have hsame : (Classroom.new "math").setPropertiesFromDoc
      ((emptyWorld.store.apply (.setMerge ⟨Strings.class, Strings.teacherID⟩ Strings.teacherID
        (.string "t_kim"))).snapshot (newRefs true)) = some (Classroom.new "math") := by
    decide
  obtain rfl : Classroom.new "math" = o' := Option.some.inj (hsame.symm.trans hread)
  exact absurd hteacher (by decide)

end GradeIo.Classrooms
