import GradeIo.Classrooms

/-!
# Lists in memory and in the store

A classroom and a parent hold lists of ids that are also fields of their
documents. The add methods append to the list in memory, always, and unite the
field with the new id in the store; `Holder.Mirrors` says that the two are
equal.

From any document that decodes, they stay equal for as long as each call meets
`Kept`, and the first call that does not ends it (`mirrors_of_kept`).
-/

namespace GradeIo.MemoryLists

open DocDb Transition Keyed

/-- What a field is to a list of ids; nil stands for no field. -/
def IsList (v : Option Value) : Option (List String) → Prop
  | some ids => v = some (.array (ids.map .string))
  | none => v = none ∨ v = some .null

section

variable {v : Option Value} {l l' : Option (List String)} {ids : List String} {x : String}

theorem IsList.unique (h : IsList v l) (h' : IsList v l') : l = l' := by
  have hinj : Function.Injective (List.map Value.string) :=
    List.map_injective_iff.mpr fun _ _ => Value.string.inj
  cases l <;> cases l' <;> simp only [IsList] at h h'
  · rfl
  · rcases h with rfl | rfl <;> cases h'
  · rcases h' with rfl | rfl <;> cases h
  · subst h
    injection h' with h'
    injection h' with h'
    rw [hinj h']

theorem isList_of_decode {d : Doc} {k : String}
    (h : decodeIfPresent (asArray asString) (Doc.data d) k = some l) : IsList d[k]? l := by
  unfold decodeIfPresent at h
  rw [Doc.lookup_data] at h
  cases hv : d[k]? with
  | none =>
      rw [hv] at h
      obtain rfl := Option.some.inj h
      exact Or.inl rfl
  | some v =>
      rw [hv] at h
      cases v with
      | null =>
          obtain rfl := Option.some.inj h
          exact Or.inr rfl
      | _ =>
          obtain ⟨ids, hids, rfl⟩ := Option.map_eq_some_iff.mp h
          exact congrArg some (asArray_asString_eq_some.mp hids)

/-- The union of the field with one more id. -/
theorem IsList.union (h : IsList v l) (x : String) :
    IsList (some (.array (addIfAbsent (elements v) (.string x))))
      (some (addIfAbsent (l.getD []) x)) := by
  have helements : elements v = (l.getD []).map .string := by
    cases l with
    | none => rcases h with rfl | rfl <;> rfl
    | some ids =>
        obtain rfl : v = some (.array (ids.map .string)) := h
        rfl
  rw [IsList, helements, map_addIfAbsent fun _ _ => Value.string.inj]

/-- The append and the union agree exactly on a new id. -/
theorem IsList.union_append_iff (h : IsList v l) :
    IsList (some (.array (addIfAbsent (elements v) (.string x)))) (some (l.getD [] ++ [x])) ↔
      x ∉ l.getD [] := by
  constructor
  · intro happend hmem
    have hsame := Option.some.inj ((h.union x).unique happend)
    rw [addIfAbsent_of_mem hmem] at hsame
    exact absurd (congrArg List.length hsame) (by simp)
  · intro hmem
    rw [← addIfAbsent_of_not_mem hmem]
    exact h.union x

/-- An append that the field does not follow. -/
theorem IsList.not_append (h : IsList v l) (x : String) : ¬ IsList v (some (l.getD [] ++ [x])) := by
  intro happend
  have hsame : l = some (l.getD [] ++ [x]) := h.unique happend
  cases l with
  | none => cases hsame
  | some ids => exact absurd (congrArg List.length (Option.some.inj hsame)) (by simp)

end

/-- The append and a union somewhere in the store. -/
theorem isList_union_append_iff {s : Store} {p r : DocPath} {k x : String}
    {l : Option (List String)} (h : IsList (s.field p k) l) :
    IsList ((s.apply (.unionMerge r k (.string x))).field p k) (some (l.getD [] ++ [x])) ↔
      r = p ∧ x ∉ l.getD [] := by
  rw [Store.field_apply_unionMerge]
  by_cases hr : r = p
  · subst hr
    simp only [and_self, if_true, true_and]
    exact h.union_append_iff
  · rw [if_neg fun hp => hr hp.1.symm]
    exact iff_of_false (h.not_append x) fun hp => hr hp.1

/-- The objects with lists. -/
inductive Holder where
  | classroom (c : Classroom)
  | parent (u : Parent)

inductive Call where
  | addStudent (newStudent : String)
  | addAssignment (newAssignment : String)

namespace Holder

def collection : Holder → String
  | classroom _ => Strings.class
  | parent _ => Strings.parent

/-- The object that a document decodes to. -/
def DecodedFrom (d : Doc) : Holder → Prop
  | classroom c => Classroom.ofDictionary (Doc.data d) = some c
  | parent u => Parent.ofDictionary (Doc.data d) = some u

/-- The document that the add methods write to. -/
def ref : Holder → Option DocPath
  | classroom c => c.ref
  | parent u => u.id.bind (documentPath Strings.parent)

/-- The lists, by the fields that they are in the document. -/
def lists : Holder → List (String × Option (List String))
  | classroom c => [(Strings.studentIDs, c.studentIDs), (Strings.assignmentIDs, c.assignmentIDs)]
  | parent u => [(Strings.students, u.students)]

def Mirrors (o : Holder) (s : Store) (p : DocPath) : Prop :=
  ∀ f ∈ o.lists, IsList (s.field p f.1) f.2

/-- The method, where the class has it. -/
def run [TextOps] : Holder → Call → Option (App Holder)
  | classroom c, .addStudent x => some (classroom <$> c.addStudent x)
  | classroom c, .addAssignment x =>
      some (classroom <$> Classrooms.Call.run c (.addAssignment x))
  | parent u, .addStudent x => some (parent <$> u.addStudent x)
  | parent _, .addAssignment _ => none

end Holder

/-- An object with the document that it was decoded from. -/
structure State where
  doc : DocPath
  obj : Holder
  world : World

section Steps

variable [TextOps]

/-- A call that does not trap. -/
def step (s : State) (call : Call) : Option State :=
  (s.obj.run call).bind fun x =>
    match x.run s.world with
    | .ok o σ => some { s with obj := o, world := σ }
    | .error _ _ => none

def system : System State Call where
  Init s := s.doc.collection = s.obj.collection
    ∧ ∃ d, s.world.store.get? s.doc = some d ∧ s.obj.DecodedFrom d
  step := step

/-- What keeps the lists equal: the object writes to its document, the id is
new, and to what is written besides there is no objection. -/
def Kept (s : State) (call : Call) : Prop :=
  s.obj.ref = some s.doc ∧ match s.obj, call with
    | .classroom c, .addStudent x =>
        (∃ ids, c.studentIDs = some ids ∧ x ∉ ids) ∧ (documentPath Strings.student x).isSome
    | .classroom c, .addAssignment x => ∃ ids, c.assignmentIDs = some ids ∧ x ∉ ids
    | .parent u, .addStudent x => x ∉ u.students.getD [] ∧ ∃ m d res,
        DatabaseHelper.Named s.world.store Strings.student x m d
          ∧ Student.ofDictionary (Doc.data d) = some res ∧ (IUser.student res).ref.isSome
    | .parent _, .addAssignment _ => False

section

variable {p : DocPath} {σ : World} {c : Classroom} {u : Parent} {x : String} {ids : List String}

/-! ## The calls -/

theorem step_addStudent :
    step ⟨p, .classroom c, σ⟩ (.addStudent x) =
      match c.studentIDs, documentPath Strings.student x, c.ref with
      | some ids, some q, some r => some ⟨p, .classroom { c with studentIDs := some (ids ++ [x]) },
          { σ with
            store := σ.store.applyAll
              [.setMerge ⟨Strings.class, Strings.studentIDs⟩ Strings.students
                (.array ((ids ++ [x]).map .string)),
               .setMerge q Strings.classID (c.id.elim .null .string),
               .unionMerge r Strings.studentIDs (.string x)] }⟩
      | _, _, _ => none := by
  simp only [step, Holder.run, Option.bind_some, EStateM.run_map, Classroom.addStudent,
    DatabaseHelper.savePropertyToDatabase, setStudents_eq]
  cases c.studentIDs with
  | none => rfl
  | some ids =>
      cases documentPath Strings.student x with
      | none => rfl
      | some q => cases c.ref <;> rfl

theorem step_addAssignment :
    step ⟨p, .classroom c, σ⟩ (.addAssignment x) =
      match c.assignmentIDs, c.ref with
      | some ids, some r =>
          some ⟨p, .classroom { c with assignmentIDs := some (ids ++ [x]) },
            { σ with
              store := σ.store.apply (.unionMerge r Strings.assignmentIDs (.string x)) }⟩
      | _, _ => none := by
  simp only [step, Holder.run, Option.bind_some, EStateM.run_map, Classrooms.Call.run,
    Classroom.addAssignment]
  cases c.assignmentIDs with
  | none => rfl
  | some ids => cases c.ref <;> rfl

omit [TextOps] in
/-- The completion handler; the union comes first and stays. -/
theorem run_add (u : Parent) (x : String) (res : Student) (σ : World) :
    (Parent.add u x res).run σ =
      match u.id, u.id.bind (documentPath Strings.parent), (IUser.student res).ref with
      | some id, some r, some q => .ok ()
          { σ with
            store := σ.store.applyAll
              [.unionMerge r Strings.students (.string x),
               .setMerge q Strings.parentID (.string id)] }
      | some _, some r, none => .error .trap
          { σ with store := σ.store.apply (.unionMerge r Strings.students (.string x)) }
      | _, _, _ => .error .trap σ := by
  cases hid : u.id with
  | none =>
      rw [Parent.add, hid]
      rfl
  | some id =>
      simp only [Parent.add, hid, EStateM.run_bind, App.run_unwrap_some, Option.bind_some,
        Student.setParentID, DatabaseHelper.saveUserPropertyToDoc]
      cases documentPath Strings.parent id with
      | none => rfl
      | some r => cases (IUser.student res).ref <;> rfl

/-- The child is in the list whatever the detached fetch comes to. -/
theorem step_addChild_run :
    step ⟨p, .parent u, σ⟩ (.addStudent x) =
      match (App.detach do
        let res ← App.ask fun s => DatabaseHelper.getStudentFromID s x
        Parent.add u x res).run σ with
      | .ok _ σ' => some ⟨p, .parent { u with students := some (u.students.getD [] ++ [x]) }, σ'⟩
      | .error _ _ => none := by
  simp only [step, Holder.run, Option.bind_some, EStateM.run_map, Parent.addStudent,
    EStateM.run_bind]
  cases (App.detach do
      let res ← App.ask fun s => DatabaseHelper.getStudentFromID s x
      Parent.add u x res).run σ <;> rfl

/-- The student is fetched; without one nothing is written. -/
theorem step_addChild :
    step ⟨p, .parent u, σ⟩ (.addStudent x) =
      match DatabaseHelper.getStudentFromID σ.store x with
      | .error .noAnswer =>
          some ⟨p, .parent { u with students := some (u.students.getD [] ++ [x]) }, σ⟩
      | .error .trap => none
      | .ok res =>
          match u.id, u.id.bind (documentPath Strings.parent), (IUser.student res).ref with
          | some id, some r, some q =>
              some ⟨p, .parent { u with students := some (u.students.getD [] ++ [x]) },
                { σ with
                  store := σ.store.applyAll
                    [.unionMerge r Strings.students (.string x),
                     .setMerge q Strings.parentID (.string id)] }⟩
          | _, _, _ => none := by
  rw [step_addChild_run]
  cases hget : DatabaseHelper.getStudentFromID σ.store x with
  | error e =>
      cases e with
      | noAnswer =>
          rw [App.run_detach_noAnswer (by rw [EStateM.run_bind, App.run_ask_error hget])]
      | trap => rw [App.run_detach_trap (by rw [EStateM.run_bind, App.run_ask_error hget])]
  | ok res =>
      have hrun : (do
          let res ← App.ask fun s => DatabaseHelper.getStudentFromID s x
          Parent.add u x res : App Unit).run σ = (Parent.add u x res).run σ := by
        rw [EStateM.run_bind, App.run_ask_ok hget]
      rw [run_add] at hrun
      cases hid : u.id with
      | none =>
          rw [hid] at hrun
          rw [App.run_detach_trap hrun]
      | some id =>
          rw [hid, Option.bind_some] at hrun
          simp only [Option.bind_some]
          cases hr : documentPath Strings.parent id with
          | none =>
              rw [hr] at hrun
              rw [App.run_detach_trap hrun]
          | some r =>
              rw [hr] at hrun
              cases hq : (IUser.student res).ref with
              | none =>
                  rw [hq] at hrun
                  rw [App.run_detach_trap hrun]
              | some q =>
                  rw [hq] at hrun
                  rw [App.run_detach_ok hrun]

/-! ## One call -/

omit [TextOps] in
theorem mirrors_classroom {s : Store} : (Holder.classroom c).Mirrors s p ↔
    IsList (s.field p Strings.studentIDs) c.studentIDs
      ∧ IsList (s.field p Strings.assignmentIDs) c.assignmentIDs := by
  simp [Holder.Mirrors, Holder.lists]

omit [TextOps] in
theorem mirrors_parent {s : Store} : (Holder.parent u).Mirrors s p ↔
    IsList (s.field p Strings.students) u.students := by
  simp [Holder.Mirrors, Holder.lists]

theorem addStudent_mirrors_iff (h : (Holder.classroom c).Mirrors σ.store p) :
    (∃ s', step ⟨p, .classroom c, σ⟩ (.addStudent x) = some s'
      ∧ s'.obj.Mirrors s'.world.store s'.doc) ↔ Kept ⟨p, .classroom c, σ⟩ (.addStudent x) := by
  obtain ⟨hstudents, hassignments⟩ := mirrors_classroom.mp h
  rw [step_addStudent]
  cases hids : c.studentIDs with
  | none => simp [Kept, hids]
  | some ids =>
      cases hq : documentPath Strings.student x with
      | none => simp [Kept, hq]
      | some q =>
          cases hr : c.ref with
          | none => simp [Kept, Holder.ref, hr]
          | some r =>
              rw [hids] at hstudents
              simp only [Option.some.injEq, exists_eq_left', mirrors_classroom,
                Store.applyAll_cons, Store.applyAll_nil]
              generalize hs₁ : (σ.store.apply (.setMerge ⟨Strings.class, Strings.studentIDs⟩
                Strings.students (.array ((ids ++ [x]).map .string)))).apply
                  (.setMerge q Strings.classID (c.id.elim .null .string)) = s₁
              -- the first two writes are to fields that are no lists
              have hfield : ∀ k, k ≠ Strings.students → k ≠ Strings.classID →
                  s₁.field p k = σ.store.field p k := by
                intro k hk hk'
                rw [← hs₁, Store.field_apply_setMerge, if_neg fun hp => hk' hp.2,
                  Store.field_apply_setMerge, if_neg fun hp => hk hp.2]
              rw [← hfield _ (by decide) (by decide)] at hstudents hassignments
              have hunion := isList_union_append_iff (r := r) (x := x) hstudents
              have hother : IsList ((s₁.apply (.unionMerge r Strings.studentIDs
                  (.string x))).field p Strings.assignmentIDs) c.assignmentIDs := by
                rw [Store.field_apply_unionMerge, if_neg fun hp => absurd hp.2 (by decide)]
                exact hassignments
              rw [and_iff_left hother]
              simp only [Option.getD_some] at hunion
              simp [hunion, Kept, Holder.ref, hr, hids, hq]

theorem addAssignment_mirrors_iff (h : (Holder.classroom c).Mirrors σ.store p) :
    (∃ s', step ⟨p, .classroom c, σ⟩ (.addAssignment x) = some s'
      ∧ s'.obj.Mirrors s'.world.store s'.doc) ↔
      Kept ⟨p, .classroom c, σ⟩ (.addAssignment x) := by
  obtain ⟨hstudents, hassignments⟩ := mirrors_classroom.mp h
  rw [step_addAssignment]
  cases hids : c.assignmentIDs with
  | none => simp [Kept, hids]
  | some ids =>
      cases hr : c.ref with
      | none => simp [Kept, Holder.ref, hr]
      | some r =>
          rw [hids] at hassignments
          simp only [Option.some.injEq, exists_eq_left', mirrors_classroom]
          have hunion := isList_union_append_iff (r := r) (x := x) hassignments
          have hother : IsList ((σ.store.apply (.unionMerge r Strings.assignmentIDs
              (.string x))).field p Strings.studentIDs) c.studentIDs := by
            rw [Store.field_apply_unionMerge, if_neg fun hp => absurd hp.2 (by decide)]
            exact hstudents
          rw [and_iff_right hother]
          simp only [Option.getD_some] at hunion
          simp [hunion, Kept, Holder.ref, hr, hids]

theorem addChild_mirrors_iff (h : (Holder.parent u).Mirrors σ.store p) :
    (∃ s', step ⟨p, .parent u, σ⟩ (.addStudent x) = some s'
      ∧ s'.obj.Mirrors s'.world.store s'.doc) ↔ Kept ⟨p, .parent u, σ⟩ (.addStudent x) := by
  have hchildren := mirrors_parent.mp h
  rw [step_addChild]
  have hkept : Kept ⟨p, .parent u, σ⟩ (.addStudent x) ↔
      u.id.bind (documentPath Strings.parent) = some p ∧ x ∉ u.students.getD [] ∧
        ∃ res, DatabaseHelper.getStudentFromID σ.store x = .ok res
          ∧ (IUser.student res).ref.isSome := by
    refine and_congr_right' (and_congr_right' ⟨?_, ?_⟩)
    · rintro ⟨m, d, res, hd, hres, hq⟩
      exact ⟨res, DatabaseHelper.getStudentFromID_eq_ok.mpr ⟨m, d, hd, hres⟩, hq⟩
    · rintro ⟨res, hget, hq⟩
      obtain ⟨m, d, hd, hres⟩ := DatabaseHelper.getStudentFromID_eq_ok.mp hget
      exact ⟨m, d, res, hd, hres, hq⟩
  rw [hkept]
  cases hget : DatabaseHelper.getStudentFromID σ.store x with
  | error e =>
      cases e with
      | trap => simp
      | noAnswer =>
          -- a child that is not found is in the list nonetheless
          have happend := hchildren.not_append x
          simp [mirrors_parent, happend]
  | ok res =>
      cases hid : u.id with
      | none => simp
      | some id =>
          cases hr : documentPath Strings.parent id with
          | none => simp [hr]
          | some r =>
              cases hq : (IUser.student res).ref with
              | none => simp [hr, hq]
              | some q =>
                  have hunion := isList_union_append_iff (r := r) (x := x) hchildren
                  have hfield : ∀ s : Store, (s.apply (.setMerge q Strings.parentID
                      (.string id))).field p Strings.students = s.field p Strings.students := by
                    intro s
                    rw [Store.field_apply_setMerge, if_neg fun hp => absurd hp.2 (by decide)]
                  simp [hr, hq, mirrors_parent, hfield, hunion]

/-- A call ends with equal lists exactly if it meets the condition. -/
theorem step_mirrors_iff {s : State} (h : s.obj.Mirrors s.world.store s.doc) (call : Call) :
    (∃ s', step s call = some s' ∧ s'.obj.Mirrors s'.world.store s'.doc) ↔ Kept s call := by
  obtain ⟨p, o, σ⟩ := s
  cases o with
  | classroom c =>
      cases call with
      | addStudent x => exact addStudent_mirrors_iff h
      | addAssignment x => exact addAssignment_mirrors_iff h
  | parent u =>
      cases call with
      | addStudent x => exact addChild_mirrors_iff h
      | addAssignment x => exact iff_of_false (fun ⟨_, hs, _⟩ => by cases hs) fun hk => hk.2

end

/-! ## Runs -/

theorem init_mirrors {s : State} (h : system.Init s) : s.obj.Mirrors s.world.store s.doc := by
  obtain ⟨p, o, σ⟩ := s
  obtain ⟨-, d, hd, hdecoded⟩ := h
  have hfield : ∀ k, σ.store.field p k = d[k]? := fun k => by rw [Store.field, hd, Option.bind_some]
  cases o with
  | classroom c =>
      have hdecode : Classroom.decode (Doc.data d) = some c := ofDictionary_eq_some hdecoded
      simp only [Classroom.decode, Option.bind_eq_bind, Option.bind_eq_some_iff] at hdecode
      obtain ⟨_, -, _, -, _, hstudents, _, hassignments, _, -, _, -, hc⟩ := hdecode
      obtain rfl := Option.some.inj hc
      rw [mirrors_classroom, hfield, hfield]
      exact ⟨isList_of_decode hstudents, isList_of_decode hassignments⟩
  | parent u =>
      have hdecode : Parent.decode (Doc.data d) = some u := ofDictionary_eq_some hdecoded
      simp only [Parent.decode, Option.bind_eq_bind, Option.bind_eq_some_iff] at hdecode
      obtain ⟨_, hstudents, _, -, hu⟩ := hdecode
      obtain rfl := Option.some.inj hu
      rw [mirrors_parent, hfield]
      exact isList_of_decode hstudents

/-- As long as every call meets the condition, none traps and the lists are the
fields of the document; and a next call keeps them so exactly if it meets the
condition too. -/
theorem mirrors_of_kept {s : State} (h : system.Run Kept s) :
    s.obj.Mirrors s.world.store s.doc
      ∧ ∀ call, (∃ s', system.step s call = some s'
        ∧ s'.obj.Mirrors s'.world.store s'.doc) ↔ Kept s call := by
  have hmirrors : s.obj.Mirrors s.world.store s.doc := by
    refine h.invariant (I := fun s => s.obj.Mirrors s.world.store s.doc)
      (fun s hs => init_mirrors hs) ?_
    intro s call s' hs hkept hstep
    obtain ⟨s₁, hstep₁, hs₁⟩ := (step_mirrors_iff hs call).mpr hkept
    obtain rfl : s₁ = s' := Option.some.inj (hstep₁.symm.trans hstep)
    exact hs₁
  exact ⟨hmirrors, step_mirrors_iff hmirrors⟩

end Steps

/-! ## A classroom with a student and no assignments -/

attribute [local instance] TextOps.ascii

def art : Classroom where
  id := some "art"
  teacherID := none
  studentIDs := some ["s_ann"]
  assignmentIDs := none
  name := none
  meetingInfo := none

/-- The classroom, just decoded. -/
def artState : State where
  doc := ⟨Strings.class, "art"⟩
  obj := .classroom art
  world := { emptyWorld with
    store := emptyWorld.store.applyAll
      (mergeAll ⟨Strings.class, "art"⟩
        [(Strings.id, .string "art"), (Strings.studentIDs, .array [.string "s_ann"])]) }

theorem init_artState : system.Init artState := by
  refine ⟨rfl, _, rfl, ?_⟩
  show Classroom.ofDictionary _ = some art
  decide

/-- Another student keeps the lists equal. -/
theorem mirrors_of_kept_art :
    ∃ s, system.replay artState [.addStudent "s_bob"] = some s
      ∧ s.obj.Mirrors s.world.store s.doc
      ∧ ∀ call, (∃ s', system.step s call = some s'
        ∧ s'.obj.Mirrors s'.world.store s'.doc) ↔ Kept s call := by
  have hkept : Kept artState (.addStudent "s_bob") :=
    ⟨by decide, ⟨["s_ann"], rfl, by decide⟩, by decide⟩
  have h₀ : system.Run Kept artState := .init init_artState
  exact ⟨_, rfl, mirrors_of_kept (h₀.step hkept rfl)⟩

/-- The same student again does not, and the first assignment traps. -/
theorem not_mirrors_art :
    system.Init artState
      ∧ (∃ s, system.step artState (.addStudent "s_ann") = some s
        ∧ ¬ s.obj.Mirrors s.world.store s.doc)
      ∧ system.step artState (.addAssignment "quiz") = none := by
  have hiff := step_mirrors_iff (init_mirrors init_artState) (.addStudent "s_ann")
  refine ⟨init_artState, ⟨_, rfl, fun hmirrors => ?_⟩, rfl⟩
  obtain ⟨-, ⟨ids, hids, hnew⟩, -⟩ := hiff.mp ⟨_, rfl, hmirrors⟩
  obtain rfl := Option.some.inj hids
  exact hnew List.mem_cons_self

end GradeIo.MemoryLists
