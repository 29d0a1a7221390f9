import GradeIo.Lib.Transition
import GradeIo.Lib.Registry
import GradeIo.AddStudent

/-!
# Membership over runs

Any number of teachers and parents add students, in any order, from devices in
any state. A class and its students, and a parent and the children, are both a
`Link`, and the store's links are a `Registry`: an operation adds to one of
them (`Adds`) or changes nothing. As no operation takes a link back, a list
holds everyone who has it for an owner or had it before (`listed_iff`).
-/

namespace GradeIo.Membership

open DocDb Transition Links App

inductive Link where
  | classroom
  | parent
deriving DecidableEq

namespace Link

def collection : Link → String
  | .classroom => Strings.class
  | .parent => Strings.parent

/-- The field that lists the students. -/
def listKey : Link → String
  | .classroom => Strings.studentIDs
  | .parent => Strings.students

/-- The field of the student that names the class or the parent. -/
def backKey : Link → String
  | .classroom => Strings.classID
  | .parent => Strings.parentID

def members (l : Link) (s : Store) (g : String) : Set String :=
  {x | .string x ∈ elements (s.field ⟨l.collection, g⟩ l.listKey)}

def owner (l : Link) (s : Store) (x : String) : Option String :=
  (s.field ⟨Strings.student, x⟩ l.backKey).bind asString

/-- The links as both sides record them. -/
def view (l : Link) (s : Store) : Registry String String := ⟨l.members s, l.owner s⟩

/-- The two sides agree. -/
def Consistent (l : Link) (s : Store) : Prop :=
  ∀ x g, (s.get? ⟨Strings.student, x⟩).isSome → (s.get? ⟨l.collection, g⟩).isSome →
    (x ∈ l.members s g ↔ l.owner s x = some g)

theorem collection_ne_student (l : Link) : l.collection ≠ Strings.student := by
  cases l <;> decide

theorem backKey_ne_id (l : Link) : l.backKey ≠ Strings.id := by
  cases l <;> decide

theorem backKey_injective : Function.Injective backKey := by
  intro l l' h
  cases l <;> cases l' <;> first | rfl | exact absurd h (by decide)

theorem collection_injective : Function.Injective collection := by
  intro l l' h
  cases l <;> cases l' <;> first | rfl | exact absurd h (by decide)

/-! ## One write -/

theorem members_congr {l : Link} {s s' : Store} {g : String}
    (h : s'.field ⟨l.collection, g⟩ l.listKey = s.field ⟨l.collection, g⟩ l.listKey) :
    l.members s' g = l.members s g := by
  unfold members
  rw [h]

theorem owner_congr {l : Link} {s s' : Store} {x : String}
    (h : s'.field ⟨Strings.student, x⟩ l.backKey = s.field ⟨Strings.student, x⟩ l.backKey) :
    l.owner s' x = l.owner s x := by
  unfold owner
  rw [h]

/-- The student's side is written. -/
theorem view_back (l l' : Link) (s : Store) (x g : String) :
    l'.view (s.apply (.setMerge ⟨Strings.student, x⟩ l.backKey (.string g))) =
      if l' = l then (l'.view s).setOwner x g else l'.view s := by
  have hlist : ∀ h, l'.members (s.apply (.setMerge ⟨Strings.student, x⟩ l.backKey (.string g))) h =
      l'.members s h := by
    refine fun h => members_congr ?_
    rw [Store.field_apply_setMerge, if_neg]
    rintro ⟨heq, -⟩
    exact l'.collection_ne_student (congrArg DocPath.collection heq)
  split
  · rename_i hl
    subst hl
    refine Registry.ext (funext hlist) (funext fun y => ?_)
    by_cases hy : y = x
    · subst hy
      simp [view, owner, Store.field_apply_setMerge, Registry.setOwner, asString]
    · have howner : l'.owner (s.apply (.setMerge ⟨Strings.student, x⟩ l'.backKey (.string g))) y =
          l'.owner s y := by
        refine owner_congr ?_
        rw [Store.field_apply_setMerge, if_neg]
        rintro ⟨heq, -⟩
        exact hy (congrArg DocPath.document heq)
      simp [view, howner, Registry.setOwner, hy]
  · rename_i hl
    refine Registry.ext (funext hlist) (funext fun y => owner_congr ?_)
    rw [Store.field_apply_setMerge, if_neg]
    rintro ⟨-, heq⟩
    exact hl (backKey_injective heq)

/-- The list is written. -/
theorem view_list (l l' : Link) (s : Store) (x g : String) :
    l'.view (s.apply (.unionMerge ⟨l.collection, g⟩ l.listKey (.string x))) =
      if l' = l then (l'.view s).enrol x g else l'.view s := by
  have howner : ∀ y, l'.owner (s.apply (.unionMerge ⟨l.collection, g⟩ l.listKey (.string x))) y =
      l'.owner s y := by
    refine fun y => owner_congr ?_
    rw [Store.field_apply_unionMerge, if_neg]
    rintro ⟨heq, -⟩
    exact l.collection_ne_student (congrArg DocPath.collection heq).symm
  split
  · rename_i hl
    subst hl
    refine Registry.ext (funext fun h => ?_) (funext howner)
    by_cases hh : h = g
    · subst hh
      ext y
      simp only [view, members, Store.field_apply_unionMerge, Registry.enrol, Set.mem_ofPred_eq,
        Function.update_self, Set.mem_insert_iff, elements, Keyed.mem_addIfAbsent, and_self, if_true]
      rw [or_comm, Value.string.injEq]
    · have hmembers : l'.members
          (s.apply (.unionMerge ⟨l'.collection, g⟩ l'.listKey (.string x))) h = l'.members s h := by
        refine members_congr ?_
        rw [Store.field_apply_unionMerge, if_neg]
        rintro ⟨heq, -⟩
        exact hh (congrArg DocPath.document heq)
      simp [view, hmembers, Registry.enrol, hh]
  · rename_i hl
    refine Registry.ext (funext fun h => members_congr ?_) (funext howner)
    rw [Store.field_apply_unionMerge, if_neg]
    rintro ⟨heq, -⟩
    exact hl (collection_injective (congrArg DocPath.collection heq))

/-- The copy of the list under `Class/studentIDs` belongs to no link. -/
theorem view_students (l : Link) (s : Store) (vs : Value) :
    l.view (s.apply (.setMerge ⟨Strings.class, Strings.studentIDs⟩ Strings.students vs)) =
      l.view s := by
  refine Registry.ext (funext fun g => members_congr ?_) (funext fun x => owner_congr ?_)
  · rw [Store.field_apply_setMerge, if_neg]
    rintro ⟨heq, hkey⟩
    obtain rfl : l = .classroom := collection_injective (congrArg DocPath.collection heq)
    exact absurd hkey (by decide)
  · rw [Store.field_apply_setMerge, if_neg]
    rintro ⟨heq, -⟩
    injection heq with hcollection
    exact absurd hcollection (by decide)

end Link

/-! ## Names of documents -/

/-- A name without a slash addresses the document of that name. -/
theorem eq_of_documentPath {collection name : String} {p : DocPath} (hslash : '/' ∉ name.toList)
    (h : documentPath collection name = some p) : p = ⟨collection, name⟩ ∧ name ≠ "" := by
  have hne : name ≠ "" := by
    rintro rfl
    rw [documentPath_empty] at h
    cases h
  exact ⟨(Option.some.inj ((documentPath_of_no_slash hne hslash).symm.trans h)).symm, hne⟩

/-- Document names are not empty and hold no slash; a student's document holds
no other id than its name. -/
structure WellNamed (s : Store) : Prop where
  name : ∀ p, (s.get? p).isSome → p.document ≠ "" ∧ '/' ∉ p.document.toList
  id : ∀ x id, s.field ⟨Strings.student, x⟩ Strings.id = some (.string id) → id = x

/-- What the writes of an operation keep. -/
structure Kept (s s' : Store) : Prop where
  wellNamed : WellNamed s'
  students : ∀ x, (s'.get? ⟨Strings.student, x⟩).isSome = (s.get? ⟨Strings.student, x⟩).isSome

theorem Kept.trans {s s' s'' : Store} (h : Kept s s') (h' : Kept s' s'') : Kept s s'' :=
  ⟨h'.wellNamed, fun x => (h'.students x).trans (h.students x)⟩

theorem WellNamed.path {s : Store} (h : WellNamed s) {c m : String} {d : Doc}
    (hd : s.get? ⟨c, m⟩ = some d) : documentPath c m = some ⟨c, m⟩ := by
  have hname := h.name ⟨c, m⟩ (by rw [hd]; rfl)
  exact documentPath_of_no_slash hname.1 hname.2

/-- A write to a class or a parent. -/
theorem WellNamed.kept_apply {s : Store} (h : WellNamed s) {w : Write} {c m : String}
    (hw : w.path = ⟨c, m⟩) (hm : m ≠ "" ∧ '/' ∉ m.toList) (hc : c ≠ Strings.student) :
    Kept s (s.apply w) := by
  have hsame : ∀ x, (s.apply w).get? ⟨Strings.student, x⟩ = s.get? ⟨Strings.student, x⟩ := by
    refine fun x => s.get?_apply_of_ne fun heq => ?_
    rw [hw] at heq
    exact hc (congrArg DocPath.collection heq).symm
  refine ⟨⟨fun p hp => ?_, fun x id hid => ?_⟩, fun x => by rw [hsame]⟩
  · by_cases hpath : p = w.path
    · rw [hpath, hw]
      exact hm
    · rw [s.get?_apply_of_ne hpath] at hp
      exact h.name p hp
  · rw [Store.field, hsame] at hid
    exact h.id x id hid

/-- A write of a student's link. -/
theorem WellNamed.kept_back {s : Store} (h : WellNamed s) (l : Link) {x : String} (v : Value)
    (hx : (s.get? ⟨Strings.student, x⟩).isSome) :
    Kept s (s.apply (.setMerge ⟨Strings.student, x⟩ l.backKey v)) := by
  have hget : ∀ p, ((s.apply (.setMerge ⟨Strings.student, x⟩ l.backKey v)).get? p).isSome =
      (s.get? p).isSome := by
    intro p
    by_cases hp : p = ⟨Strings.student, x⟩
    · subst hp
      have hself := s.get?_apply_self (.setMerge ⟨Strings.student, x⟩ l.backKey v)
      rw [hx]
      exact congrArg Option.isSome hself
    · exact congrArg Option.isSome
        (s.get?_apply_of_ne (w := .setMerge ⟨Strings.student, x⟩ l.backKey v) hp)
  refine ⟨⟨fun p hp => h.name p (hget p ▸ hp), fun y id hid => ?_⟩, fun y => hget _⟩
  rw [Store.field_apply_setMerge, if_neg] at hid
  · exact h.id y id hid
  · rintro ⟨-, heq⟩
    exact l.backKey_ne_id heq.symm

/-! ## What an operation does to the links -/

/-- The student is added to a class or a parent, and nothing else happens to a link. -/
structure Adds (l : Link) (x g : String) (s s' : Store) : Prop where
  view : ∀ l', l'.view s' = if l' = l then (l'.view s).add x g else l'.view s
  kept : Kept s s'

/-- A student's setter writes to the document that the student was read from. -/
theorem WellNamed.ref {s : Store} (h : WellNamed s) {x : String} {d : Doc} {res : Student}
    {p : DocPath} (hd : s.get? ⟨Strings.student, x⟩ = some d)
    (hdec : Student.ofDictionary (Doc.data d) = some res)
    (hp : (IUser.student res).ref = some p) : p = ⟨Strings.student, x⟩ := by
  have hbase : BaseUser.decode (Doc.data d) = some res.toBaseUser :=
    UserHelper.Kind.decode_base (k := .student) (u := .student res) (Option.map_eq_some_iff.mpr
      ⟨res, hdec, rfl⟩)
  have hfield := (BaseUser.decode_fields hbase).1
  have hp : documentPath Strings.student (res.id.getD "") = some p := hp
  cases hid : res.id with
  | none =>
      rw [hid, Option.getD_none, documentPath_empty] at hp
      cases hp
  | some id =>
      rw [hid] at hfield hp
      have hstored : s.field ⟨Strings.student, x⟩ Strings.id = some (.string id) := by
        rw [Store.field, hd]
        exact getElem?_of_decodeIfPresent hfield
      obtain rfl := h.id x id hstored
      exact (Option.some.inj ((h.path hd).symm.trans hp)).symm

theorem adds_classroom {s s' : Store} (h : WellNamed s) {x g : String} {vs : Value}
    (hx : (s.get? ⟨Strings.student, x⟩).isSome) (hg : g ≠ "" ∧ '/' ∉ g.toList)
    (hs' : s' = s.applyAll
      [.setMerge ⟨Strings.student, x⟩ Strings.classID (.string g),
       .setMerge ⟨Strings.class, Strings.studentIDs⟩ Strings.students vs,
       .setMerge ⟨Strings.student, x⟩ Strings.classID (.string g),
       .unionMerge ⟨Strings.class, g⟩ Strings.studentIDs (.string x)]) :
    Adds .classroom x g s s' := by
  subst hs'
  have h₁ := h.kept_back .classroom (.string g) hx
  have h₂ := h₁.wellNamed.kept_apply
    (w := .setMerge ⟨Strings.class, Strings.studentIDs⟩ Strings.students vs) rfl (by decide)
    (by decide)
  have h₃ := h₂.wellNamed.kept_back .classroom (x := x) (.string g)
    (by rw [h₂.students, h₁.students]; exact hx)
  have h₄ := h₃.wellNamed.kept_apply
    (w := .unionMerge ⟨Strings.class, g⟩ Strings.studentIDs (.string x)) rfl hg (by decide)
  refine ⟨fun l' => ?_, ((h₁.trans h₂).trans h₃).trans h₄⟩
  have hlist := Link.view_list .classroom l'
  have hback := Link.view_back .classroom l'
  simp only [Link.collection, Link.listKey, Link.backKey] at hlist hback
  simp only [Store.applyAll_cons, Store.applyAll_nil, hlist, hback, Link.view_students]
  split
  · rw [Registry.setOwner_setOwner]
    rfl
  · rfl

theorem adds_parent {s s' : Store} (h : WellNamed s) {x g : String}
    (hx : (s.get? ⟨Strings.student, x⟩).isSome) (hg : g ≠ "" ∧ '/' ∉ g.toList)
    (hs' : s' = s.applyAll
      [.unionMerge ⟨Strings.parent, g⟩ Strings.students (.string x),
       .setMerge ⟨Strings.student, x⟩ Strings.parentID (.string g)]) :
    Adds .parent x g s s' := by
  subst hs'
  have h₁ := h.kept_apply
    (w := .unionMerge ⟨Strings.parent, g⟩ Strings.students (.string x)) rfl hg (by decide)
  have h₂ := h₁.wellNamed.kept_back .parent (x := x) (.string g)
    (by rw [h₁.students]; exact hx)
  refine ⟨fun l' => ?_, h₁.trans h₂⟩
  have hlist := Link.view_list .parent l'
  have hback := Link.view_back .parent l'
  simp only [Link.collection, Link.listKey, Link.backKey] at hlist hback
  simp only [Store.applyAll_cons, Store.applyAll_nil, hlist, hback]
  split
  · rw [Registry.setOwner_enrol]
  · rfl

/-! ## Operations -/

inductive Operation where
  /-- A teacher submits the popup, on a device with these variables. -/
  | submitPressed (device : World) (studentIDText : Option String)
  | addStudent (device : World) (parent : Parent) (newStudent : String)

namespace Operation

/-- The id of the class or of the parent that the student is added to. -/
def id : Operation → Option String
  | .submitPressed device _ => device.currentClassroom.id
  | .addStudent _ parent _ => parent.id

/-- The id of the student, as it is typed. -/
def studentID : Operation → Option String
  | .submitPressed _ studentIDText => studentIDText
  | .addStudent _ _ newStudent => some newStudent

section

variable [TextOps]

def run (s : Store) : Operation → EStateM.Result Halt World Unit
  | .submitPressed device studentIDText =>
      (AddStudentPopupController.submitPressed studentIDText).run { device with store := s }
  | .addStudent device parent newStudent =>
      (do let _ ← parent.addStudent newStudent).run { device with store := s }

/-- The store after the operation, whether it ends or traps. -/
def after (o : Operation) (s : Store) : Store :=
  match o.run s with
  | .ok _ σ => σ.store
  | .error _ σ => σ.store

/-- The operation does not trap half-way, the id is not written with slashes, and
what is typed is the name of the student that it finds. -/
structure Whole (o : Operation) (s : Store) : Prop where
  ends : (∃ σ, o.run s = .ok () σ) ∨ o.after s = s
  id : ∀ g, o.id = some g → '/' ∉ g.toList
  typed : ∀ x m d, o.studentID = some x → DatabaseHelper.Named s Strings.student x m d → m = x

theorem after_cases {o : Operation} {s : Store} (h : WellNamed s) (ho : o.Whole s) :
    o.after s = s ∨ ∃ l x g, Adds l x g s (o.after s) := by
  rcases ho.ends with ⟨σ, hrun⟩ | hsame
  · have hafter : o.after s = σ.store := by rw [after, hrun]
    rw [hafter]
    cases o with
    | submitPressed device studentIDText =>
        rcases AddStudentPopupController.submitPressed_eq_ok hrun with
          hsame | ⟨x, m, d, res, g, p, q, r, vs, htext, hnamed, hdec, hid, hp, hq, hr, hstore⟩
        · exact Or.inl hsame
        · obtain rfl : m = x := ho.typed x m d htext hnamed
          have hd : s.get? ⟨Strings.student, m⟩ = some d := hnamed.get
          have hx : (s.get? ⟨Strings.student, m⟩).isSome := by
            rw [hd]
            rfl
          obtain rfl := h.ref hd hdec hp
          obtain rfl := Option.some.inj ((h.path hd).symm.trans hq)
          obtain ⟨rfl, hne⟩ := eq_of_documentPath (ho.id g hid) hr
          exact Or.inr ⟨.classroom, m, g, adds_classroom h hx ⟨hne, ho.id g hid⟩ hstore⟩
    | addStudent device parent newStudent =>
        obtain ⟨_, _, hadd, hend⟩ := run_bind_eq_ok.mp hrun
        injection hend with _ hend
        subst hend
        rcases Parent.addStudent_eq_ok hadd with
          hsame | ⟨m, d, res, g, p, r, hnamed, hdec, hid, hp, hr, hstore⟩
        · exact Or.inl hsame
        · obtain rfl : m = newStudent := ho.typed newStudent m d rfl hnamed
          have hd : s.get? ⟨Strings.student, m⟩ = some d := hnamed.get
          have hx : (s.get? ⟨Strings.student, m⟩).isSome := by
            rw [hd]
            rfl
          obtain rfl := h.ref hd hdec hp
          obtain ⟨rfl, hne⟩ := eq_of_documentPath (ho.id g hid) hr
          exact Or.inr ⟨.parent, m, g, adds_parent h hx ⟨hne, ho.id g hid⟩ hstore⟩
  · exact Or.inl hsame

end

end Operation

/-! ## Runs -/

section Runs

variable [TextOps]

/-- The store, and the stores before it. -/
structure State where
  past : List Store
  store : Store

def State.stores (s : State) : List Store := s.past ++ [s.store]

def step (s : State) (o : Operation) : Option State :=
  some { past := s.past ++ [s.store], store := o.after s.store }

def system : System State Operation where
  Init s := s.past = [] ∧ WellNamed s.store ∧ ∀ l : Link, l.Consistent s.store
  step := step

/-- Every list records the past of the links that have been there throughout. -/
structure Inv (s : State) : Prop where
  wellNamed : WellNamed s.store
  recorded : ∀ (l : Link) (x g : String), (s.store.get? ⟨Strings.student, x⟩).isSome →
    (∀ t ∈ s.stores, (t.get? ⟨l.collection, g⟩).isSome) →
    Recorded (s.past.map l.view) (l.view s.store) x g

variable {s s' : State}

theorem Inv.init (h : system.Init s) : Inv s := by
  obtain ⟨hpast, hnamed, hconsistent⟩ := h
  refine ⟨hnamed, fun l x g hx hg => ?_⟩
  rw [hpast, List.map_nil, recorded_nil]
  exact hconsistent l x g hx (hg s.store (by simp [State.stores]))

theorem Inv.step (h : Inv s) {o : Operation} (ho : o.Whole s.store)
    (hs : step s o = some s') : Inv s' := by
  obtain rfl := Option.some.inj hs
  have hthroughout : ∀ {c g : String},
      (∀ t ∈ s.past ++ [s.store] ++ [o.after s.store], (t.get? ⟨c, g⟩).isSome) →
        ∀ t ∈ s.stores, (t.get? ⟨c, g⟩).isSome :=
    fun hg t ht => hg t (List.mem_append_left _ ht)
  rcases Operation.after_cases h.wellNamed ho with hsame | ⟨l₀, x₀, g₀, hadds⟩
  · refine ⟨by rw [hsame]; exact h.wellNamed, fun l x g hx hg => ?_⟩
    simp only [hsame] at hx ⊢
    rw [List.map_append]
    exact (h.recorded l x g hx (hthroughout hg)).same
  · refine ⟨hadds.kept.wellNamed, fun l x g hx hg => ?_⟩
    simp only [hadds.kept.students] at hx
    have hrecorded := h.recorded l x g hx (hthroughout hg)
    simp only [List.map_append, List.map_cons, List.map_nil, hadds.view]
    split
    · exact hrecorded.add x₀ g₀
    · exact hrecorded.same

theorem Inv.run (h : system.Run (fun s o => o.Whole s.store) s) : Inv s :=
  h.invariant (fun _ => Inv.init) fun _ _ _ hinv ho hs => hinv.step ho hs

/-- After any operations a class lists a student if and only if the student's
`classID` names the class or has named it before, and likewise for parents. -/
theorem listed_iff (h : system.Run (fun s o => o.Whole s.store) s) (l : Link) {x g : String}
    (hx : (s.store.get? ⟨Strings.student, x⟩).isSome)
    (hg : ∀ t ∈ s.stores, (t.get? ⟨l.collection, g⟩).isSome) :
    x ∈ l.members s.store g ↔ ∃ t ∈ s.stores, l.owner t x = some g := by
  have hrecorded := (Inv.run h).recorded l x g hx hg
  simpa [Recorded, EverOwned, State.stores, Link.view] using hrecorded

end Runs

/-! ## Ann moves to another class -/

section Example

attribute [local instance] TextOps.ascii

def annWrites : List Write :=
  [.setMerge ⟨Strings.student, "s_ann"⟩ Strings.id (.string "s_ann"),
   .setMerge ⟨Strings.student, "s_ann"⟩ Strings.classID (.string "c1"),
   .unionMerge ⟨Strings.class, "c1"⟩ Strings.studentIDs (.string "s_ann"),
   .setMerge ⟨Strings.class, "c2"⟩ Strings.id (.string "c2")]

/-- Two classes, and a student in the first. -/
def twoClasses : Store := Store.applyAll (fun _ => ∅) annWrites

theorem eq_ann_of_isSome {x : String} (h : (twoClasses.get? ⟨Strings.student, x⟩).isSome) :
    x = "s_ann" := by
  simpa [annWrites, Write.path, Strings.student, Strings.class] using Store.path_mem_of_get?_applyAll h

theorem init_twoClasses : system.Init ⟨[], twoClasses⟩ := by
  refine ⟨rfl, ⟨?_, ?_⟩, ?_⟩
  · intro p hp
    have hnames : ∀ p ∈ annWrites.map Write.path, p.document ≠ "" ∧ '/' ∉ p.document.toList := by
      decide
    exact hnames p (Store.path_mem_of_get?_applyAll hp)
  · intro x id hid
    cases hget : twoClasses.get? ⟨Strings.student, x⟩ with
    | none =>
        rw [Store.field, hget] at hid
        cases hid
    | some d =>
        obtain rfl := eq_ann_of_isSome (by rw [hget]; rfl)
        have hstored : twoClasses.field ⟨Strings.student, "s_ann"⟩ Strings.id =
            some (.string "s_ann") := rfl
        injection hid.symm.trans hstored with hvalue
        injection hvalue
  · intro l x g hx hg
    obtain rfl := eq_ann_of_isSome hx
    have hpath := Store.path_mem_of_get?_applyAll hg
    cases l with
    | parent =>
        simp [annWrites, Write.path, Link.collection, Strings.student, Strings.class,
          Strings.parent] at hpath
    | classroom =>
        have hg : g = "c1" ∨ g = "c2" := by
          simpa [annWrites, Write.path, Link.collection, Strings.student, Strings.class] using hpath
        rcases hg with rfl | rfl
        · exact iff_of_true (by decide : Value.string "s_ann" ∈ elements _) (by decide)
        · exact iff_of_false (by decide : ¬ Value.string "s_ann" ∈ elements _) (by decide)

/-- The teacher of the second class submits her id. -/
def addAnn : Operation :=
  .submitPressed { emptyWorld with currentClassroom := Classroom.new "c2" } (some "s_ann")

def ann : Student where
  id := some "s_ann"
  firstName := none
  lastName := none
  email := none
  bio := none
  photoPath := none
  pronouns := none
  userType := none
  gpa := none
  classID := some "c1"
  parentID := none

def annMoved : Store := twoClasses.applyAll
  [.setMerge ⟨Strings.student, "s_ann"⟩ Strings.classID (.string "c2"),
   .setMerge ⟨Strings.class, Strings.studentIDs⟩ Strings.students (.array [.string "s_ann"]),
   .setMerge ⟨Strings.student, "s_ann"⟩ Strings.classID (.string "c2"),
   .unionMerge ⟨Strings.class, "c2"⟩ Strings.studentIDs (.string "s_ann")]

theorem fetch_ann : DatabaseHelper.getStudentFromID twoClasses "s_ann" = .ok ann :=
  DatabaseHelper.getStudentFromID_eq_ok.mpr
      ⟨"s_ann", _, DatabaseHelper.named_ascii.mpr ⟨rfl, rfl⟩, rfl⟩

theorem run_addAnn : ∃ σ, addAnn.run twoClasses = .ok () σ ∧ σ.store = annMoved :=
  ⟨_, AddStudentPopupController.run_submitPressed
    (σ := { emptyWorld with currentClassroom := Classroom.new "c2", store := twoClasses })
    (p := ⟨Strings.student, "s_ann"⟩) (q := ⟨Strings.student, "s_ann"⟩)
    (r := ⟨Strings.class, "c2"⟩) fetch_ann rfl (by decide) rfl (by decide) (by decide), rfl⟩

/-- The same, with a class object that has no list, as none is stored. -/
def addAnnWithoutList : Operation :=
  .submitPressed
    { emptyWorld with currentClassroom := { Classroom.new "c2" with studentIDs := none } }
    (some "s_ann")

def annHalfMoved : Store :=
  twoClasses.apply (.setMerge ⟨Strings.student, "s_ann"⟩ Strings.classID (.string "c2"))

theorem after_addAnnWithoutList : addAnnWithoutList.after twoClasses = annHalfMoved := by
  have hrun : addAnnWithoutList.run twoClasses = .error .trap _ :=
    AddStudentPopupController.run_submitPressed_trap
      (p := ⟨Strings.student, "s_ann"⟩) fetch_ann rfl (by decide) rfl
  rw [Operation.after, hrun]
  rfl

theorem whole_addAnn : addAnn.Whole twoClasses := by
  obtain ⟨σ, hrun, -⟩ := run_addAnn
  refine ⟨Or.inl ⟨σ, hrun⟩, ?_, ?_⟩
  · rintro g hg
    obtain rfl : "c2" = g := Option.some.inj hg
    decide
  · exact fun x m d _ hnamed => (DatabaseHelper.named_ascii.mp hnamed).1

def movedState : State := ⟨[twoClasses], annMoved⟩

theorem run_movedState : system.Run (fun s o => o.Whole s.store) movedState := by
  obtain ⟨σ, hrun, hstore⟩ := run_addAnn
  have hafter : addAnn.after twoClasses = annMoved := by rw [Operation.after, hrun, ← hstore]
  exact .step (a := addAnn) (.init init_twoClasses) whole_addAnn
    (congrArg (fun t => some (⟨[twoClasses], t⟩ : State)) hafter)

/-! ### A document that holds another id -/

def crossedWrites : List Write :=
  [.setMerge ⟨Strings.student, "s_ann"⟩ Strings.id (.string "s_bob"),
   .setMerge ⟨Strings.student, "s_bob"⟩ Strings.id (.string "s_bob"),
   .setMerge ⟨Strings.class, "c2"⟩ Strings.id (.string "c2")]

def crossed : Store := Store.applyAll (fun _ => ∅) crossedWrites

/-- No link is stored. -/
theorem consistent_crossed (l : Link) : l.Consistent crossed := by
  intro x g hx hg
  have hx : x = "s_ann" ∨ x = "s_bob" := by
    simpa [crossedWrites, Write.path, Strings.student, Strings.class] using
      Store.path_mem_of_get?_applyAll hx
  have hg := Store.path_mem_of_get?_applyAll hg
  cases l with
  | parent =>
      simp [crossedWrites, Write.path, Link.collection, Strings.student, Strings.class,
        Strings.parent] at hg
  | classroom =>
      obtain rfl : g = "c2" := by
        simpa [crossedWrites, Write.path, Link.collection, Strings.student, Strings.class] using hg
      have hnot : ∀ x, x ∉ Link.classroom.members crossed "c2" := fun x hmem => by cases hmem
      rcases hx with rfl | rfl
      · exact iff_of_false (hnot _) (by decide)
      · exact iff_of_false (hnot _) (by decide)

def crossedAdded : Store := crossed.applyAll
  [.setMerge ⟨Strings.student, "s_bob"⟩ Strings.classID (.string "c2"),
   .setMerge ⟨Strings.class, Strings.studentIDs⟩ Strings.students (.array [.string "s_ann"]),
   .setMerge ⟨Strings.student, "s_ann"⟩ Strings.classID (.string "c2"),
   .unionMerge ⟨Strings.class, "c2"⟩ Strings.studentIDs (.string "s_ann")]

theorem after_crossed : addAnn.after crossed = crossedAdded := by
  have hfetch : DatabaseHelper.getStudentFromID crossed "s_ann" =
      .ok { ann with id := some "s_bob", classID := none } :=
    DatabaseHelper.getStudentFromID_eq_ok.mpr
      ⟨"s_ann", _, DatabaseHelper.named_ascii.mpr ⟨rfl, rfl⟩, rfl⟩
  have hrun : addAnn.run crossed = .ok () _ :=
    AddStudentPopupController.run_submitPressed
      (p := ⟨Strings.student, "s_bob"⟩) (q := ⟨Strings.student, "s_ann"⟩)
      (r := ⟨Strings.class, "c2"⟩) hfetch rfl (by decide) rfl (by decide) (by decide)
  rw [Operation.after, hrun]
  rfl

/-! ### A name that is spelled in another way -/

def accentWrites : List Write :=
  [.setMerge ⟨Strings.student, "s_é"⟩ Strings.id (.string "s_é"),
   .setMerge ⟨Strings.class, "c2"⟩ Strings.id (.string "c2")]

def accentStore : Store := Store.applyAll (fun _ => ∅) accentWrites

/-- No link is stored. -/
theorem consistent_accentStore (l : Link) : l.Consistent accentStore := by
  intro x g hx hg
  obtain rfl : x = "s_é" := by
    simpa [accentWrites, Write.path, Strings.student, Strings.class] using
      Store.path_mem_of_get?_applyAll hx
  have hg := Store.path_mem_of_get?_applyAll hg
  cases l with
  | parent =>
      simp [accentWrites, Write.path, Link.collection, Strings.student, Strings.class,
        Strings.parent] at hg
  | classroom =>
      obtain rfl : g = "c2" := by
        simpa [accentWrites, Write.path, Link.collection, Strings.student, Strings.class] using hg
      have hnot : "s_é" ∉ Link.classroom.members accentStore "c2" := fun hmem => by cases hmem
      exact iff_of_false hnot (by decide)

/-- The teacher types the accent as a character of its own. -/
def addRespelled : Operation :=
  .submitPressed { emptyWorld with currentClassroom := Classroom.new "c2" } (some "s_e\u0301")

def accentAdded : Store := accentStore.applyAll
  [.setMerge ⟨Strings.student, "s_é"⟩ Strings.classID (.string "c2"),
   .setMerge ⟨Strings.class, Strings.studentIDs⟩ Strings.students (.array [.string "s_e\u0301"]),
   .setMerge ⟨Strings.student, "s_e\u0301"⟩ Strings.classID (.string "c2"),
   .unionMerge ⟨Strings.class, "c2"⟩ Strings.studentIDs (.string "s_e\u0301")]

theorem after_addRespelled :
    @Operation.after TextOps.accented addRespelled accentStore = accentAdded := by
  let _ := TextOps.accented
  have hnamed : @DatabaseHelper.Named TextOps.accented accentStore Strings.student "s_e\u0301" "s_é"
      ((∅ : Doc).insert Strings.id (.string "s_é")) := by
    refine ⟨rfl, by decide, fun m' d' hget _ => Or.inl ?_⟩
    simpa [accentWrites, Write.path, Strings.student, Strings.class] using
      Store.path_mem_of_get?_applyAll (Option.isSome_of_eq_some hget)
  have hfetch : @DatabaseHelper.getStudentFromID TextOps.accented accentStore "s_e\u0301" =
      .ok { ann with id := some "s_é", classID := none } :=
    DatabaseHelper.getStudentFromID_eq_ok.mpr ⟨"s_é", _, hnamed, rfl⟩
  have hrun : addRespelled.run accentStore = .ok () _ :=
    AddStudentPopupController.run_submitPressed
      (p := ⟨Strings.student, "s_é"⟩) (q := ⟨Strings.student, "s_e\u0301"⟩)
      (r := ⟨Strings.class, "c2"⟩) hfetch rfl (by decide) rfl (by decide) (by decide)
  rw [Operation.after, hrun]
  rfl

/-! ### The two sides drift apart -/

/-- A class keeps a student who moves; a teacher whose class object has no list
traps between the two sides; a document that holds another student's id sends
one side there; and an id that is typed in another spelling is listed so. -/
theorem not_consistent_of_moved :
    (∃ s : State, system.Reachable s ∧ ¬ Link.classroom.Consistent s.store)
      ∧ ((∀ l : Link, l.Consistent twoClasses)
        ∧ ¬ Link.classroom.Consistent (addAnnWithoutList.after twoClasses))
      ∧ ((∀ l : Link, l.Consistent crossed)
        ∧ ¬ Link.classroom.Consistent (addAnn.after crossed))
      ∧ (∀ l : Link, l.Consistent accentStore)
      ∧ ¬ Link.classroom.Consistent
        (@Operation.after TextOps.accented addRespelled accentStore) := by
  refine ⟨⟨movedState, run_movedState.weaken fun _ _ _ => trivial, fun h => ?_⟩,
    ⟨init_twoClasses.2.2, fun h => ?_⟩, ⟨consistent_crossed, fun h => ?_⟩,
    consistent_accentStore, fun h => ?_⟩
  · have hiff := h "s_ann" "c1" (by decide) (by decide)
    have hlisted : "s_ann" ∈ Link.classroom.members annMoved "c1" :=
      (by decide : Value.string "s_ann" ∈ elements _)
    exact absurd (hiff.mp hlisted) (by decide)
  · rw [after_addAnnWithoutList] at h
    have hiff := h "s_ann" "c2" (by decide) (by decide)
    have hnot : "s_ann" ∉ Link.classroom.members annHalfMoved "c2" :=
      (by decide : ¬ Value.string "s_ann" ∈ elements _)
    exact hnot (hiff.mpr (by decide))
  · rw [after_crossed] at h
    have hiff := h "s_bob" "c2" (by decide) (by decide)
    have hnot : "s_bob" ∉ Link.classroom.members crossedAdded "c2" :=
      (by decide : ¬ Value.string "s_bob" ∈ elements _)
    exact hnot (hiff.mpr (by decide))
  · rw [after_addRespelled] at h
    have hiff := h "s_é" "c2" (by decide) (by decide)
    have hnot : "s_é" ∉ Link.classroom.members accentAdded "c2" :=
      (by decide : ¬ Value.string "s_é" ∈ elements _)
    exact hnot (hiff.mpr (by decide))

/-- Both classes list her: each has been her class. -/
theorem listed_ann :
    "s_ann" ∈ Link.classroom.members annMoved "c1"
      ↔ ∃ t ∈ movedState.stores, Link.classroom.owner t "s_ann" = some "c1" :=
  listed_iff run_movedState .classroom (by decide) (by decide)

end Example

end GradeIo.Membership
