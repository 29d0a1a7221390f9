import GradeIo.Home
import GradeIo.Registration

/-!
# Signing in after signing up

A user who has just signed up signs in with the new id, on the store that the
sign-up left. `signsIn_iff_returns` says exactly when that gives the user back:
`Returns` speaks of the store before the sign-up only.

The lookup takes the first document with the id, and names are not unique, so
another document may stand before the new one. The copy that a parent code
makes is never found: it has no id, and the grade point average in it is a text.
-/

namespace GradeIo.Registration

open DocDb App UserHelper

/-- The class of the user that a sign-up makes. -/
def kind : Event → Kind
  | .student _ _ => .student
  | .teacher _ _ => .teacher
  | .parent _ _ => .parent
  | .parentCode _ _ => .student

/-- The names entered in the form, or those of the placeholder. -/
def names [TextOps] (s : Store) : Event → Option String × Option String
  | .student _ form => (some form.firstName, some form.lastName)
  | .teacher _ form => (some form.firstName, some form.lastName)
  | .parent _ form => (some form.firstName, some form.lastName)
  | .parentCode _ code =>
      match Student.ofGivenCode code s with
      | .ok res => (res.firstName, res.lastName)
      | .error _ => (none, none)

/-! ## The condition -/

/-- A document with the id, among those outside `touched`. -/
structure Homonym (s : Store) (k : Kind) (id : String) (touched : DocPath → Prop)
    (m : String) (d : Doc) : Prop where
  get : s.get? ⟨k.collection, m⟩ = some d
  field : d[Strings.id]? = some (.string id)
  untouched : ¬ touched ⟨k.collection, m⟩

/-- The first of them, standing before the documents of `own` too. -/
structure FirstHomonym (s : Store) (k : Kind) (id : String) (touched : DocPath → Prop)
    (own : String → Prop) (m : String) (d : Doc) : Prop extends Homonym s k id touched m d where
  first : ∀ m' d', Homonym s k id touched m' d' → m' = m ∨ compare m m' = .lt
  before : ∀ n, own n → compare m n = .lt

/-- The document decodes to a user with the names, whose home screen loads. -/
def Usable [TextOps] (s : Store) (k : Kind) (first last : Option String) (d : Doc) : Prop :=
  ∃ u, k.ofDictionary (Doc.data d) = some u ∧ u.firstName = first ∧ u.lastName = last
    ∧ HomeLoads s u

/-- The document of the form decodes, in spite of what was in it before. -/
def OwnUsable [TextOps] (s : Store) (k : Kind) (p : DocPath) (fields : List (String × String)) : Prop :=
  ∃ u, k.ofDictionary (Doc.data (((s.get? p).getD ∅).merge (strings fields))) = some u
    ∧ HomeLoads s u

/-- Either the new document comes first and is usable, or another one does. -/
def ReturnsForm (ops : TextOps) (o : Outcome) (form : Form) (k : Kind)
    (fields : List (String × String)) (w : World) : Prop :=
  ∃ name p, generateUserName ops o form.firstName form.lastName k.collection w.store = .ok name
    ∧ documentPath k.collection name = some p
    ∧ ((∃ n, p = ⟨k.collection, n⟩
          ∧ (∀ m d, Homonym w.store k name (· = p) m d → compare n m = .lt)
          ∧ OwnUsable w.store k p ((Strings.id, name) :: fields))
      ∨ ∃ m d, FirstHomonym w.store k name (· = p) (fun n => p = ⟨k.collection, n⟩) m d
          ∧ Usable w.store k (some form.firstName) (some form.lastName) d)

/-- Another student has the id already and comes first. -/
def ReturnsCode (ops : TextOps) (o : Outcome) (code : String) (w : World) : Prop :=
  ∃ res name p q, Student.ofGivenCode code w.store = .ok res
    ∧ generateUserName ops o (res.firstName.getD "") (res.lastName.getD "") "Student" w.store =
        .ok name
    ∧ documentPath Strings.student ("s_" ++ name) = some p
    ∧ documentPath Strings.student code = some q
    ∧ ∃ m d, FirstHomonym w.store .student ("s_" ++ name) (fun r => r = p ∨ r = q)
        (fun n => p = ⟨Strings.student, n⟩ ∧ p ≠ q
          ∧ ∃ d, w.store.get? p = some d ∧ d[Strings.id]? = some (.string ("s_" ++ name))) m d
        ∧ Usable w.store .student res.firstName res.lastName d

def Returns (ops : TextOps) (w : World) : Event → Prop
  | .student o form => ReturnsForm ops o form .student (studentFields form) w
  | .teacher o form => ReturnsForm ops o form .teacher (adultFields form) w
  | .parent o form => ReturnsForm ops o form .parent (adultFields form) w
  | .parentCode o code => ReturnsCode ops o code w

/-! ## Names and collections -/

/-- The lower-case initial of a class. -/
def initial : Kind → Char
  | .student => 's'
  | .teacher => 't'
  | .parent => 'p'

theorem isAlpha_initial (k : Kind) : (initial k).isAlpha = true := by
  cases k <;> rfl

theorem segue_of_initial [TextOps] {k : Kind} {id : String}
    (h : TextOps.first id = some (initial k).toString) :
    SignIn.performSignInSegue (some id) = some k := by
  unfold SignIn.performSignInSegue
  rw [Option.bind_some, h]
  cases k <;> rfl

/-- The name of a collection gives the initial. -/
theorem first_collection (ops : TextOps) (k : Kind) :
    ∃ c, TextOps.first k.collection = some c ∧ ops.lowercased c = (initial k).toString := by
  cases k with
  | student =>
      have hfirst := ops.first_letter (c := 'S') (d := 't') "udent".toList rfl (Or.inl rfl)
      exact ⟨"S", hfirst, ops.lowercased_letter (c := 'S') rfl⟩
  | teacher =>
      have hfirst := ops.first_letter (c := 'T') (d := 'e') "acher".toList rfl (Or.inl rfl)
      exact ⟨"T", hfirst, ops.lowercased_letter (c := 'T') rfl⟩
  | parent =>
      have hfirst := ops.first_letter (c := 'P') (d := 'a') "rent".toList rfl (Or.inl rfl)
      exact ⟨"P", hfirst, ops.lowercased_letter (c := 'P') rfl⟩

theorem plainUserName_collection (ops : TextOps) (firstName lastName : String) (k : Kind) :
    plainUserName ops firstName lastName k.collection =
      .ok ((initial k).toString ++ "_" ++ ops.lowercased
        (ops.takePrefix lastNameIndexDefault lastName
          ++ ops.takePrefix firstNameIndexDefault firstName)) := by
  obtain ⟨c, hfirst, hlower⟩ := first_collection ops k
  rw [plainUserName, hfirst, ← hlower]
  rfl

/-- A generated name starts with the initial of the class. -/
theorem initial_of_generateUserName {ops : TextOps} {o : Outcome} {firstName lastName : String}
    {k : Kind} {s : Store} {name : String}
    (h : generateUserName ops o firstName lastName k.collection s = .ok name) :
    TextOps.first name = some (initial k).toString := by
  rw [generateUserName_of_plain (plainUserName_collection ops firstName lastName k)] at h
  split at h
  · cases h
  · rw [← Except.ok.inj h]
    split
    · rw [String.append_assoc]
      exact TextOps.first_prefixed (isAlpha_initial k) _
    · exact TextOps.first_prefixed (isAlpha_initial k) _

/-- What a home screen loads is not in the collection of its class. -/
theorem homeLoads_congr [TextOps] {s s' : Store} {k : Kind} {u : IUser} (hu : u.className = k.collection)
    (h : ∀ c m, c.toList.head? ≠ k.collection.toList.head? →
      s'.get? ⟨c, m⟩ = s.get? ⟨c, m⟩) : HomeLoads s' u ↔ HomeLoads s u := by
  have hne : ∀ c, c.toList.head? ≠ u.className.toList.head? → ∀ m,
      s'.get? ⟨c, m⟩ = s.get? ⟨c, m⟩ := fun c hc m => h c m (hu ▸ hc)
  cases u with
  | base u => exact Iff.rfl
  | student u =>
      have hclass := hne Strings.class (show _ ≠ "Student".toList.head? by decide)
      have hassignment := hne Strings.assignment (show _ ≠ "Student".toList.head? by decide)
      simp only [HomeLoads, ClassLoads, DatabaseHelper.named_congr hclass, hassignment]
  | teacher u =>
      have hclass := hne Strings.class (show _ ≠ "Teacher".toList.head? by decide)
      simp only [HomeLoads, ClassLoads, DatabaseHelper.named_congr hclass]
  | parent u =>
      have hstudent := hne Strings.student (show _ ≠ "Parent".toList.head? by decide)
      simp only [HomeLoads, hstudent]

/-! ## Sign-in on the store that a sign-up leaves -/

section Left

variable {s s' : Store} {k : Kind} {id : String} {touched : DocPath → Prop}

theorem Homonym.get_left {m : String} {d : Doc} (h : Homonym s k id touched m d)
    (hsame : ∀ p, ¬ touched p → s'.get? p = s.get? p) : s'.get? ⟨k.collection, m⟩ = some d :=
  (hsame _ h.untouched).trans h.get

/-- What is found first and was not touched is the first homonym. -/
theorem firstHomonym_of_found {own : String → Prop} {m : String} {d : Doc}
    (hsame : ∀ p, ¬ touched p → s'.get? p = s.get? p)
    (hown : ∀ n, own n → touched ⟨k.collection, n⟩
      ∧ ∃ e, s'.get? ⟨k.collection, n⟩ = some e ∧ e[Strings.id]? = some (.string id))
    (hfound : s'.Found k.collection Strings.id (.string id) m d)
    (hm : ¬ touched ⟨k.collection, m⟩) : FirstHomonym s k id touched own m d where
  get := (hsame _ hm).symm.trans hfound.get
  field := hfound.field
  untouched := hm
  first := fun m' d' h => hfound.first m' d' (h.get_left hsame) h.field
  before := by
    intro n hn
    obtain ⟨htouched, e, hget, hfield⟩ := hown n hn
    rcases hfound.first n e hget hfield with rfl | hlt
    · exact absurd htouched hm
    · exact hlt

/-- The first homonym is found first. -/
theorem FirstHomonym.found {own : String → Prop} {m : String} {d : Doc}
    (h : FirstHomonym s k id touched own m d)
    (hsame : ∀ p, ¬ touched p → s'.get? p = s.get? p)
    (hown : ∀ n e, touched ⟨k.collection, n⟩ → s'.get? ⟨k.collection, n⟩ = some e →
      e[Strings.id]? = some (.string id) → own n) :
    s'.Found k.collection Strings.id (.string id) m d where
  get := h.get_left hsame
  field := h.field
  first := by
    intro m' d' hget hfield
    by_cases hm' : touched ⟨k.collection, m'⟩
    · exact Or.inr (h.before m' (hown m' d' hm' hget hfield))
    · exact h.first m' d' ⟨(hsame _ hm').symm.trans hget, hfield, hm'⟩

end Left

section Form

variable {ops : TextOps} {o : Outcome} {form : Form} {k : Kind} {w : World}
  {fields : List (String × String)}

theorem signsIn_iff_returnsForm {now : Rat} {name segue : String} {p : DocPath} {user : IUser}
    (hgen : generateUserName ops o form.firstName form.lastName k.collection w.store = .ok name)
    (hp : documentPath k.collection name = some p)
    (hfields : fields = studentFields form ∨ fields = adultFields form) :
    SignsIn now (w.signedUp name p fields user segue) k name (some form.firstName)
        (some form.lastName) ↔ ReturnsForm ops o form k fields w := by
  let own := ((w.store.get? p).getD ∅).merge (strings ((Strings.id, name) :: fields))
  have hown : (w.signedUp name p fields user segue).store.get? p = some own := Store.get?_mergeAll
  have hsame : ∀ q, ¬ q = p →
      (w.signedUp name p fields user segue).store.get? q = w.store.get? q :=
    fun q hq => Store.get?_mergeAll_of_ne hq
  have hid : own[Strings.id]? = some (.string name) := by
    rw [Doc.getElem?_merge]
    rcases hfields with rfl | rfl <;> rfl
  have hfirst : own[Strings.firstName]? = some (.string form.firstName) := by
    rw [Doc.getElem?_merge]
    rcases hfields with rfl | rfl <;> rfl
  have hlast : own[Strings.lastName]? = some (.string form.lastName) := by
    rw [Doc.getElem?_merge]
    rcases hfields with rfl | rfl <;> rfl
  have hloads : ∀ {u : IUser}, u.className = k.collection →
      (HomeLoads (w.signedUp name p fields user segue).store u ↔ HomeLoads w.store u) := by
    intro u hu
    refine homeLoads_congr hu fun c m hc => hsame _ ?_
    rintro rfl
    exact hc (head?_collection_of_documentPath (by cases k <;> decide) hp)
  rw [signsIn_iff (segue_of_initial (initial_of_generateUserName hgen)) hp]
  constructor
  · rintro ⟨m, d, u, hfound, hdec, hf, hl, hhome⟩
    rw [hloads (Kind.className_of_ofDictionary hdec)] at hhome
    refine ⟨name, p, hgen, hp, ?_⟩
    by_cases hm : (⟨k.collection, m⟩ : DocPath) = p
    · left
      subst hm
      obtain rfl : own = d := Option.some.inj (hown.symm.trans hfound.get)
      refine ⟨m, rfl, fun m' d' h => ?_, u, hdec, hhome⟩
      rcases hfound.first m' d' (h.get_left hsame) h.field with rfl | hlt
      · exact absurd rfl h.untouched
      · exact hlt
    · right
      refine ⟨m, d, firstHomonym_of_found hsame ?_ hfound hm, u, hdec, hf, hl, hhome⟩
      rintro n rfl
      exact ⟨rfl, own, hown, hid⟩
  · rintro ⟨name', p', hgen', hp', hcases⟩
    obtain rfl : name = name' := Except.ok.inj (hgen.symm.trans hgen')
    obtain rfl : p = p' := Option.some.inj (hp.symm.trans hp')
    rcases hcases with ⟨n, rfl, hbefore, u, hdec, hhome⟩ | ⟨m, d, h, u, hdec, hf, hl, hhome⟩
    · obtain ⟨hf, hl⟩ := Kind.names_of_ofDictionary hdec hfirst hlast
      refine ⟨n, own, u, ⟨hown, hid, fun m' d' hget hfield => ?_⟩, hdec, hf, hl,
        (hloads (Kind.className_of_ofDictionary hdec)).mpr hhome⟩
      by_cases hm' : (⟨k.collection, m'⟩ : DocPath) = ⟨k.collection, n⟩
      · exact Or.inl (congrArg DocPath.document hm')
      · exact Or.inr (hbefore m' d' ⟨(hsame _ hm').symm.trans hget, hfield, hm'⟩)
    · exact ⟨m, d, u, h.found hsame fun n e hn _ _ => hn.symm, hdec, hf, hl,
        (hloads (Kind.className_of_ofDictionary hdec)).mpr hhome⟩

end Form

section Code

variable {ops : TextOps} {floatDescription : Rat → String} {o : Outcome} {code name : String}
  {w : World} {res : Student} {p q : DocPath}

theorem signsIn_iff_returnsCode {now : Rat}
    (hcode : Student.ofGivenCode code w.store = .ok res)
    (hgen : generateUserName ops o (res.firstName.getD "") (res.lastName.getD "") "Student"
      w.store = .ok name)
    (hp : documentPath Strings.student ("s_" ++ name) = some p)
    (hq : documentPath Strings.student code = some q) :
    SignsIn now (w.migrated floatDescription res name p q) .student ("s_" ++ name) res.firstName
        res.lastName ↔ ReturnsCode ops o code w := by
  have hsame : ∀ r, ¬ (r = p ∨ r = q) →
      (w.migrated floatDescription res name p q).store.get? r = w.store.get? r :=
    fun r hr => get?_migrated_of_ne (fun h => hr (Or.inl h)) fun h => hr (Or.inr h)
  have hloads : ∀ {u : IUser}, u.className = Kind.student.collection →
      (HomeLoads (w.migrated floatDescription res name p q).store u ↔ HomeLoads w.store u) := by
    intro u hu
    refine homeLoads_congr hu fun c m hc => hsame _ ?_
    rintro (rfl | rfl)
    · exact hc (head?_collection_of_documentPath (by decide) hp)
    · exact hc (head?_collection_of_documentPath (by decide) hq)
  -- the id in the copy is the one that was in its document before
  have hfield : ∀ v, (((w.store.get? p).getD ∅).merge
        (strings (migratedFields floatDescription res)))[Strings.id]? = some v ↔
      ∃ d, w.store.get? p = some d ∧ d[Strings.id]? = some v := by
    intro v
    have hnone : (strings (migratedFields floatDescription res)).reverse.lookup Strings.id = none :=
      rfl
    rw [Doc.getElem?_merge, hnone]
    cases w.store.get? p <;> simp
  have hinitial : TextOps.first ("s_" ++ name) = some (initial .student).toString :=
    TextOps.first_prefixed (isAlpha_initial .student) name
  rw [signsIn_iff (segue_of_initial hinitial) hp]
  constructor
  · rintro ⟨m, d, u, hfound, hdec, hf, hl, hhome⟩
    rw [hloads (Kind.className_of_ofDictionary hdec)] at hhome
    refine ⟨res, name, p, q, hcode, hgen, hp, hq, m, d, ?_, u, hdec, hf, hl, hhome⟩
    refine firstHomonym_of_found hsame ?_ hfound ?_
    · rintro n ⟨rfl, hne, hid⟩
      refine ⟨Or.inl rfl, _, ?_, (hfield _).mpr hid⟩
      exact get?_migrated_self.trans (if_neg hne)
    · have hget := hfound.get
      rintro (rfl | rfl)
      · -- the copy does not decode
        rw [get?_migrated_self] at hget
        split at hget
        · cases hget
        · obtain rfl := Option.some.inj hget
          obtain ⟨student, hstudent, -⟩ := Option.map_eq_some_iff.mp hdec
          rw [ofDictionary_merge_migrated] at hstudent
          cases hstudent
      · rw [get?_migrated_deleted] at hget
        cases hget
  · rintro ⟨res', name', p', q', hcode', hgen', hp', hq', m, d, h, u, hdec, hf, hl, hhome⟩
    obtain rfl : res = res' := Except.ok.inj (hcode.symm.trans hcode')
    obtain rfl : name = name' := Except.ok.inj (hgen.symm.trans hgen')
    obtain rfl : p = p' := Option.some.inj (hp.symm.trans hp')
    obtain rfl : q = q' := Option.some.inj (hq.symm.trans hq')
    refine ⟨m, d, u, h.found hsame ?_, hdec, hf, hl,
      (hloads (Kind.className_of_ofDictionary hdec)).mpr hhome⟩
    rintro n e (rfl | rfl) hget hid
    · rw [get?_migrated_self] at hget
      split at hget
      · cases hget
      · rename_i hne
        obtain rfl := Option.some.inj hget
        exact ⟨rfl, hne, (hfield _).mp hid⟩
    · rw [get?_migrated_deleted] at hget
      cases hget

end Code

/-! ## The four paths -/

section Paths

variable {ops : TextOps} {floatDescription : Rat → String} {w w' : World}

theorem ok_true_ne_unregistered {r : EStateM.Result Halt World Bool} (h : r = .ok true w') :
    ¬ Unregistered w r := by
  rintro hno
  rw [h] at hno
  exact hno

/-- For every completed sign-up, the new user can sign in again exactly when
`Returns` holds of the world before it. -/
theorem signsIn_iff_returns {now : Rat} {e : Event} {id : String}
    (h : (handler ops floatDescription e).run w = .ok true w')
    (hid : w'.currentUser.id = some id) :
    SignsIn now w' (kind e) id (names w.store e).1 (names w.store e).2 ↔ Returns ops w e := by
  have hform : ∀ {o form type fields new segue} {k : Kind}, type = k.collection →
      fields = studentFields form ∨ fields = adultFields form →
      (∀ name, (new name).id = some name) →
      Registers ops o form type fields new segue w (.ok true w') →
      (SignsIn now w' k id (some form.firstName) (some form.lastName) ↔
        ReturnsForm ops o form k fields w) := by
    rintro o form type fields new segue k rfl hfields hnew ⟨name, p, hgen, -, -, hp, hw⟩
    obtain rfl : w' = w.signedUp name p fields (new name) segue := by injection hw
    obtain rfl : name = id := Option.some.inj ((hnew name).symm.trans hid)
    exact signsIn_iff_returnsForm hgen hp hfields
  cases e with
  | student o form =>
      rcases CreateAccountStudent.signUpPressed_cases (σ := w) with hno | hreg
      · exact absurd hno (ok_true_ne_unregistered h)
      · exact hform rfl (Or.inl rfl) (fun _ => rfl) (h ▸ hreg)
  | teacher o form =>
      rcases CreateAccountTeacher.signUpPressed_cases (σ := w) with hno | ⟨-, hreg⟩
      · exact absurd hno (ok_true_ne_unregistered h)
      · exact hform rfl (Or.inr rfl) (fun _ => rfl) (h ▸ hreg)
  | parent o form =>
      rcases CreateAccountParent.signUpPressed_cases (σ := w) with hno | ⟨-, hreg⟩
      · exact absurd hno (ok_true_ne_unregistered h)
      · exact hform rfl (Or.inr rfl) (fun _ => rfl) (h ▸ hreg)
  | parentCode o code =>
      rcases signUpParentCode_cases (σ := w) with hno | ⟨res, name, p, hcode, -, hgen, hp, hrun⟩
      · exact absurd hno (ok_true_ne_unregistered h)
      · have hrun := hrun.symm.trans h
        cases hq : documentPath Strings.student code with
        | none =>
            rw [hq] at hrun
            cases hrun
        | some q =>
            rw [hq] at hrun
            obtain rfl : w.migrated floatDescription res name p q = w' := by
              injection hrun
            obtain rfl : "s_" ++ name = id := Option.some.inj hid
            have hnames : names w.store (.parentCode o code) = (res.firstName, res.lastName) := by
              rw [names, hcode]
            rw [hnames]
            exact signsIn_iff_returnsCode hcode hgen hp hq

end Paths

/-! ## New names -/

section New

theorem lookup_strings (fields : List (String × String)) (key : String) :
    (strings fields).lookup key = (fields.lookup key).map .string := by
  induction fields with
  | nil => rfl
  | cons f fields ih =>
      simp only [strings, List.map_cons, List.lookup] at ih ⊢
      cases key == f.1 <;> simp [ih]

theorem getElem?_new (fields : List (String × String)) (key : String) :
    ((∅ : Doc).merge (strings fields))[key]? = (fields.reverse.lookup key).map .string := by
  have hreverse : (strings fields).reverse = strings fields.reverse := by
    simp [strings]
  rw [Doc.getElem?_merge, hreverse, lookup_strings]
  simp

theorem isValid_new (fields : List (String × String)) :
    isValidJSONObject (Doc.data ((∅ : Doc).merge (strings fields))) = true := by
  rw [isValidJSONObject_iff]
  rintro ⟨k, v⟩ hp
  rw [Doc.mem_data, getElem?_new] at hp
  obtain ⟨s, -, rfl⟩ := Option.map_eq_some_iff.mp hp
  rfl

theorem decodeIfPresent_new (fields : List (String × String)) (key : String) :
    decodeIfPresent asString (Doc.data ((∅ : Doc).merge (strings fields))) key =
      some (fields.reverse.lookup key) := by
  rw [decodeIfPresent, Doc.lookup_data, getElem?_new]
  cases fields.reverse.lookup key <;> rfl

theorem decodeIfPresent_new_of_absent {α : Type} {as : Value → Option α}
    {fields : List (String × String)} (key : String) (h : fields.reverse.lookup key = none) :
    decodeIfPresent as (Doc.data ((∅ : Doc).merge (strings fields))) key = some none := by
  rw [decodeIfPresent, Doc.lookup_data, getElem?_new, h]
  rfl

variable {name : String} {form : Form}

/-- A new student has nothing but an id and a name. -/
theorem ofDictionary_newStudent :
    Student.ofDictionary (Doc.data ((∅ : Doc).merge
        (strings ((Strings.id, name) :: studentFields form)))) =
      some { id := some name, firstName := some form.firstName, lastName := some form.lastName,
             email := none, bio := none, photoPath := none, pronouns := none, userType := none,
             gpa := none, classID := none, parentID := none } := by
  rw [Student.ofDictionary, initDictionary, if_pos (isValid_new _), Student.decode,
    decodeIfPresent_new_of_absent Strings.gpa rfl, BaseUser.decode]
  simp only [decodeIfPresent_new]
  rfl

theorem decode_newAdult :
    BaseAdult.decode (Doc.data ((∅ : Doc).merge
        (strings ((Strings.id, name) :: adultFields form)))) =
      some { id := some name, firstName := some form.firstName, lastName := some form.lastName,
             email := some form.email, bio := none, photoPath := none, pronouns := none,
             userType := none, phone := some form.phoneNumber } := by
  rw [BaseAdult.decode, BaseUser.decode]
  simp only [decodeIfPresent_new]
  rfl

/-- A new teacher has no class. -/
theorem ofDictionary_newTeacher {u : Teacher}
    (h : Teacher.ofDictionary (Doc.data ((∅ : Doc).merge
      (strings ((Strings.id, name) :: adultFields form)))) = some u) : u.classID = none := by
  have h := ofDictionary_eq_some h
  rw [Teacher.decode, decode_newAdult,
    decodeIfPresent_new_of_absent Strings.classID rfl] at h
  rw [← Option.some.inj h]

/-- A new parent has no children. -/
theorem ofDictionary_newParent (name : String) (form : Form) :
    ∃ u, Parent.ofDictionary (Doc.data ((∅ : Doc).merge
      (strings ((Strings.id, name) :: adultFields form)))) = some u ∧ u.students = none := by
  rw [Parent.ofDictionary, initDictionary, if_pos (isValid_new _), Parent.decode,
    decode_newAdult, decodeIfPresent_new_of_absent Strings.students rfl]
  exact ⟨_, rfl, rfl⟩

variable {ops : TextOps} {o : Outcome} {w : World}

/-- The name is that of no document yet, and the id of none either. -/
structure NewName (ops : TextOps) (o : Outcome) (form : Form) (k : Kind) (w : World)
    (name : String) (n : String) : Prop where
  generated : generateUserName ops o form.firstName form.lastName k.collection w.store = .ok name
  path : documentPath k.collection name = some ⟨k.collection, n⟩
  absent : w.store.get? ⟨k.collection, n⟩ = none
  unique : ∀ m d, w.store.get? ⟨k.collection, m⟩ = some d → d[Strings.id]? ≠ some (.string name)

theorem NewName.returnsForm_iff {k : Kind} {n : String} (h : NewName ops o form k w name n)
    (fields : List (String × String)) :
    ReturnsForm ops o form k fields w ↔
      ∃ u, k.ofDictionary (Doc.data ((∅ : Doc).merge (strings ((Strings.id, name) :: fields)))) =
        some u ∧ HomeLoads w.store u := by
  constructor
  · rintro ⟨name', p, hgen, hp, hcases⟩
    obtain rfl : name = name' := Except.ok.inj (h.generated.symm.trans hgen)
    obtain rfl := Option.some.inj (h.path.symm.trans hp)
    rcases hcases with ⟨-, -, -, u, hdec, hhome⟩ | ⟨m, d, hfirst, -⟩
    · rw [h.absent] at hdec
      exact ⟨u, hdec, hhome⟩
    · exact absurd hfirst.field (h.unique m d hfirst.get)
  · rintro ⟨u, hdec, hhome⟩
    refine ⟨name, _, h.generated, h.path, Or.inl ⟨n, rfl, fun m d hm => ?_, u, ?_, hhome⟩⟩
    · exact absurd hm.field (h.unique m d hm.get)
    · rw [h.absent]
      exact hdec

/-- A student with a new name needs nothing but a class `NULL` that loads, if there is one. -/
theorem NewName.returns_student_iff {n : String} (h : NewName ops o form .student w name n) :
    Returns ops w (.student o form) ↔ ClassLoads w.store "NULL" fun c =>
      ∀ id d, TextOps.contains (c.assignmentIDs.getD []) id = true →
        w.store.get? ⟨Strings.assignment, id⟩ = some d → Assignment.loads d = true := by
  refine (h.returnsForm_iff (studentFields form)).trans ?_
  simp only [Kind.ofDictionary, ofDictionary_newStudent, Option.map_some, Option.some.injEq,
    exists_eq_left', HomeLoads, Option.getD_none]

/-- A parent with a new name always gets back in. -/
theorem NewName.returns_parent {n : String} (h : NewName ops o form .parent w name n) :
    Returns ops w (.parent o form) := by
  obtain ⟨u, hdec, hstudents⟩ := ofDictionary_newParent name form
  refine (h.returnsForm_iff (adultFields form)).mpr ⟨.parent u, by simp [Kind.ofDictionary, hdec], ?_⟩
  simp [HomeLoads, hstudents]

/-- A teacher with a new name never does: the home screen needs a class. -/
theorem NewName.not_returns_teacher {n : String} (h : NewName ops o form .teacher w name n) :
    ¬ Returns ops w (.teacher o form) := by
  intro hreturns
  obtain ⟨u, hdec, hhome⟩ := (h.returnsForm_iff (adultFields form)).mp hreturns
  obtain ⟨t, ht, rfl⟩ := Option.map_eq_some_iff.mp hdec
  obtain ⟨classID, hclass, -⟩ := hhome
  rw [ofDictionary_newTeacher ht] at hclass
  cases hclass

end New

/-! ## Ann gets back in, and Cara the teacher does not -/

section Example

attribute [local instance] TextOps.ascii

theorem newName_empty {form : Form} {k : Kind} {name : String}
    (hgen : generateUserName TextOps.ascii accepting form.firstName form.lastName k.collection
      emptyWorld.store = .ok name)
    (hp : documentPath k.collection name = some ⟨k.collection, name⟩) :
    NewName TextOps.ascii accepting form k emptyWorld name name where
  generated := hgen
  path := hp
  absent := rfl
  unique := fun m d hd => by simp [emptyWorld, Store.get?] at hd

theorem signsIn_ann :
    SignsIn 0 annWorld .student "s_leeann" (some "Ann") (some "Lee") := by
  have hnew : NewName TextOps.ascii accepting annForm .student emptyWorld "s_leeann" "s_leeann" :=
    newName_empty rfl (by decide)
  have hrun : (handler TextOps.ascii (fun _ => "0.0") (.student accepting annForm)).run emptyWorld =
      .ok true annWorld := run_ann
  refine (signsIn_iff_returns hrun rfl).mpr (hnew.returns_student_iff.mpr fun m d hnamed => ?_)
  have hget := hnamed.get
  simp [emptyWorld, Store.get?] at hget

def caraForm : Form where
  firstName := "Cara"
  lastName := "Dune"
  password := "password"
  confirmPassword := "password"
  email := "cara@example.com"
  phoneNumber := "555"

def caraPath : DocPath := ⟨Strings.teacher, "t_dunecar"⟩

def caraWorld : World :=
  emptyWorld.signedUp "t_dunecar" caraPath (adultFields caraForm)
    (.teacher (Teacher.new "t_dunecar")) "teacherCreateToHome"

/-- Cara signs up as a teacher, and signing in traps in her home screen. -/
theorem not_signsIn_cara :
    (handler TextOps.ascii (fun _ => "0.0") (.teacher accepting caraForm)).run emptyWorld =
        .ok true caraWorld
      ∧ caraWorld.currentUser.id = some "t_dunecar"
      ∧ ¬ SignsIn 0 caraWorld .teacher "t_dunecar" (some "Cara") (some "Dune") := by
  have hgen : generateUserName TextOps.ascii accepting caraForm.firstName caraForm.lastName
      Strings.teacher emptyWorld.store = .ok "t_dunecar" := rfl
  have hpath : documentPath Strings.teacher "t_dunecar" = some caraPath := by decide
  have hnew : NewName TextOps.ascii accepting caraForm .teacher emptyWorld "t_dunecar" "t_dunecar" :=
    newName_empty hgen hpath
  have hvalid : caraForm.isValid TextOps.ascii = true := by decide
  have hset : ([fun u => u.setEmail caraForm.email, fun u => u.setFirstName caraForm.firstName,
      fun u => u.setLastName caraForm.lastName,
      fun u => BaseAdult.setPhoneNumber u caraForm.phoneNumber].map fun set =>
        set (IUser.teacher (Teacher.new "t_dunecar"))) = (adultFields caraForm).map fun f =>
      DatabaseHelper.saveUserPropertyToDoc (.teacher (Teacher.new "t_dunecar")) f.1 f.2 := rfl
  refine ⟨?_, rfl, fun hsigns => hnew.not_returns_teacher
    ((signsIn_iff_returnsForm (k := .teacher) hgen hpath (Or.inr rfl)).mp hsigns)⟩
  simp only [handler, CreateAccountTeacher.signUpPressed, createAdult, hvalid, if_true]
  exact run_createAccount hgen rfl (by decide) rfl hpath hset

end Example

end GradeIo.Registration
