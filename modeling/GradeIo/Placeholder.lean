import GradeIo.Registration

/-!
# What becomes of a placeholder

Signing up with a parent code copies the placeholder student attribute by
attribute to a document with a new name and deletes the old one. `Preserved`
says that nothing is lost on the way, which never holds (`not_preserved`): the
grade point average is written as a text, so the copy does not decode.

Nor are the lists that name the placeholder touched: each class and each parent
keeps pointing to the document that is gone (`dangling_of_listed`).
-/

namespace GradeIo.Registration

open DocDb App

/-- The attributes of a student other than the id. -/
structure SameAttributes (s t : Student) : Prop where
  bio : t.bio = s.bio
  email : t.email = s.email
  classID : t.classID = s.classID
  firstName : t.firstName = s.firstName
  lastName : t.lastName = s.lastName
  gpa : t.gpa = s.gpa
  photoPath : t.photoPath = s.photoPath
  pronouns : t.pronouns = s.pronouns
  parentID : t.parentID = s.parentID

/-- The document has the id in its list `key`. -/
def Lists (d : Doc) (key id : String) : Prop := .string id ∈ elements d[key]?

instance (d : Doc) (key id : String) : Decidable (Lists d key id) :=
  inferInstanceAs (Decidable (_ ∈ _))

/-- Every list that had the old id has the new one, and none the old one. -/
structure Relinked (s s' : Store) (collection key old new : String) : Prop where
  renamed : ∀ m d, s.get? ⟨collection, m⟩ = some d → Lists d key old →
    ∃ d', s'.get? ⟨collection, m⟩ = some d' ∧ Lists d' key new
  gone : ∀ m d', s'.get? ⟨collection, m⟩ = some d' → ¬ Lists d' key old

/-- The new user's document decodes to a student with the placeholder's
attributes, who stands in the placeholder's place in every list. -/
structure Preserved (w w' : World) (code : String) (placeholder : Student) : Prop where
  decodes : ∃ p d student, w'.currentUser.ref = some p ∧ w'.store.get? p = some d
    ∧ Student.ofDictionary (Doc.data d) = some student ∧ SameAttributes placeholder student
  classes : ∀ id, w'.currentUser.id = some id →
    Relinked w.store w'.store Strings.class Strings.studentIDs code id
  parents : ∀ id, w'.currentUser.id = some id →
    Relinked w.store w'.store Strings.parent Strings.students code id

section

variable {ops : TextOps} {floatDescription : Rat → String} {o : Outcome} {code id : String}
  {res : Student} {p q : DocPath} {w w' : World}

/-- The new user's document is gone, or does not decode. -/
theorem not_decodes_migrated {d : Doc} {student : Student}
    (hget : (w.migrated floatDescription res id p q).store.get? p = some d) :
    Student.ofDictionary (Doc.data d) ≠ some student := by
  rw [get?_migrated_self] at hget
  split at hget
  · cases hget
  · obtain rfl := Option.some.inj hget
    rw [ofDictionary_merge_migrated]
    exact (Option.some_ne_none student).symm

/-- A completed sign-up with a code is a migration of the student it leads to. -/
theorem eq_migrated_of_completed
    (h : (CreateAccountStudent.signUpParentCodePressed ops floatDescription o code).run w =
      .ok true w') :
    ∃ res id p q, Student.ofGivenCode code w.store = .ok res
      ∧ documentPath Strings.student ("s_" ++ id) = some p
      ∧ documentPath Strings.student code = some q
      ∧ w' = w.migrated floatDescription res id p q := by
  rcases signUpParentCode_cases (σ := w) with hno | ⟨res, id, p, hcode, -, -, hp, hrun⟩
  · rw [h] at hno
    exact hno.elim
  · rw [h] at hrun
    cases hq : documentPath Strings.student code with
    | none =>
        rw [hq] at hrun
        cases hrun
    | some q =>
        rw [hq] at hrun
        exact ⟨res, id, p, q, hcode, hp, rfl, by injection hrun⟩

/-- No sign-up with a code preserves its placeholder. -/
theorem not_preserved
    (h : (CreateAccountStudent.signUpParentCodePressed ops floatDescription o code).run w =
      .ok true w') (placeholder : Student) : ¬ Preserved w w' code placeholder := by
  obtain ⟨res, id, p, q, -, hp, -, rfl⟩ := eq_migrated_of_completed h
  rintro ⟨⟨p', d, student, href, hget, hdec, -⟩, -, -⟩
  obtain rfl : p = p' := Option.some.inj ((ref_migrated.trans hp).symm.trans href)
  exact not_decodes_migrated hget hdec

/-- Documents of other collections are as they were. -/
theorem get?_completed
    (h : (CreateAccountStudent.signUpParentCodePressed ops floatDescription o code).run w =
      .ok true w') {c : String} (hc : c.toList.head? ≠ Strings.student.toList.head?) (m : String) :
    w'.store.get? ⟨c, m⟩ = w.store.get? ⟨c, m⟩ := by
  obtain ⟨res, id, p, q, -, hp, hq, rfl⟩ := eq_migrated_of_completed h
  refine get?_migrated_of_ne ?_ ?_
  · rintro rfl
    exact hc (head?_collection_of_documentPath (by decide) hp)
  · rintro rfl
    exact hc (head?_collection_of_documentPath (by decide) hq)

/-- A class or a parent whose list has the code still has it, though the
document with that name is gone. -/
theorem dangling_of_listed
    (h : (CreateAccountStudent.signUpParentCodePressed ops floatDescription o code).run w =
      .ok true w') {c key m new : String} {d : Doc}
    (hc : c.toList.head? ≠ Strings.student.toList.head?) (hget : w.store.get? ⟨c, m⟩ = some d)
    (hlists : Lists d key code) :
    (∃ q, documentPath Strings.student code = some q ∧ w'.store.get? q = none)
      ∧ ¬ Relinked w.store w'.store c key code new := by
  constructor
  · obtain ⟨res, id, p, q, -, -, hq, rfl⟩ := eq_migrated_of_completed h
    exact ⟨q, hq, get?_migrated_deleted⟩
  · intro hrelinked
    exact hrelinked.gone m d ((get?_completed h hc m).trans hget) hlists

end

/-! ## Tom, and the class that lists him -/

section Example

attribute [local instance] TextOps.ascii

def tomFields : Dict :=
  [(Strings.id, .string "x1"), (Strings.firstName, .string "Tom"), (Strings.lastName, .string "Ray"),
   (Strings.gpa, .number 3), (Strings.classID, .string "c1"), (Strings.parentID, .string "p_ray")]

/-- A placeholder student in a class. -/
def tomWorld : World :=
  { emptyWorld with
    store := Store.applyAll (fun _ => ∅)
      (mergeAll ⟨Strings.student, "x1"⟩ tomFields
        ++ [.unionMerge ⟨Strings.class, "c1"⟩ Strings.studentIDs (.string "x1")]) }

def tomStudent : Student where
  id := some "x1"
  firstName := some "Tom"
  lastName := some "Ray"
  email := none
  bio := none
  photoPath := none
  pronouns := none
  userType := none
  gpa := some 3
  classID := some "c1"
  parentID := some "p_ray"

def tomMigrated : World :=
  tomWorld.migrated (fun _ => "3.0") tomStudent "s_raytom" ⟨Strings.student, "s_s_raytom"⟩
    ⟨Strings.student, "x1"⟩

theorem run_tom :
    (CreateAccountStudent.signUpParentCodePressed TextOps.ascii (fun _ => "3.0") accepting "x1").run
      tomWorld = .ok true tomMigrated := by
  have hcode : Student.ofGivenCode "x1" tomWorld.store = .ok tomStudent := rfl
  have hgen : UserHelper.generateUserName TextOps.ascii accepting (tomStudent.firstName.getD "")
      (tomStudent.lastName.getD "") "Student" tomWorld.store = .ok "s_raytom" := by
    have hname : UserHelper.plainUserName TextOps.ascii (tomStudent.firstName.getD "")
      (tomStudent.lastName.getD "") "Student" = .ok "s_raytom" := rfl
    have hfree : tomWorld.store.get? ⟨Strings.student, "s_raytom"⟩ = none := by decide
    rw [generateUserName_eq hname (by decide : _ = some ⟨Strings.student, "s_raytom"⟩) rfl, hfree]
    rfl
  have hpath : documentPath Strings.student ("s_" ++ "s_raytom") =
      some ⟨Strings.student, "s_s_raytom"⟩ := by decide
  have hdel : documentPath Strings.student "x1" = some ⟨Strings.student, "x1"⟩ := by decide
  have hrun : (CreateAccountStudent.signUpParentCodePressed TextOps.ascii (fun _ => "3.0") accepting
      "x1").run tomWorld = _ := (run_signUpParentCode hcode (by decide) hgen).trans (run_migrate hpath)
  rw [hdel] at hrun
  exact hrun

/-- Tom's class keeps pointing to the document that is gone. -/
theorem dangling_tom :
    (CreateAccountStudent.signUpParentCodePressed TextOps.ascii (fun _ => "3.0") accepting "x1").run
        tomWorld = .ok true tomMigrated
      ∧ Student.ofGivenCode "x1" tomWorld.store = .ok tomStudent
      ∧ ¬ Preserved tomWorld tomMigrated "x1" tomStudent := by
  refine ⟨run_tom, rfl, fun hpreserved => ?_⟩
  obtain ⟨d, hd, hlists⟩ : ∃ d, tomWorld.store.get? ⟨Strings.class, "c1"⟩ = some d
      ∧ Lists d Strings.studentIDs "x1" := ⟨_, rfl, by decide⟩
  exact (dangling_of_listed run_tom (by decide) hd hlists).2 (hpreserved.classes _ rfl)

theorem not_preserved_tom : ¬ Preserved tomWorld tomMigrated "x1" tomStudent :=
  not_preserved run_tom tomStudent

end Example

end GradeIo.Registration
