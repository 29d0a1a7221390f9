import GradeIo.UserNames

/-!
# The outcomes of a parent code

Signing up with a code should register the student, or show the alert and leave
everything as it was. `outcome_iff` says for which codes and stores it does:
an unknown code gets no answer, the code of a teacher or a parent traps in the
forced downcast, and that of a registered student registers a second time.
-/

namespace GradeIo.CodeOutcomes

open DocDb
open UserHelper (Kind kindOf)
open Answers (plainName answer_generateUserName)

section

variable {ops : TextOps} {floatDescription : Rat → String} {o : Outcome} {code : String}
  {σ : World} {res : Student}

/-- The code is the id of a student document whose code is not used up, and the
document is copied to that of a new user, who is signed up. -/
def Registered [TextOps] (floatDescription : Rat → String) (code : String) (σ : World)
    (r : EStateM.Result Halt World Bool) : Prop :=
  TextOps.first code = some "x" ∧ ∃ m d res id p q,
    σ.store.Found Strings.student Strings.id (.string code) m d
      ∧ Student.ofDictionary (Doc.data d) = some res
      ∧ documentPath Strings.student ("s_" ++ id) = some p
      ∧ documentPath Strings.student code = some q
      ∧ r = .ok true (σ.migrated floatDescription res id p q)

/-- The alert is shown, and that is all. -/
def Refused (σ : World) (r : EStateM.Result Halt World Bool) : Prop :=
  ∃ σ', r = .ok false σ' ∧ σ'.store = σ.store ∧ σ'.currentUser = σ.currentUser
    ∧ σ'.alerts = σ.alerts ++ [("error", "code not found, or student already registered")]

/-- The new id can be generated from the student's names, and with one more `s_`
names a document. -/
def Nameable (ops : TextOps) (o : Outcome) (s : Store) (res : Student) : Prop :=
  let name := plainName ops .student (res.firstName.getD "") (res.lastName.getD "")
  ∃ p, documentPath Strings.student name = some p
    ∧ documentPath Strings.student ("s_" ++
        if o.failed = false ∧ (s.get? p).isSome then name ++ toString o.draw.val else name) ≠ none

/-- The first student document with the code for its id decodes; it has an empty
first name, or the code begins with an `x` and both it and the new id are names
of documents. -/
def Resolves (ops : TextOps) (o : Outcome) (code : String) (s : Store) : Prop :=
  ∃ m d res, s.Found Strings.student Strings.id (.string code) m d
    ∧ Student.ofDictionary (Doc.data d) = some res
    ∧ kindOf code = some .student
    ∧ (res.firstName = some "" ∨ TextOps.first code = some "x" ∧ Nameable ops o s res
        ∧ documentPath Strings.student code ≠ none)

/-! ## What a code that leads to a student becomes -/

/-- A code leads to one student. -/
theorem resolves_iff_of_ok {s : Store} (hcode : Student.ofGivenCode code s = .ok res) :
    Resolves ops o code s ↔
      res.firstName = some "" ∨ TextOps.first code = some "x" ∧ Nameable ops o s res
        ∧ documentPath Strings.student code ≠ none := by
  obtain ⟨hkind, m, d, hfound, hdec⟩ := Student.ofGivenCode_eq_ok_iff.mp hcode
  constructor
  · rintro ⟨m', d', res', hfound', hdec', -, h⟩
    have hcode' := Student.ofGivenCode_eq_ok_iff.mpr ⟨hkind, m', d', hfound', hdec'⟩
    obtain rfl := Except.ok.inj (hcode.symm.trans hcode')
    exact h
  · exact fun h => ⟨m, d, res, hfound, hdec, hkind, h⟩

/-- The name of the user the student becomes. -/
theorem nameable_iff {s : Store} : Nameable ops o s res ↔ ∃ id p,
    UserHelper.generateUserName ops o (res.firstName.getD "") (res.lastName.getD "")
        Strings.student s = .ok id
      ∧ documentPath Strings.student ("s_" ++ id) = some p := by
  have hgen := @answer_generateUserName ops (res.firstName.getD "") (res.lastName.getD "")
    .student o s
  rw [UserHelper.Kind.collection] at hgen
  unfold Nameable
  rw [hgen]
  cases hpath : documentPath Strings.student
      (plainName ops .student (res.firstName.getD "") (res.lastName.getD "")) with
  | none =>
      constructor
      · rintro ⟨p, hp, -⟩
        rw [hpath] at hp
        cases hp
      · rintro ⟨id, p, hid, -⟩
        cases hid
  | some p =>
      constructor
      · rintro ⟨p', hp', hid⟩
        obtain rfl := Option.some.inj (hpath.symm.trans hp')
        obtain ⟨q, hq⟩ := Option.ne_none_iff_exists'.mp hid
        exact ⟨_, q, rfl, hq⟩
      · rintro ⟨id, q, hid, hq⟩
        obtain rfl := Except.ok.inj hid
        exact ⟨p, hpath, hq ▸ Option.some_ne_none q⟩

theorem not_refused_of_named (hcode : Student.ofGivenCode code σ.store = .ok res)
    (hname : res.firstName ≠ some "") :
    ¬ Refused σ
      ((CreateAccountStudent.signUpParentCodePressed ops floatDescription o code).run σ) := by
  rintro ⟨σ', hrun, -⟩
  cases hgen : UserHelper.generateUserName ops o (res.firstName.getD "") (res.lastName.getD "")
      "Student" σ.store with
  | error e =>
      rw [run_signUpParentCode_nameless hcode hname hgen] at hrun
      cases hrun
  | ok id =>
      rw [run_signUpParentCode hcode hname hgen] at hrun
      cases hp : documentPath Strings.student ("s_" ++ id) with
      | none =>
          rw [run_migrate_trap hp] at hrun
          cases hrun
      | some p =>
          rw [run_migrate hp] at hrun
          cases hq : documentPath Strings.student code with
          | none =>
              rw [hq] at hrun
              cases hrun
          | some q =>
              rw [hq] at hrun
              cases hrun

theorem registered_iff_of_named (hcode : Student.ofGivenCode code σ.store = .ok res)
    (hname : res.firstName ≠ some "") :
    Registered floatDescription code σ
        ((CreateAccountStudent.signUpParentCodePressed ops floatDescription o code).run σ) ↔
      TextOps.first code = some "x" ∧ Nameable ops o σ.store res
        ∧ documentPath Strings.student code ≠ none := by
  rw [nameable_iff]
  refine and_congr_right fun _ => ?_
  constructor
  · rintro ⟨m, d, res', id, p, q, hfound, hdec, hp, hq, hrun⟩
    refine ⟨?_, hq ▸ Option.some_ne_none q⟩
    cases hgen : UserHelper.generateUserName ops o (res.firstName.getD "") (res.lastName.getD "")
        "Student" σ.store with
    | error e =>
        rw [run_signUpParentCode_nameless hcode hname hgen] at hrun
        cases hrun
    | ok id' =>
        rw [run_signUpParentCode hcode hname hgen] at hrun
        cases hp' : documentPath Strings.student ("s_" ++ id') with
        | none =>
            rw [run_migrate_trap hp'] at hrun
            cases hrun
        | some p' => exact ⟨id', p', rfl, hp'⟩
  · rintro ⟨⟨id, p, hgen, hp⟩, hq⟩
    obtain ⟨q, hq⟩ := Option.ne_none_iff_exists'.mp hq
    obtain ⟨-, m, d, hfound, hdec⟩ := Student.ofGivenCode_eq_ok_iff.mp hcode
    refine ⟨m, d, res, id, p, q, hfound, hdec, hp, hq, ?_⟩
    rw [run_signUpParentCode hcode hname hgen, run_migrate hp, hq]
    rfl

/-- Signing up with a code has one of its two outcomes exactly for the codes that
resolve. -/
theorem outcome_iff (ops : TextOps) (floatDescription : Rat → String) (o : Outcome) (code : String)
    (σ : World) :
    Xor (Registered floatDescription code σ
          ((CreateAccountStudent.signUpParentCodePressed ops floatDescription o code).run σ))
        (Refused σ
          ((CreateAccountStudent.signUpParentCodePressed ops floatDescription o code).run σ)) ↔
      Resolves ops o code σ.store := by
  cases hcode : Student.ofGivenCode code σ.store with
  | error e =>
      rw [run_signUpParentCode_halt hcode]
      refine iff_of_false ?_ ?_
      · rintro (⟨⟨-, _, _, _, _, _, _, -, -, -, -, h⟩, -⟩ | ⟨⟨_, h, -⟩, -⟩) <;> cases h
      · rintro ⟨m, d, res, hfound, hdec, hkind, -⟩
        have hok := Student.ofGivenCode_eq_ok_iff.mpr ⟨hkind, m, d, hfound, hdec⟩
        rw [hcode] at hok
        cases hok
  | ok res =>
      rw [resolves_iff_of_ok hcode]
      by_cases hname : res.firstName = some ""
      · rw [run_signUpParentCode_refused hcode hname]
        refine iff_of_true (Or.inr ⟨⟨_, rfl, rfl, rfl, rfl⟩, ?_⟩) (Or.inl hname)
        rintro ⟨-, _, _, _, _, _, _, -, -, -, -, h⟩
        cases h
      · rw [registered_iff_of_named hcode hname, Xor, or_iff_right hname]
        have hrefused : ¬ Refused σ ((CreateAccountStudent.signUpParentCodePressed ops
            floatDescription o code).run σ) := not_refused_of_named hcode hname
        exact (or_iff_left fun h => hrefused h.1).trans (and_iff_left hrefused)

end

section Example

attribute [local instance] TextOps.ascii

/-- Nobody has the code: the handler of the query is never called. -/
theorem not_outcome_unknown : ¬ ∀ (code : String) (σ : World),
    Xor (Registered (fun _ => "0.0") code σ
          ((CreateAccountStudent.signUpParentCodePressed .ascii (fun _ => "0.0")
            ⟨0, false, true⟩ code).run σ))
        (Refused σ
          ((CreateAccountStudent.signUpParentCodePressed .ascii (fun _ => "0.0")
            ⟨0, false, true⟩ code).run σ)) := by
  intro h
  have hrun : (CreateAccountStudent.signUpParentCodePressed .ascii (fun _ => "0.0")
      ⟨0, false, true⟩ "x_new").run emptyWorld = .error .noAnswer emptyWorld := rfl
  have hx := h "x_new" emptyWorld
  rw [hrun] at hx
  rcases hx with ⟨⟨-, _, _, _, _, _, _, -, -, -, -, hok⟩, -⟩ | ⟨⟨_, hok, -⟩, -⟩ <;> cases hok

end Example

end GradeIo.CodeOutcomes
