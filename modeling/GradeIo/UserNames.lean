import GradeIo.Answers
import GradeIo.Lib.SelfNamed
import GradeIo.Returning

/-!
# Generated user names

`GenerateUserName` looks the plain name up once. Its name is the id of a new
document unless the letters of the entered names have a slash among them, the
lookup fails and the plain name is taken, or it is taken and so is the name with
the number drawn (`generateUserName_fresh_iff`).
-/

namespace GradeIo

open DocDb Completion
open UserHelper (Kind firstNameIndexDefault lastNameIndexDefault)
open Registration (initial)

namespace Answers

/-- The letters that a name is made of. -/
def letters (ops : TextOps) (firstName lastName : String) : String :=
  ops.lowercased
    (ops.takePrefix lastNameIndexDefault lastName ++ ops.takePrefix firstNameIndexDefault firstName)

def UserHelper.generateUserName (b : Backend) (ops : TextOps) (draw : Fin 1001)
    (firstName lastName type : String) : Calls String := do
  let generatedName := letters ops firstName lastName
  let first ← Calls.unwrap (TextOps.first type)
  let generatedName := ops.lowercased first ++ "_" ++ generatedName
  match ← b.getDocument type generatedName with
  | none => pure generatedName
  | some res =>
      if res.isSome then pure (generatedName ++ toString draw.val)
      else pure generatedName

/-- The name before the number. -/
def plainName (ops : TextOps) (k : Kind) (firstName lastName : String) : String :=
  (initial k).toString ++ "_" ++ letters ops firstName lastName

/-- A name as it should be: with the prefix of the class, one segment of a path,
and the id of no document. -/
structure NewName (s : Store) (k : Kind) (name : String) : Prop where
  starts : ∃ rest, name = (initial k).toString ++ "_" ++ rest
  segment : documentPath k.collection name = some ⟨k.collection, name⟩
  fresh : s.get? ⟨k.collection, name⟩ = none

section

variable {b : Backend} {ops : TextOps} {draw : Fin 1001} {firstName lastName : String} {k : Kind}

theorem prefixed_ne_empty {rest : String} : (initial k).toString ++ "_" ++ rest ≠ "" := by
  intro h
  have hlist := congrArg String.toList h
  rw [String.toList_append, String.toList_append] at hlist
  simp at hlist

/-- Only what follows the prefix may have a slash. -/
theorem slash_mem_prefixed {rest : String} :
    '/' ∈ ((initial k).toString ++ "_" ++ rest).toList ↔ '/' ∈ rest.toList := by
  have hinitial : '/' ∉ ((initial k).toString ++ "_").toList := by
    cases k <;> decide
  rw [String.toList_append, List.mem_append]
  exact or_iff_right hinitial

/-- A name with the prefix is good but for the documents that there are. -/
theorem newName_iff {s : Store} {rest name : String}
    (hname : name = (initial k).toString ++ "_" ++ rest) (hslash : '/' ∉ rest.toList) :
    NewName s k name ↔ s.get? ⟨k.collection, name⟩ = none := by
  subst hname
  have hsegment : documentPath k.collection ((initial k).toString ++ "_" ++ rest) = some _ :=
    documentPath_of_no_slash prefixed_ne_empty fun h => hslash (slash_mem_prefixed.mp h)
  exact ⟨fun h => h.fresh, fun h => ⟨⟨rest, rfl⟩, hsegment, h⟩⟩

theorem slash_not_mem_draw : '/' ∉ (toString draw.val).toList := by
  have hdigits : (toString draw.val).toList = Nat.toDigits 10 draw.val := Nat.toList_repr
  rw [hdigits]
  intro h
  have hdigit := Nat.isDigit_of_mem_toDigits (by decide) (by decide) h
  exact absurd hdigit (by decide)

/-- The handler is given the plain name, or the one with the number. -/
theorem generateUserName_eq :
    UserHelper.generateUserName b ops draw firstName lastName k.collection =
      match documentPath k.collection (plainName ops k firstName lastName) with
      | none => .trap
      | some p => pure (if b.failed = false ∧ (b.store.get? p).isSome then
          plainName ops k firstName lastName ++ toString draw.val
        else plainName ops k firstName lastName) := by
  obtain ⟨c, hc, hlower⟩ := Registration.first_collection ops k
  have hcollection : collectionPath k.collection = some k.collection := by
    cases k <;> decide
  unfold UserHelper.generateUserName Backend.getDocument plainName
  simp only [hc, hlower, hcollection, Calls.unwrap_some, Calls.pure_bind]
  cases documentPath k.collection
      ((initial k).toString ++ "_" ++ letters ops firstName lastName) with
  | none => rfl
  | some p =>
      simp only [Calls.unwrap_some, Calls.pure_bind]
      cases b.failed with
      | true => rfl
      | false => cases b.store.get? p <;> rfl

/-- The same of the answer on a store. -/
theorem answer_generateUserName (o : Outcome) (s : Store) :
    GradeIo.UserHelper.generateUserName ops o firstName lastName k.collection s =
      match documentPath k.collection (plainName ops k firstName lastName) with
      | none => .error .trap
      | some p => .ok (if o.failed = false ∧ (s.get? p).isSome then
          plainName ops k firstName lastName ++ toString o.draw.val
        else plainName ops k firstName lastName) := by
  have hplain : GradeIo.UserHelper.plainUserName ops firstName lastName k.collection =
      .ok (plainName ops k firstName lastName) :=
    Registration.plainUserName_collection ops firstName lastName k
  refine (generateUserName_of_plain hplain).trans ?_
  cases documentPath k.collection (plainName ops k firstName lastName) <;> rfl

theorem generateUserName_calls (o : Outcome) (s : Store) :
    UserHelper.generateUserName ⟨s, o.failed⟩ ops o.draw firstName lastName k.collection =
      calls (GradeIo.UserHelper.generateUserName ops o firstName lastName k.collection s) := by
  rw [generateUserName_eq, answer_generateUserName]
  cases documentPath k.collection (plainName ops k firstName lastName) <;> rfl

theorem eq_of_once_generateUserName {name : String}
    (h : (UserHelper.generateUserName b ops draw firstName lastName k.collection).Once name) :
    name = plainName ops k firstName lastName
      ∨ name = plainName ops k firstName lastName ++ toString draw.val := by
  rw [generateUserName_eq] at h
  cases hp : documentPath k.collection (plainName ops k firstName lastName) with
  | none => simp [hp] at h
  | some p =>
      rw [hp] at h
      have h := Calls.once_pure.mp h
      split at h
      · exact Or.inr h.symm
      · exact Or.inl h.symm

/-- The name that is handed over is a new one exactly under these conditions on
the names and on the documents that there are. -/
theorem generateUserName_fresh_iff :
    (∃ name, (UserHelper.generateUserName b ops draw firstName lastName k.collection).Once name
        ∧ NewName b.store k name) ↔
      '/' ∉ (letters ops firstName lastName).toList
        ∧ (b.store.get? ⟨k.collection, plainName ops k firstName lastName⟩ ≠ none →
            b.failed = false ∧ b.store.get? ⟨k.collection,
              plainName ops k firstName lastName ++ toString draw.val⟩ = none) := by
  by_cases hslash : '/' ∈ (letters ops firstName lastName).toList
  · -- a slash stays in the name, whether or not there is a number
    refine iff_of_false ?_ fun h => h.1 hslash
    rintro ⟨name, honce, hname⟩
    have hmem : '/' ∈ (plainName ops k firstName lastName).toList := slash_mem_prefixed.mpr hslash
    refine (plain_of_documentPath hname.segment).2 ?_
    rcases eq_of_once_generateUserName honce with rfl | rfl
    · exact hmem
    · exact String.toList_append ▸ List.mem_append_left _ hmem
  · have hnumber : '/' ∉ (letters ops firstName lastName ++ toString draw.val).toList := by
      rw [String.toList_append, List.mem_append, not_or]
      exact ⟨hslash, slash_not_mem_draw⟩
    have hplain : NewName b.store k (plainName ops k firstName lastName) ↔ _ :=
      newName_iff rfl hslash
    have hnumbered :
        NewName b.store k (plainName ops k firstName lastName ++ toString draw.val) ↔ _ :=
      newName_iff String.append_assoc hnumber
    have hpath : documentPath k.collection (plainName ops k firstName lastName) = some _ :=
      documentPath_of_no_slash prefixed_ne_empty fun h => hslash (slash_mem_prefixed.mp h)
    rw [generateUserName_eq, hpath]
    simp only [Calls.once_pure, exists_eq_left', hslash, not_false_eq_true, true_and]
    cases hget : b.store.get? ⟨k.collection, plainName ops k firstName lastName⟩ with
    | none => simpa using hplain.mpr hget
    | some d =>
        cases hfailed : b.failed with
        | true => simpa [hplain] using hget ▸ Option.some_ne_none d
        | false => simpa using hnumbered

end

/-- A slash in the last name makes a path of two segments, and reading it traps;
if the lookup fails, a name that is taken counts as free. -/
theorem generateUserName_not_fresh :
    (¬ ∃ name, (UserHelper.generateUserName ⟨fun _ => ∅, false⟩ TextOps.ascii 0 "Ann" "A/B"
          Kind.student.collection).Once name ∧ NewName (fun _ => ∅) .student name)
      ∧ ¬ ∃ name, (UserHelper.generateUserName ⟨(oneStudent "s_leeann").store, true⟩ TextOps.ascii 0
          "Ann" "Lee" Kind.student.collection).Once name
            ∧ NewName (oneStudent "s_leeann").store .student name := by
  have htrap : UserHelper.generateUserName ⟨fun _ => ∅, false⟩ TextOps.ascii 0 "Ann" "A/B"
      Kind.student.collection = .trap := by
    decide +kernel
  have hplain : UserHelper.generateUserName ⟨(oneStudent "s_leeann").store, true⟩ TextOps.ascii 0
      "Ann" "Lee" Kind.student.collection = pure "s_leeann" := by
    decide +kernel
  have htaken : ((oneStudent "s_leeann").store.get? ⟨Kind.student.collection, "s_leeann"⟩).isSome =
      true := by
    decide +kernel
  constructor
  · rintro ⟨name, honce, -⟩
    rw [htrap] at honce
    exact Calls.not_once_trap honce
  · rintro ⟨name, honce, hname⟩
    rw [hplain, Calls.once_pure] at honce
    obtain rfl := honce
    rw [hname.fresh] at htaken
    cases htaken

end Answers

end GradeIo
