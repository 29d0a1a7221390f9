import GradeIo.Lib.Listener
import GradeIo.Snapshots

/-!
# Problem lists

An assignment gets its problems one by one from `AddProblem`, or all at once
from `SetProblems`, and shows what the next snapshot brings. An array union
keeps one of equal problems, and a list of structures is refused: adding a list
keeps it exactly if it has no repeats (`addsFaithfully_iff`), setting it
exactly if it is empty (`setsFaithfully_iff`).
-/

namespace GradeIo.ProblemLists

open DocDb Keyed

/-- `AddProblem` for each of the problems, in order. -/
def addAll (a : Assignment) (s : Store) (ps : List Problem) : Option Store :=
  ps.foldlM (fun s p => (a.addProblem p.question p.answer).map s.apply) s

/-- The snapshot of the document gives the assignment these problems. -/
def Brings (a : Assignment) (s : Store) (ps : List Problem) : Prop :=
  ∃ p a', a.listen = some p ∧ a.setPropertiesFromDoc (s.snapshot p) = some a'
    ∧ a'.problems = some ps

def AddsFaithfully (a : Assignment) (s : Store) (ps : List Problem) : Prop :=
  ∃ s', addAll a s ps = some s' ∧ Brings a s' ps

def SetsFaithfully (a : Assignment) (s : Store) (ps : List Problem) : Prop :=
  ∃ s', (a.setProblems ps).map s.apply = some s' ∧ Brings a s' ps

/-- An assignment that follows its document, with an empty problem list in both. -/
structure Empty (s : Store) (p : DocPath) (a : Assignment) : Prop where
  listen : a.listen = some p
  readable : ∃ a', a.setPropertiesFromDoc (s.snapshot p) = some a'
  problems : a.problems = some []
  stored : elements (s.field p Strings.problems) = []

section

variable {s s' : Store} {p : DocPath} {a : Assignment} {ps stored : List Problem}

theorem getElem?_snapshot (s : Store) (p : DocPath) (key : String) :
    (s.snapshot p)[key]? = s.field p key := by
  unfold Store.snapshot Store.field
  cases s.get? p <;> simp

/-- The problems that a document holds are what its snapshot brings. -/
theorem castList_problems {doc : Doc}
    (h : elements doc[Strings.problems]? = stored.map Problem.toValue) :
    Assignment.castList Problem.ofDictionary doc Strings.problems (some []) =
      some (some stored) := by
  have hnil : elements doc[Strings.problems]? = [] → stored = [] := by
    intro hnone
    rw [hnone] at h
    exact List.map_eq_nil_iff.mp h.symm
  cases hv : doc[Strings.problems]? with
  | none =>
      rw [hnil (by rw [hv]; rfl), Assignment.castList, hv]
      rfl
  | some v =>
      cases v with
      | array vs =>
          rw [hv] at h
          obtain rfl : vs = stored.map Problem.toValue := h
          exact Assignment.castList_map Problem.ofDictionary_getDictionary hv _
      | _ =>
          rw [hnil (by rw [hv]; rfl), Assignment.castList, hv]
          rfl

/-- After writes to the problems, the snapshot brings the stored ones. -/
theorem Empty.brings_iff (h : Empty s p a)
    (hother : ∀ k, k ≠ Strings.problems → s'.field p k = s.field p k)
    (hstored : elements (s'.field p Strings.problems) = stored.map Problem.toValue) :
    Brings a s' ps ↔ stored = ps := by
  have hcast : Assignment.castList Problem.ofDictionary (s'.snapshot p) Strings.problems
      a.problems = some (some stored) := by
    rw [h.problems]
    refine castList_problems ?_
    rw [getElem?_snapshot]
    exact hstored
  have hother' : ∀ k, k ≠ Strings.problems → (s'.snapshot p)[k]? = (s.snapshot p)[k]? := by
    intro k hk
    rw [getElem?_snapshot, getElem?_snapshot, hother k hk]
  obtain ⟨a', ha'⟩ := h.readable
  have hread := Assignment.setPropertiesFromDoc_problems ha' hother' hcast
  constructor
  · rintro ⟨q, b, hq, hb, hps⟩
    obtain rfl := Option.some.inj (hq.symm.trans h.listen)
    obtain rfl := Option.some.inj (hb.symm.trans hread)
    exact Option.some.inj hps
  · rintro rfl
    exact ⟨p, _, h.listen, hread, rfl⟩

/-! ## Adding one by one -/

theorem addProblem_eq (h : a.listen = some p) (x : Problem) :
    a.addProblem x.question x.answer = some (.unionMerge p Strings.problems x.toValue) := by
  obtain ⟨id, hid, hp⟩ := Option.bind_eq_some_iff.mp h
  rw [Assignment.addProblem, hid, Option.bind_some, hp]
  rfl

/-- Each addition is a union with one element, and touches no other field. -/
theorem addAll_eq_some (h : a.listen = some p) (ps : List Problem) (s : Store) :
    ∃ s', addAll a s ps = some s'
      ∧ (∀ k, k ≠ Strings.problems → s'.field p k = s.field p k)
      ∧ elements (s'.field p Strings.problems) =
          (ps.map Problem.toValue).foldl addIfAbsent (elements (s.field p Strings.problems)) := by
  induction ps generalizing s with
  | nil => exact ⟨s, rfl, fun _ _ => rfl, rfl⟩
  | cons x ps ih =>
      obtain ⟨s', hs', hother, hstored⟩ := ih (s.apply (.unionMerge p Strings.problems x.toValue))
      refine ⟨s', ?_, fun k hk => ?_, ?_⟩
      · rw [addAll, List.foldlM_cons, addProblem_eq h]
        exact hs'
      · rw [hother k hk, Store.field_apply_unionMerge, if_neg fun heq => hk heq.2]
      · rw [hstored, Store.field_apply_unionMerge, if_pos ⟨rfl, rfl⟩]
        rfl

/-- What arrives of an added list are its problems without the repeats. -/
theorem Empty.addsFaithfully_iff (h : Empty s p a) (ps : List Problem) :
    AddsFaithfully a s ps ↔ ps.Nodup := by
  obtain ⟨s', hs', hother, hstored⟩ := addAll_eq_some h.listen ps s
  have hmap : elements (s'.field p Strings.problems) =
      (ps.foldl addIfAbsent []).map Problem.toValue := by
    rw [hstored, h.stored, map_foldl_addIfAbsent Problem.toValue_injective, List.map_nil]
  have hbrings : Brings a s' ps ↔ ps.foldl addIfAbsent [] = ps := h.brings_iff hother hmap
  rw [← foldl_addIfAbsent_nil_eq_self_iff, ← hbrings]
  constructor
  · rintro ⟨s'', hs'', hb⟩
    obtain rfl := Option.some.inj (hs'.symm.trans hs'')
    exact hb
  · intro hb
    exact ⟨s', hs', hb⟩

/-! ## Setting all at once -/

theorem Empty.setsFaithfully_iff (h : Empty s p a) (ps : List Problem) :
    SetsFaithfully a s ps ↔ ps = [] := by
  constructor
  · rintro ⟨s', hs', -⟩
    by_contra hne
    rw [Assignment.setProblems, if_neg hne] at hs'
    cases hs'
  · rintro rfl
    obtain ⟨id, hid, hp⟩ := Option.bind_eq_some_iff.mp h.listen
    have hset : a.setProblems [] = some (.setMerge p Strings.problems (.array [])) := by
      rw [Assignment.setProblems, if_pos rfl, Assignment.save, hid, Option.bind_some,
        DatabaseHelper.savePropertyToDatabase, hp]
      rfl
    have hother : ∀ k, k ≠ Strings.problems →
        (s.apply (.setMerge p Strings.problems (.array []))).field p k = s.field p k := by
      intro k hk
      rw [Store.field_apply_setMerge, if_neg fun heq => hk heq.2]
    have hstored : elements ((s.apply (.setMerge p Strings.problems (.array []))).field p
        Strings.problems) = ([] : List Problem).map Problem.toValue := by
      rw [Store.field_apply_setMerge, if_pos ⟨rfl, rfl⟩]
      rfl
    exact ⟨_, by rw [hset]; rfl, (h.brings_iff hother hstored).mpr rfl⟩

/-- Both writers keep a list only if there is nothing to keep. -/
theorem stored_iff (h : Empty s p a) (ps : List Problem) :
    (AddsFaithfully a s ps ∧ SetsFaithfully a s ps ↔ ps = [])
      ∧ (AddsFaithfully a s ps ↔ ps.Nodup) := by
  refine ⟨?_, h.addsFaithfully_iff ps⟩
  rw [h.addsFaithfully_iff, h.setsFaithfully_iff]
  constructor
  · exact And.right
  · rintro rfl
    exact ⟨List.nodup_nil, rfl⟩

end

/-! ## A question asked twice -/

section Quiz

def quiz : Assignment := Assignment.new "q1" 0

def quizPath : DocPath := ⟨Strings.assignment, "q1"⟩

theorem empty_quiz : Empty (fun _ => ∅) quizPath quiz where
  listen := by
    have hne : "q1" ≠ "" := by decide
    have hslash : '/' ∉ "q1".toList := by decide
    exact documentPath_of_no_slash hne hslash
  readable := ⟨quiz, by simp [Assignment.setPropertiesFromDoc_eq_some, Store.snapshot, Store.get?,
    Assignment.castList, castField]⟩
  problems := rfl
  stored := by simp [Store.field, Store.get?, elements]

def twice : List Problem := [⟨"1 + 1", "2"⟩, ⟨"1 + 1", "2"⟩]

theorem stored_iff_quiz :
    (AddsFaithfully quiz (fun _ => ∅) twice ∧ SetsFaithfully quiz (fun _ => ∅) twice ↔ twice = [])
      ∧ (AddsFaithfully quiz (fun _ => ∅) twice ↔ twice.Nodup) :=
  stored_iff empty_quiz twice

/-- One of the two questions is lost, and the list cannot be set at all. -/
theorem not_stored : ¬ ∀ s p a, Empty s p a → ∀ ps : List Problem,
    AddsFaithfully a s ps ∧ SetsFaithfully a s ps := by
  intro h
  obtain ⟨hadds, -⟩ := h _ _ _ empty_quiz twice
  rw [empty_quiz.addsFaithfully_iff] at hadds
  exact absurd hadds (by decide)

end Quiz

end GradeIo.ProblemLists
