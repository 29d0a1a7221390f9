import GradeIo.Submission

/-!
# Devices with one assignment open

Every device has `CurrentAssignment` set to the same assignment document and
a user signed in. A student's device submits quiz sessions, a teacher's device
calls the assignment's setters. The writes of a handler wait in the device's
outbox until Firestore commits them; a snapshot, of any version the document
has had, with or without the device's own writes that are still under way,
reaches the callback of `Listen`.

`refines` relates this system to the `Gradebook`: the results field is the
list, and a device's copy of it is the view.
-/

namespace GradeIo.Devices

open DocDb Keyed Replica Transition

inductive Input where
  /-- Submit is pressed, in a session in any state, at a clock reading. -/
  | submit (q : Quiz) (now : Rat)
  | setName (newName : String)
  | setDescription (newDescription : String)
  | setFilePath (newPath : String)
  | setClassID (newClassID : String)
  | setDueDate (newDate : String)

variable {Device : Type} (dateFromString : String → Option Rat) (user : Device → String)

def handle (c : Device) (a : Assignment) :
    Input → Option (Assignment × List Write × List Result)
  | .submit q now =>
      (q.submitButtonPressed a (some (user c)) now).map fun s =>
        (s.assignment, s.writes, [s.result])
  | .setName newName => (a.setName newName).map fun w => (a, [w], [])
  | .setDescription newDescription =>
      (a.setDescription newDescription).map fun w => (a, [w], [])
  | .setFilePath newPath => (a.setFilePath newPath).map fun w => (a, [w], [])
  | .setClassID newClassID => (a.setClassID newClassID).map fun w => (a, [w], [])
  | .setDueDate newDate => (a.setDueDate dateFromString newDate).map fun r => (a, r.2, [])

/-- A snapshot of the document that `Listen` has attached to. -/
def refresh (a : Assignment) (s : Store) : Option Assignment :=
  a.listen.bind fun p => a.setPropertiesFromDoc ((s.get? p).getD ∅)

abbrev State (Device : Type) := Replica.State Device Write Store Assignment Result

def protocol : Protocol Device Input Write Store Assignment Result where
  apply := Store.apply
  handle := handle dateFromString user
  refresh := refresh

/-! ## Snapshots -/

theorem asArray_storedValue (rs : List Result) :
    asArray asDict (storedValue rs) = some (rs.map Result.getDictionary) :=
  asArray_asDict_map Result.getDictionary rs

theorem mapM_ofDictionary (rs : List Result) :
    (rs.map Result.getDictionary).mapM Result.ofDictionary = some rs :=
  mapM_map_of_decode Result.ofDictionary_getDictionary rs

/-- A snapshot brings the stored list, if there is one, and keeps the id. -/
theorem setPropertiesFromDoc_results {a a' : Assignment} {doc : Doc} {o : Option (List Result)}
    (hdoc : doc[Strings.results]? = o.map storedValue) (h : a.setPropertiesFromDoc doc = some a') :
    a'.id = a.id ∧ a'.results = o.or a.results := by
  simp only [Assignment.setPropertiesFromDoc, Option.bind_eq_bind, Option.bind_eq_some_iff] at h
  obtain ⟨_, -, results, hres, _, -, _, -, _, -, _, -, ha⟩ := h
  obtain rfl := Option.some.inj ha
  refine ⟨rfl, ?_⟩
  unfold Assignment.castList at hres
  cases o with
  | none =>
      rw [hdoc] at hres
      exact (Option.some.inj hres).symm
  | some rs =>
      rw [hdoc, Option.map_some, Option.bind_some, asArray_storedValue] at hres
      simp only [mapM_ofDictionary, Option.map_some] at hres
      exact (Option.some.inj hres).symm

/-! ## Refinement -/

/-- A device's copy is of this assignment and holds this list. -/
def Copies (docID : String) (a : Assignment) (o : Option (List Result)) : Prop :=
  a.id = some docID ∧ a.results = o

abbrev Rel (docID : String) (p : DocPath) :
    State Device → Gradebook.Shared Device Result → Prop :=
  Related (Stores p) (Performs p) fun _ => Copies docID

section Refinement

variable {dateFromString} {user} {docID : String} {p : DocPath}

/-- A setter of another field. -/
theorem performs_save {a : Assignment} {key : String} {v : Value} {w : Write}
    (hp : documentPath Strings.assignment docID = some p) (hid : a.id = some docID)
    (hkey : key ≠ Strings.results) (h : a.save key v = some w) : Performs p w .other := by
  simp only [Assignment.save, hid, Option.bind_some, DatabaseHelper.savePropertyToDatabase, hp,
    Option.map_some] at h
  obtain rfl := Option.some.inj h
  exact .other v hkey

/-- A submission is the abstract submission of the session's result. -/
theorem handle_submit {c : Device} {a : Assignment} {o : Option (List Result)} {q : Quiz}
    {now : Rat} {sub : Quiz.Submission}
    (hp : documentPath Strings.assignment docID = some p) (ha : Copies docID a o)
    (hsub : q.submitButtonPressed a (some (user c)) now = some sub) :
    ∃ o' ops, Gradebook.handle Result.studentID "" user c o (.submit sub.result)
        = some (o', ops, [sub.result])
      ∧ Copies docID sub.assignment o' ∧ List.Forall₂ (Performs p) sub.writes ops := by
  obtain ⟨hid, rfl⟩ := ha
  obtain ⟨huser, hins, -⟩ := Quiz.submitButtonPressed_eq_some hsub
  have huser : user c = sub.result.studentID := Option.some.inj huser
  rw [huser] at hins
  simp only [Gradebook.handle, huser, if_true]
  by_cases h : a.Shows sub.result.studentID
  · rw [Quiz.insertResult_of_shows hid hp h] at hins
    obtain ⟨ha, hws⟩ := Prod.mk.inj (Option.some.inj hins)
    rw [← ha, ← hws, if_pos h]
    exact ⟨_, _, rfl, ⟨hid, rfl⟩, .cons .clear (.cons (.add _) .nil)⟩
  · rw [Quiz.insertResult_of_not_shows hid hp h] at hins
    obtain ⟨ha, hws⟩ := Prod.mk.inj (Option.some.inj hins)
    rw [← ha, ← hws, if_neg h]
    exact ⟨_, _, rfl, ⟨hid, rfl⟩, .cons (.add _) .nil⟩

/-- A setter of another field, called on a device, is an abstract edit. -/
theorem handle_edit {c : Device} {a a' : Assignment} {o : Option (List Result)} {i : Input}
    {ws : List Write} {outs : List Result}
    (hp : documentPath Strings.assignment docID = some p) (ha : Copies docID a o)
    (hi : ∀ q now, i ≠ .submit q now)
    (h : handle dateFromString user c a i = some (a', ws, outs)) :
    ∃ n, a' = a ∧ outs = [] ∧ List.Forall₂ (Performs p) ws (List.replicate n .other) := by
  have hsave : ∀ {key v}, key ≠ Strings.results →
      (a.save key v).map (fun w => (a, [w], ([] : List Result))) = some (a', ws, outs) →
      ∃ n, a' = a ∧ outs = [] ∧ List.Forall₂ (Performs p) ws (List.replicate n .other) := by
    intro key v hkey hmap
    obtain ⟨w, hw, heq⟩ := Option.map_eq_some_iff.mp hmap
    simp only [Prod.mk.injEq] at heq
    obtain ⟨rfl, rfl, rfl⟩ := heq
    exact ⟨1, rfl, rfl, .cons (performs_save hp ha.1 hkey hw) .nil⟩
  cases i with
  | submit q now => exact absurd rfl (hi q now)
  | setName n => exact hsave (by decide) h
  | setDescription n => exact hsave (by decide) h
  | setFilePath n => exact hsave (by decide) h
  | setClassID n => exact hsave (by decide) h
  | setDueDate newDate =>
      simp only [handle, Assignment.setDueDate] at h
      cases hdate : dateFromString newDate with
      | none =>
          simp only [hdate, Option.map_some, Option.some.injEq, Prod.mk.injEq] at h
          obtain ⟨rfl, rfl, rfl⟩ := h
          exact ⟨0, rfl, rfl, .nil⟩
      | some date =>
          simp only [hdate, Option.map_map] at h
          exact hsave (by decide) h

theorem refresh_copies {a a' : Assignment} {s : Store} {v o : Option (List Result)}
    (hp : documentPath Strings.assignment docID = some p) (ha : Copies docID a o)
    (hs : Stores p s v) (h : refresh a s = some a') : Copies docID a' (v.or o) := by
  obtain ⟨hid, rfl⟩ := ha
  obtain ⟨doc, hdoc, hres⟩ := hs
  simp only [refresh, Assignment.listen, hid, Option.bind_some, hp, hdoc] at h
  obtain ⟨hid', hres'⟩ := setPropertiesFromDoc_results hres h
  exact ⟨hid'.trans hid, hres'⟩

/-- The devices refine the gradebook, under any condition on submissions that
carries over. -/
theorem refines {okP : State Device → Event Device Input → Prop}
    {okA : Gradebook.Shared Device Result → Event Device (Gradebook.Input Result) → Prop}
    (hp : documentPath Strings.assignment docID = some p)
    (hsubmit : ∀ s t c q now sub, Rel docID p s t → okP s (.act c (.submit q now)) →
      q.submitButtonPressed (s.view c) (some (user c)) now = some sub →
      okA t (.act c (.submit sub.result)))
    (hedit : ∀ t c n, okA t (.act c (.edit n)))
    (hcommit : ∀ t c, okA t (.commit c))
    (hrefresh : ∀ t c n ahead, okA t (.refresh c n ahead)) :
    Refines (protocol dateFromString user) (Gradebook.protocol Result.studentID "" user)
      (Stores p) (Performs p) (fun _ => Copies docID) okP okA where
  apply := fun _ _ _ _ hs hw => hs.apply hw
  handle := by
    intro s t c i w ops outs hR hok h
    by_cases hi : ∃ q now, i = .submit q now
    · obtain ⟨q, now, rfl⟩ := hi
      obtain ⟨sub, hsub, heq⟩ := Option.map_eq_some_iff.mp h
      simp only [Prod.mk.injEq] at heq
      obtain ⟨rfl, rfl, rfl⟩ := heq
      obtain ⟨o', aops, hh, hcop, hops⟩ := handle_submit hp (hR.view c) hsub
      exact ⟨.submit sub.result, o', aops, hsubmit s t c q now sub hR hok hsub, hh, hcop, hops⟩
    · obtain ⟨n, rfl, rfl, hops⟩ := handle_edit hp (hR.view c)
        (fun q now he => hi ⟨q, now, he⟩) h
      exact ⟨.edit n, t.view c, _, hedit t c n, rfl, hR.view c, hops⟩
  refresh := fun ha hs h => ⟨_, rfl, refresh_copies hp ha hs h⟩
  commit_ok := hcommit
  refresh_ok := hrefresh

end Refinement

end GradeIo.Devices
