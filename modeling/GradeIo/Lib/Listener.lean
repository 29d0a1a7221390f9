import GradeIo.Lib.DocStore
import GradeIo.Lib.Transition

/-!
# Objects that follow a document

Nothing here names a particular program. An object listens to one document and
copies fields of it into its properties whenever a snapshot arrives; a call on
the object writes to the store and is seen by the object itself only through
the snapshot. `Listener` is such a class of objects with its calls.

An object whose reading is idempotent is always in sync with the last snapshot
(`Lawful.inSync`), so the next one changes nothing but what was written since
(`InSync.step_obj_iff`).
-/

namespace DocDb

open Transition

/-- The document as a snapshot shows it; one that does not exist has no field. -/
def Store.snapshot (s : Store) (p : DocPath) : Doc := (s.get? p).getD ∅

@[simp] theorem Store.snapshot_setMerge_self (s : Store) (p : DocPath) (key : String) (v : Value) :
    (s.apply (.setMerge p key v)).snapshot p = (s.snapshot p).insert key v := by
  have hget : (s.apply (.setMerge p key v)).get? p = some (((s.get? p).getD ∅).insert key v) :=
    s.get?_apply_self _
  rw [snapshot, hget]
  rfl

@[simp] theorem Store.snapshot_unionMerge_self (s : Store) (p : DocPath) (key : String)
    (v : Value) : (s.apply (.unionMerge p key v)).snapshot p = (s.snapshot p).union key v := by
  have hget : (s.apply (.unionMerge p key v)).get? p =
      some (Doc.union ((s.get? p).getD ∅) key v) := s.get?_apply_self _
  rw [snapshot, hget]
  rfl

theorem Store.snapshot_applyAll_of_ne (s : Store) {ws : List Write} {p : DocPath}
    (h : ∀ w ∈ ws, p ≠ w.path) : (s.applyAll ws).snapshot p = s.snapshot p := by
  rw [snapshot, snapshot, get?_applyAll_of_ne h]

theorem Store.snapshot_apply_of_ne (s : Store) {w : Write} {p : DocPath} (h : p ≠ w.path) :
    (s.apply w).snapshot p = s.snapshot p := by
  rw [snapshot, snapshot, get?_apply_of_ne s h]

/-- Where an object listens, what a snapshot makes of it and what a call
writes; `none` where the program traps. -/
structure Listener (Obj Call : Type) where
  listen : Obj → Option DocPath
  read : Obj → Doc → Option Obj
  write : Obj → Call → Option Write

namespace Listener

variable {Obj Call : Type}

structure State (Obj : Type) where
  obj : Obj
  store : Store

/-- The object has had its first snapshot; a call is followed by the snapshot
that it causes. -/
def system (L : Listener Obj Call) : System (State Obj) Call where
  Init st := ∃ o p, L.listen o = some p ∧ L.read o (st.store.snapshot p) = some st.obj
  step st c := do
    let p ← L.listen st.obj
    let w ← L.write st.obj c
    let obj ← L.read st.obj ((st.store.apply w).snapshot p)
    some ⟨obj, st.store.apply w⟩

/-- Reading a document twice is reading it once, and does not change where the
object listens. -/
structure Lawful (L : Listener Obj Call) : Prop where
  idem : ∀ o d o', L.read o d = some o' → L.read o' d = some o'
  listen : ∀ o d o', L.read o d = some o' → L.listen o' = L.listen o

/-- The object listens at `p`, and the present document is no news to it. -/
structure InSync (L : Listener Obj Call) (st : State Obj) (p : DocPath) : Prop where
  listen : L.listen st.obj = some p
  read : L.read st.obj (st.store.snapshot p) = some st.obj

variable {L : Listener Obj Call} {st st' : State Obj} {c : Call} {p q : DocPath}

theorem Lawful.inSync (hL : L.Lawful) (h : L.system.Reachable st) : ∃ p, L.InSync st p := by
  refine h.invariant (I := fun st => ∃ p, L.InSync st p) ?_ ?_
  · rintro st ⟨o, p, hp, hread⟩
    exact ⟨p, by rw [hL.listen _ _ _ hread, hp], hL.idem _ _ _ hread⟩
  · rintro st c st' ⟨p, hsync⟩ - hs
    simp only [system, hsync.listen, Option.bind_eq_bind, Option.bind_some,
      Option.bind_eq_some_iff] at hs
    obtain ⟨w, -, o, hread, hs⟩ := hs
    obtain rfl := Option.some.inj hs
    exact ⟨p, by rw [hL.listen _ _ _ hread, hsync.listen], hL.idem _ _ _ hread⟩

/-- What a call that sets one field leaves of the object. -/
theorem InSync.step_obj_iff (h : L.InSync st p) {key : String} {v : Value} {received target : Obj}
    (hw : L.write st.obj c = some (.setMerge q key v))
    (hread : L.read st.obj ((st.store.snapshot p).insert key v) = some received) :
    (∃ st', L.system.step st c = some st' ∧ st'.obj = target) ↔
      if q = p then received = target else st.obj = target := by
  have hstep : L.system.step st c =
      (L.read st.obj ((st.store.apply (.setMerge q key v)).snapshot p)).map fun obj =>
        ⟨obj, st.store.apply (.setMerge q key v)⟩ := by
    simp only [system, h.listen, hw, Option.bind_eq_bind, Option.bind_some]
    cases L.read st.obj ((st.store.apply (.setMerge q key v)).snapshot p) <;> rfl
  rw [hstep]
  by_cases hq : q = p
  · subst hq
    rw [Store.snapshot_setMerge_self, hread, if_pos rfl]
    simp
  · have hne : p ≠ (Write.setMerge q key v).path := Ne.symm hq
    rw [Store.snapshot_apply_of_ne _ hne, h.read, if_neg hq]
    simp

end Listener

end DocDb
