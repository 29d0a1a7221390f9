import GradeIo.Lib.Keyed
import GradeIo.Lib.Replica

/-!
# A shared list of keyed records

What the results of an assignment are for: a list with at most one record per
key, to which every client adds a record of its own user. The purpose is
stated here without documents, identifiers or field names; `GradeIo.Devices`
shows that the devices' handlers refine it.

A client decides between *replacing* and *adding* by its own view of the list,
which may be stale. Replacing clears the whole list first. Two results follow:

- `Consistent.run` - what a submission has to find in the state before it for
  keys to stay unique in every later state; `Safe` is exact, since a submission
  without it can be driven into a duplicate (`exists_duplicate_of_not_safe`);
- `Kept.run` - if every user submits once and had no record before, the list is
  at any time the initial one followed by the committed submissions.
-/

namespace GradeIo.Gradebook

open Keyed Replica Transition

/-! ## Operations on the list -/

/-- `other` is an operation on the shared object that leaves the list alone. -/
inductive Op (R : Type*) where
  | clear
  | add (r : R)
  | other

variable {Client R K : Type*}

/-- The records that a list of operations adds. -/
def adds (ops : List (Op R)) : List R :=
  ops.filterMap fun
    | .add r => some r
    | _ => none

@[simp] theorem adds_nil : adds ([] : List (Op R)) = [] := rfl

@[simp] theorem adds_cons_add (r : R) (ops : List (Op R)) :
    adds (.add r :: ops) = r :: adds ops := rfl

@[simp] theorem adds_cons_clear (ops : List (Op R)) : adds (.clear :: ops) = adds ops := rfl

@[simp] theorem adds_cons_other (ops : List (Op R)) : adds (.other :: ops) = adds ops := rfl

@[simp] theorem adds_append (ops ops' : List (Op R)) :
    adds (ops ++ ops') = adds ops ++ adds ops' := List.filterMap_append

@[simp] theorem adds_replicate_other (n : Nat) :
    adds (List.replicate n (Op.other : Op R)) = [] := by
  induction n with
  | zero => rfl
  | succ n ih => rw [List.replicate_succ, adds_cons_other, ih]

theorem mem_adds {ops : List (Op R)} {r : R} : r ∈ adds ops ↔ .add r ∈ ops := by
  unfold adds
  rw [List.mem_filterMap]
  constructor
  · rintro ⟨op, hop, heq⟩
    cases op with
    | add x =>
        obtain rfl := Option.some.inj heq
        exact hop
    | clear => cases heq
    | other => cases heq
  · exact fun h => ⟨_, h, rfl⟩

variable [DecidableEq R]

def apply : Option (List R) → Op R → Option (List R)
  | _, .clear => some []
  | l, .add r => some (addIfAbsent (l.getD []) r)
  | l, .other => l

/-- What operations put into the list was there before or is added by them. -/
theorem mem_foldl_apply {ops : List (Op R)} {l : Option (List R)} {x : R}
    (h : x ∈ (ops.foldl apply l).getD []) : x ∈ l.getD [] ∨ x ∈ adds ops := by
  induction ops generalizing l with
  | nil => exact Or.inl h
  | cons op ops ih =>
      cases op with
      | clear => exact Or.inr ((ih h).resolve_left (by simp [apply]))
      | add r =>
          rcases ih h with h | h
          · simp only [apply, Option.getD_some, mem_addIfAbsent] at h
            rcases h with h | rfl
            · exact Or.inl h
            · exact Or.inr (by simp)
          · exact Or.inr (by simp [h])
      | other => exact (ih h).imp_right (by simp)

/-- Operations do not turn a part of the list into more than the whole gives. -/
theorem foldl_apply_mono {ops : List (Op R)} {l m : Option (List R)}
    (h : ∀ x ∈ l.getD [], x ∈ m.getD []) :
    ∀ x ∈ (ops.foldl apply l).getD [], x ∈ (ops.foldl apply m).getD [] := by
  induction ops generalizing l m with
  | nil => exact h
  | cons op ops ih =>
      apply ih
      cases op with
      | clear => simp [apply]
      | add r =>
          intro x hx
          simp only [apply, Option.getD_some, mem_addIfAbsent] at hx ⊢
          exact hx.imp_left (h x)
      | other => exact h

/-- An addition made first is seen after further operations at most as the added record. -/
theorem mem_foldl_apply_add {ops : List (Op R)} {l : Option (List R)} {r x : R}
    (h : x ∈ (ops.foldl apply (apply l (.add r))).getD []) :
    x ∈ (ops.foldl apply l).getD [] ∨ x = r := by
  induction ops generalizing l with
  | nil => simpa [apply] using h
  | cons op ops ih =>
      cases op with
      | clear => exact Or.inl h
      | add y =>
          have hsub : ∀ z ∈ (apply (apply l (.add r)) (.add y)).getD [],
              z ∈ (apply (apply l (.add y)) (.add r)).getD [] := by
            intro z hz
            simp only [apply, Option.getD_some, mem_addIfAbsent] at hz ⊢
            tauto
          exact ih (foldl_apply_mono hsub x h)
      | other => exact ih h

/-! ## States in which keys stay unique -/

section Unique

/-- A list shared by clients, each with its own view of it. -/
abbrev Shared (Client R : Type*) :=
  State Client (Op R) (Option (List R)) (Option (List R)) R

variable [DecidableEq Client] (key : R → K)

/-- Keys are unique, and stay so whichever way the outboxes are emptied. -/
structure Consistent (s : Shared Client R) : Prop where
  stored : ((s.obj.getD []).map key).Nodup
  own : ∀ c pre r post, s.outbox c = pre ++ .add r :: post →
    ∀ x ∈ (pre.foldl apply s.obj).getD [], key x = key r → x = r
  others : ∀ c d, c ≠ d → ∀ x ∈ adds (s.outbox c), ∀ y ∈ adds (s.outbox d),
    key x = key y → x = y

/-- Where a run of safe submissions starts: unique keys and nothing under way. -/
def Fresh (s : Shared Client R) : Prop :=
  ((s.obj.getD []).map key).Nodup ∧ ∀ c, s.outbox c = []

variable {key}

omit [DecidableEq Client] in
theorem Fresh.consistent {s : Shared Client R} (h : Fresh key s) : Consistent key s := by
  refine ⟨h.1, ?_, ?_⟩
  · intro c pre r post hc
    rw [h.2 c] at hc
    simp at hc
  · intro c d _ x hx
    rw [h.2 c] at hx
    cases hx

namespace Consistent

variable {s : Shared Client R}

/-- Operations that a client appends: its own additions have to fit what its
outbox will have left, and those of the other clients. -/
theorem append (h : Consistent key s) {c : Client} {ops : List (Op R)}
    {w : Option (List R)} {outs : List R}
    (hown : ∀ pre r post, ops = pre ++ .add r :: post →
      ∀ x ∈ ((s.outbox c ++ pre).foldl apply s.obj).getD [], key x = key r → x = r)
    (hothers : ∀ r ∈ adds ops, ∀ d, d ≠ c → ∀ x ∈ adds (s.outbox d), key x = key r → x = r) :
    Consistent key { s with
      view := Function.update s.view c w
      outbox := Function.update s.outbox c (s.outbox c ++ ops)
      log := s.log ++ outs } := by
  refine ⟨h.stored, ?_, ?_⟩
  · intro d pre r post hd
    by_cases hdc : d = c
    · subst hdc
      simp only [Function.update_self] at hd
      -- the addition is one of the old outbox or one of the new operations
      rcases List.append_eq_append_iff.mp hd with ⟨as, rfl, hops⟩ | ⟨bs, hout, hbs⟩
      · exact hown as r post hops
      · cases bs with
        | nil =>
            rw [List.append_nil] at hout
            rw [← hout, ← List.append_nil (s.outbox d)]
            exact hown [] r post hbs.symm
        | cons b bs =>
            obtain ⟨rfl, rfl⟩ := List.cons.inj hbs
            exact h.own d pre r bs hout
    · simp only [Function.update_of_ne hdc] at hd
      exact h.own d pre r post hd
  · intro d e hde x hx y hy hk
    by_cases hdc : d = c
    · subst hdc
      simp only [Function.update_self, Function.update_of_ne (Ne.symm hde), adds_append,
        List.mem_append] at hx hy
      rcases hx with hx | hx
      · exact h.others d e hde x hx y hy hk
      · exact (hothers x hx e (Ne.symm hde) y hy hk.symm).symm
    · by_cases hec : e = c
      · subst hec
        simp only [Function.update_self, Function.update_of_ne hdc, adds_append,
          List.mem_append] at hx hy
        rcases hy with hy | hy
        · exact h.others d e hde x hx y hy hk
        · exact hothers y hy d hdc x hx hk
      · simp only [Function.update_of_ne hdc, Function.update_of_ne hec] at hx hy
        exact h.others d e hde x hx y hy hk

theorem commit (h : Consistent key s) {c : Client} {op : Op R} {rest : List (Op R)}
    (hout : s.outbox c = op :: rest) :
    Consistent key { s with
      obj := apply s.obj op
      history := s.history ++ [apply s.obj op]
      outbox := Function.update s.outbox c rest } := by
  have hadds : ∀ d, ∀ x ∈ adds (Function.update s.outbox c rest d), x ∈ adds (s.outbox d) := by
    intro d x hx
    by_cases hdc : d = c
    · subst hdc
      rw [Function.update_self] at hx
      rw [hout, ← List.singleton_append, adds_append]
      exact List.mem_append_right _ hx
    · rwa [Function.update_of_ne hdc] at hx
  refine ⟨?_, ?_, fun d e hde x hx y hy => h.others d e hde x (hadds d x hx) y (hadds e y hy)⟩
  · cases op with
    | clear => simp [apply]
    | add r => exact nodup_addIfAbsent h.stored fun y hy hk => h.own c [] r rest hout y hy hk
    | other => exact h.stored
  · intro d pre r post hd x hx hk
    by_cases hdc : d = c
    · subst hdc
      simp only [Function.update_self] at hd
      exact h.own d (op :: pre) r post (by rw [hout, hd, List.cons_append]) x hx hk
    · simp only [Function.update_of_ne hdc] at hd
      cases op with
      | clear => exact h.own d pre r post hd x (foldl_apply_mono (by simp [apply]) x hx) hk
      | add y =>
          rcases mem_foldl_apply_add hx with hx | rfl
          · exact h.own d pre r post hd x hx hk
          · exact h.others c d (Ne.symm hdc) x (by simp [hout]) r
              (mem_adds.mpr (by simp [hd])) hk
      | other => exact h.own d pre r post hd x hx hk

end Consistent

end Unique

/-! ## States in which nothing is lost -/

section Once

variable [DecidableEq Client] {key : R → K}

/-- Where such a run starts: a client sees a record of its own user only if
the initial list has one. -/
structure Start (key : R → K) (user : Client → K) (initial : Option (List R))
    (s : Shared Client R) : Prop where
  obj : s.obj = initial
  history : s.history = [initial]
  outbox : ∀ c, s.outbox c = []
  log : s.log = []
  view : ∀ c, ∀ x ∈ (s.view c).getD [], key x = user c → user c ∈ (initial.getD []).map key

/-- The list is the initial one and then the committed submissions; the others
wait, each once, in one outbox. -/
structure Kept (key : R → K) (user : Client → K) (initial applied : List R)
    (s : Shared Client R) : Prop where
  obj : s.obj.getD [] = initial ++ applied
  noClear : ∀ c, .clear ∉ s.outbox c
  logged : ∀ r, r ∈ s.log ↔ r ∈ applied ∨ ∃ c, r ∈ adds (s.outbox c)
  logNodup : (s.log.map key).Nodup
  logNew : ∀ r ∈ s.log, key r ∉ initial.map key
  appliedNodup : applied.Nodup
  pendingNodup : ∀ c, (adds (s.outbox c)).Nodup
  pendingNew : ∀ c, ∀ r ∈ adds (s.outbox c), r ∉ applied
  pendingApart : ∀ c d, c ≠ d → ∀ r ∈ adds (s.outbox c), r ∉ adds (s.outbox d)
  versions : ∀ v ∈ s.history, ∀ x ∈ v.getD [], x ∈ initial ∨ x ∈ s.log
  view : ∀ c, ∀ x ∈ (s.view c).getD [], key x = user c → user c ∈ initial.map key ∨ x ∈ s.log

namespace Kept

variable {user : Client → K} {s : Shared Client R} {initial applied : List R}

omit [DecidableEq R] [DecidableEq Client] in
theorem start {o : Option (List R)} (h : Start key user o s) : Kept key user (o.getD []) [] s where
  obj := by simp [h.obj]
  noClear := by simp [h.outbox]
  logged := by simp [h.outbox, h.log]
  logNodup := by simp [h.log]
  logNew := by simp [h.log]
  appliedNodup := List.nodup_nil
  pendingNodup := by simp [h.outbox]
  pendingNew := by simp [h.outbox]
  pendingApart := by simp [h.outbox]
  versions := by
    rw [h.history]
    intro v hv x hx
    obtain rfl := List.mem_singleton.mp hv
    exact Or.inl hx
  view := fun c x hx hk => Or.inl (h.view c x hx hk)

omit [DecidableEq R] in
/-- An outbox is replaced by one with the same additions. -/
theorem adds_update (s : Shared Client R) (c : Client) {ops : List (Op R)}
    (hops : adds ops = adds (s.outbox c)) :
    ∀ d, adds (Function.update s.outbox c ops d) = adds (s.outbox d) :=
  (Function.forall_update_iff s.outbox fun d l => adds l = adds (s.outbox d)).mpr
    ⟨hops, fun _ _ => rfl⟩

omit [DecidableEq R] in
/-- An outbox is replaced by one without a clear. -/
theorem noClear_update (h : Kept key user initial applied s) (c : Client) {ops : List (Op R)}
    (hops : .clear ∉ ops) : ∀ d, .clear ∉ Function.update s.outbox c ops d :=
  (Function.forall_update_iff s.outbox fun _ l => .clear ∉ l).mpr ⟨hops, fun d _ => h.noClear d⟩

omit [DecidableEq R] in
theorem pendingNodup_update (h : Kept key user initial applied s) (c : Client) {ops : List (Op R)}
    (hops : (adds ops).Nodup) : ∀ d, (adds (Function.update s.outbox c ops d)).Nodup :=
  (Function.forall_update_iff s.outbox fun _ l => (adds l).Nodup).mpr
    ⟨hops, fun d _ => h.pendingNodup d⟩

omit [DecidableEq R] in
theorem submit (h : Kept key user initial applied s) {c : Client} {r : R}
    (hnew : key r ∉ initial.map key) (hlog : key r ∉ s.log.map key) :
    Kept key user initial applied { s with
      view := Function.update s.view c (s.view c)
      outbox := Function.update s.outbox c (s.outbox c ++ [.add r])
      log := s.log ++ [r] } := by
  have hr : r ∉ s.log := fun hm => hlog (List.mem_map_of_mem hm)
  have happlied : r ∉ applied := fun hm => hr ((h.logged r).mpr (Or.inl hm))
  have hpending : ∀ d, r ∉ adds (s.outbox d) := fun d hm =>
    hr ((h.logged r).mpr (Or.inr ⟨d, hm⟩))
  have hmem : ∀ d y, y ∈ adds (Function.update s.outbox c (s.outbox c ++ [.add r]) d) ↔
      y ∈ adds (s.outbox d) ∨ d = c ∧ y = r := by
    intro d y
    by_cases hd : d = c
    · subst hd
      simp
    · simp [hd]
  refine { h with noClear := ?_, logged := ?_, logNodup := ?_, logNew := ?_, pendingNodup := ?_,
                  pendingNew := ?_, pendingApart := ?_, versions := ?_, view := ?_ }
  · exact h.noClear_update c (by simp [h.noClear])
  · intro y
    simp only [hmem, List.mem_append, List.mem_singleton, h.logged y]
    constructor
    · rintro ((h | ⟨d, h⟩) | rfl)
      · exact Or.inl h
      · exact Or.inr ⟨d, Or.inl h⟩
      · exact Or.inr ⟨c, Or.inr ⟨rfl, rfl⟩⟩
    · rintro (h | ⟨d, h | ⟨-, rfl⟩⟩)
      · exact Or.inl (Or.inl h)
      · exact Or.inl (Or.inr ⟨d, h⟩)
      · exact Or.inr rfl
  · simpa [List.nodup_append, h.logNodup] using fun x hx (hk : key x = key r) =>
      hlog (hk ▸ List.mem_map_of_mem hx)
  · intro y hy
    rcases List.mem_append.mp hy with hy | hy
    · exact h.logNew y hy
    · obtain rfl := List.mem_singleton.mp hy
      exact hnew
  · have hnodup := h.pendingNodup c
    refine h.pendingNodup_update c ?_
    simpa [List.nodup_append, hnodup] using fun x hx (heq : x = r) => hpending c (heq ▸ hx)
  · intro d y hy
    rcases (hmem d y).mp hy with hy | ⟨-, rfl⟩
    · exact h.pendingNew d y hy
    · exact happlied
  · intro d e hde y hy hy'
    rcases (hmem d y).mp hy with hd | ⟨hdc, hyr⟩ <;>
      rcases (hmem e y).mp hy' with he | ⟨hec, hyr'⟩
    · exact h.pendingApart d e hde y hd he
    · exact hpending d (hyr' ▸ hd)
    · exact hpending e (hyr ▸ he)
    · exact hde (hdc.trans hec.symm)
  · intro v hv x hx
    exact (h.versions v hv x hx).imp_right (List.mem_append_left _)
  · intro d x hx hk
    rw [Function.update_eq_self] at hx
    exact (h.view d x hx hk).imp_right (List.mem_append_left _)

omit [DecidableEq R] in
/-- Operations about something else. -/
theorem edit (h : Kept key user initial applied s) (c : Client) (n : Nat) :
    Kept key user initial applied { s with
      view := Function.update s.view c (s.view c)
      outbox := Function.update s.outbox c (s.outbox c ++ List.replicate n .other)
      log := s.log ++ [] } := by
  have hadds : ∀ d, adds (Function.update s.outbox c (s.outbox c ++ List.replicate n .other) d) =
      adds (s.outbox d) :=
    adds_update s c (by simp)
  refine { h with noClear := ?_, logged := ?_, logNodup := ?_, logNew := ?_, pendingNodup := ?_,
                  pendingNew := ?_, pendingApart := ?_, versions := ?_, view := ?_ }
  · exact h.noClear_update c (by simp [h.noClear])
  · simpa [hadds] using h.logged
  · simpa using h.logNodup
  · simpa using h.logNew
  · simpa [hadds] using h.pendingNodup
  · simpa [hadds] using h.pendingNew
  · simpa [hadds] using h.pendingApart
  · simpa using h.versions
  · simpa using h.view

/-- Committing an addition moves the record from an outbox to the list. -/
theorem commit_add (h : Kept key user initial applied s) {c : Client} {r : R}
    {rest : List (Op R)} (hout : s.outbox c = .add r :: rest) :
    Kept key user initial (applied ++ [r]) { s with
      obj := apply s.obj (.add r)
      history := s.history ++ [apply s.obj (.add r)]
      outbox := Function.update s.outbox c rest } := by
  have hr : r ∈ adds (s.outbox c) := by simp [hout]
  have hlog : r ∈ s.log := (h.logged r).mpr (Or.inr ⟨c, hr⟩)
  have happlied : r ∉ applied := h.pendingNew c r hr
  have hobj : (apply s.obj (.add r)).getD [] = initial ++ (applied ++ [r]) := by
    have hnot : r ∉ initial ++ applied := by
      intro hm
      rcases List.mem_append.mp hm with hm | hm
      · exact h.logNew r hlog (List.mem_map_of_mem hm)
      · exact happlied hm
    simp only [apply, Option.getD_some, h.obj, addIfAbsent_of_not_mem hnot, List.append_assoc]
  have hnodup : r ∉ adds rest ∧ (adds rest).Nodup := by
    have := h.pendingNodup c
    rwa [hout, adds_cons_add, List.nodup_cons] at this
  have hmem : ∀ d y, y ∈ adds (Function.update s.outbox c rest d) ↔
      y ∈ adds (s.outbox d) ∧ y ≠ r := by
    intro d y
    by_cases hd : d = c
    · subst hd
      rw [Function.update_self, hout, adds_cons_add, List.mem_cons]
      constructor
      · exact fun hy => ⟨Or.inr hy, fun heq => hnodup.1 (heq ▸ hy)⟩
      · exact fun hy => hy.1.resolve_left hy.2
    · rw [Function.update_of_ne hd]
      exact ⟨fun hy => ⟨hy, fun heq => h.pendingApart d c hd y hy (heq ▸ hr)⟩, fun hy => hy.1⟩
  refine { h with obj := hobj, noClear := ?_, logged := ?_, appliedNodup := ?_,
                  pendingNodup := ?_, pendingNew := ?_, pendingApart := ?_, versions := ?_ }
  · have hclear := h.noClear c
    rw [hout] at hclear
    exact h.noClear_update c (List.not_mem_of_not_mem_cons hclear)
  · intro y
    simp only [hmem, h.logged y, List.mem_append, List.mem_singleton]
    by_cases hy : y = r
    · subst hy
      exact ⟨fun _ => Or.inl (Or.inr rfl), fun _ => Or.inr ⟨c, hr⟩⟩
    · simp [hy]
  · exact List.nodup_append.mpr ⟨h.appliedNodup, List.nodup_singleton r, fun x hx y hy heq =>
      happlied (List.mem_singleton.mp hy ▸ heq ▸ hx)⟩
  · exact h.pendingNodup_update c hnodup.2
  · intro d y hy hy'
    obtain ⟨hy, hne⟩ := (hmem d y).mp hy
    rcases List.mem_append.mp hy' with hy' | hy'
    · exact h.pendingNew d y hy hy'
    · exact hne (List.mem_singleton.mp hy')
  · intro d e hde y hy hy'
    exact h.pendingApart d e hde y ((hmem d y).mp hy).1 ((hmem e y).mp hy').1
  · intro v hv x hx
    rcases List.mem_append.mp hv with hv | hv
    · exact h.versions v hv x hx
    · obtain rfl := List.mem_singleton.mp hv
      rw [hobj, List.mem_append, List.mem_append, List.mem_singleton] at hx
      rcases hx with hx | hx | rfl
      · exact Or.inl hx
      · exact Or.inr ((h.logged x).mpr (Or.inl hx))
      · exact Or.inr hlog

theorem commit_other (h : Kept key user initial applied s) {c : Client}
    {rest : List (Op R)} (hout : s.outbox c = .other :: rest) :
    Kept key user initial applied { s with
      obj := apply s.obj .other
      history := s.history ++ [apply s.obj .other]
      outbox := Function.update s.outbox c rest } := by
  have hadds : ∀ d, adds (Function.update s.outbox c rest d) = adds (s.outbox d) :=
    adds_update s c (by rw [hout, adds_cons_other])
  refine { h with noClear := ?_, logged := ?_, pendingNodup := ?_, pendingNew := ?_,
                  pendingApart := ?_, versions := ?_ }
  · have hclear := h.noClear c
    rw [hout] at hclear
    exact h.noClear_update c (List.not_mem_of_not_mem_cons hclear)
  · simpa [hadds] using h.logged
  · simpa [hadds] using h.pendingNodup
  · simpa [hadds] using h.pendingNew
  · simpa [hadds] using h.pendingApart
  · intro v hv x hx
    rcases List.mem_append.mp hv with hv | hv
    · exact h.versions v hv x hx
    · obtain rfl := List.mem_singleton.mp hv
      rw [show (apply s.obj .other).getD [] = _ from h.obj, List.mem_append] at hx
      exact hx.imp_right fun hx => (h.logged x).mpr (Or.inl hx)

/-- A refresh shows initial and submitted records only. -/
theorem refresh (h : Kept key user initial applied s) {c : Client} {v : Option (List R)}
    (hv : v ∈ s.history) (ahead : Bool) :
    Kept key user initial applied { s with
      view := Function.update s.view c
        ((if ahead then (s.outbox c).foldl apply v else v).or (s.view c)) } := by
  refine { h with view := ?_ }
  intro d x hx hk
  by_cases hd : d = c
  · subst hd
    have hin : x ∈ (s.view d).getD [] ∨ x ∈ v.getD [] ∨ x ∈ adds (s.outbox d) := by
      simp only [Function.update_self] at hx
      cases hseen : (if ahead then (s.outbox d).foldl apply v else v) with
      | none =>
          rw [hseen] at hx
          exact Or.inl hx
      | some l =>
          rw [hseen, Option.some_or] at hx
          refine Or.inr ?_
          split at hseen
          · exact mem_foldl_apply (hseen ▸ hx)
          · exact Or.inl (hseen ▸ hx)
    rcases hin with hin | hin | hin
    · exact h.view d x hin hk
    · refine (h.versions v hv x hin).imp_left fun hin => ?_
      exact hk ▸ List.mem_map_of_mem hin
    · exact Or.inr ((h.logged x).mpr (Or.inr ⟨d, hin⟩))
  · simp only [Function.update_of_ne hd] at hx
    exact h.view d x hx hk

omit [DecidableEq R] [DecidableEq Client] in
/-- With nothing under way, the list is the initial one and then the submissions. -/
theorem perm_log (h : Kept key user initial applied s) (hquiet : ∀ c, s.outbox c = []) :
    applied.Perm s.log := by
  rw [List.perm_ext_iff_of_nodup h.appliedNodup h.logNodup.of_map]
  intro r
  rw [h.logged r]
  simp [hquiet]

end Kept

end Once

/-! ## The protocol -/

section Protocol

variable [DecidableEq K] (key : R → K) (blank : K)

/-- The view has a record of `k`; records of the blank key are never noticed. -/
def Shows (view : Option (List R)) (k : K) : Prop :=
  k ≠ blank ∧ ∃ r ∈ view.getD [], key r = k

instance (view : Option (List R)) (k : K) : Decidable (Shows key blank view k) :=
  inferInstanceAs (Decidable (_ ∧ _))

inductive Input (R : Type*) where
  | submit (r : R)
  /-- Some operations that are not about the list. -/
  | edit (n : Nat)

/-- A client submits records of its own user only. -/
def handle (user : Client → K) (c : Client) (view : Option (List R)) :
    Input R → Option (Option (List R) × List (Op R) × List R)
  | .submit r =>
      if key r = user c then
        if Shows key blank view (key r) then
          some (view.map fun l => l.eraseP fun x => key x = key r, [.clear, .add r], [r])
        else some (view, [.add r], [r])
      else none
  | .edit n => some (view, List.replicate n .other, [])

/-- A refresh shows the list as it is, or keeps the view if there is none. -/
def protocol (user : Client → K) :
    Protocol Client (Input R) (Op R) (Option (List R)) (Option (List R)) R where
  apply := apply
  handle := handle key blank user
  refresh := fun view l => some (l.or view)

omit [DecidableEq R] in
/-- The three things a handler does. -/
theorem handle_cases {key : R → K} {blank : K} {user : Client → K} {c : Client}
    {view w : Option (List R)} {i : Input R} {ops : List (Op R)} {outs : List R}
    (h : handle key blank user c view i = some (w, ops, outs)) :
    (∃ r, i = .submit r ∧ key r = user c ∧ Shows key blank view (key r)
        ∧ w = view.map (fun l => l.eraseP fun x => key x = key r)
        ∧ ops = [.clear, .add r] ∧ outs = [r])
      ∨ (∃ r, i = .submit r ∧ key r = user c ∧ ¬ Shows key blank view (key r)
        ∧ w = view ∧ ops = [.add r] ∧ outs = [r])
      ∨ (∃ n, i = .edit n ∧ w = view ∧ ops = List.replicate n .other ∧ outs = []) := by
  cases i with
  | submit r =>
      simp only [handle] at h
      split at h
      · rename_i hkey
        split at h
        · rename_i hshows
          simp only [Option.some.injEq, Prod.mk.injEq] at h
          exact Or.inl ⟨r, rfl, hkey, hshows, h.1.symm, h.2.1.symm, h.2.2.symm⟩
        · rename_i hshows
          simp only [Option.some.injEq, Prod.mk.injEq] at h
          exact Or.inr (Or.inl ⟨r, rfl, hkey, hshows, h.1.symm, h.2.1.symm, h.2.2.symm⟩)
      · cases h
  | edit n =>
      simp only [handle, Option.some.injEq, Prod.mk.injEq] at h
      exact Or.inr (Or.inr ⟨n, rfl, h.1.symm, h.2.1.symm, h.2.2.symm⟩)

/-! ## When a submission keeps keys unique -/

variable [DecidableEq Client]

/-- No other client has a different record of the same key under way and, if
`c`'s view does not lead it to replace, neither is one left once `c`'s own
operations are through. -/
def Safe (s : Shared Client R) (c : Client)
    (r : R) : Prop :=
  (∀ d, d ≠ c → ∀ x ∈ adds (s.outbox d), key x = key r → x = r)
    ∧ (¬ Shows key blank (s.view c) (key r) →
        ∀ x ∈ ((s.outbox c).foldl apply s.obj).getD [], key x = key r → x = r)

/-- The condition on a step: a submission is safe. -/
def SafeStep (s : Shared Client R) :
    Event Client (Input R) → Prop
  | .act c (.submit r) => Safe key blank s c r
  | _ => True

variable {key blank} {user : Client → K}
  {s s' : Shared Client R}

/-- What one step keeps. -/
theorem Consistent.step (h : Consistent key s) {e : Event Client (Input R)}
    (hok : SafeStep key blank s e) (hs : (protocol key blank user).step s e = some s') :
    Consistent key s' := by
  rcases Protocol.step_cases hs with ⟨c, i, w, ops, outs, rfl, hh, rfl⟩
    | ⟨c, op, rest, -, hout, rfl⟩ | ⟨c, _, _, _, w, -, -, -, rfl⟩
  · rcases handle_cases hh with ⟨r, rfl, -, -, -, rfl, -⟩ | ⟨r, rfl, -, hshows, -, rfl, -⟩
      | ⟨n, rfl, -, rfl, -⟩
    -- replacing: the list is cleared before the addition
    · refine h.append ?_ ?_
      · intro pre y post hops x hx
        obtain ⟨rfl, -, -⟩ : pre = [.clear] ∧ r = y ∧ post = [] := by
          rcases pre with _ | ⟨p, _ | ⟨q, pre⟩⟩ <;> simp at hops
          obtain ⟨rfl, rfl, rfl⟩ := hops
          simp
        simp [apply] at hx
      · intro y hy
        obtain rfl : y = r := by simpa using hy
        exact hok.1
    -- adding: `Safe` speaks of the list that the outbox leaves
    · refine h.append ?_ ?_
      · intro pre y post hops x hx
        obtain ⟨rfl, rfl, -⟩ : pre = [] ∧ r = y ∧ post = [] := by
          rcases pre with _ | ⟨p, pre⟩ <;> simp at hops
          obtain ⟨rfl, rfl⟩ := hops
          simp
        rw [List.append_nil] at hx
        exact hok.2 hshows x hx
      · intro y hy
        obtain rfl : y = r := by simpa using hy
        exact hok.1
    · refine h.append ?_ (by simp)
      intro pre y post hops
      have hy : y ∈ adds (List.replicate n (Op.other : Op R)) := mem_adds.mpr (by simp [hops])
      simp at hy
  · exact h.commit hout
  · exact ⟨h.stored, h.own, h.others⟩

/-- Every state reached by safe submissions has unique keys. -/
theorem Consistent.run (h : ((protocol key blank user).system (Fresh key)).Run
    (SafeStep key blank) s) : Consistent key s :=
  h.invariant (fun _ => Fresh.consistent) fun _ _ _ hI hok hs => hI.step hok hs

omit [DecidableEq R] [DecidableEq Client] [DecidableEq K] in
theorem not_nodup_of_two {l : List R} {x r : R} (hx : x ∈ l) (hr : r ∈ l) (hne : x ≠ r)
    (hk : key x = key r) : ¬ (l.map key).Nodup :=
  fun h => hne (eq_of_key_eq h hx hr hk)

/-- After a submission the record is the last thing that its client's outbox adds. -/
theorem outbox_of_submit {c : Client} {r : R}
    (hs : (protocol key blank user).step s (.act c (.submit r)) = some s') :
    ∃ ops, s'.outbox = Function.update s.outbox c (s.outbox c ++ ops ++ [.add r])
      ∧ s'.obj = s.obj ∧ (¬ Shows key blank (s.view c) (key r) → ops = []) := by
  rcases Protocol.step_cases hs with ⟨c', i, w, ops, outs, he, hh, rfl⟩
    | ⟨_, _, _, he, -⟩ | ⟨_, _, _, _, _, he, -⟩
  · obtain ⟨rfl, rfl⟩ := Event.act.inj he
    have hh : handle key blank user c (s.view c) (.submit r) = some (w, ops, outs) := hh
    rcases handle_cases hh with ⟨y, hy, -, hshows, -, rfl, -⟩ | ⟨y, hy, -, -, -, rfl, -⟩
      | ⟨n, hn, -⟩
    · obtain rfl := Input.submit.inj hy
      exact ⟨[.clear], by simp, rfl, fun h => absurd hshows h⟩
    · obtain rfl := Input.submit.inj hy
      exact ⟨[], by simp, rfl, fun _ => rfl⟩
    · cases hn
  · cases he
  · cases he

/-- `Safe` is exact: a submission without it can be followed by commits alone
that leave two records of one key. -/
theorem exists_duplicate_of_not_safe {c : Client} {r : R} (hsafe : ¬ Safe key blank s c r)
    (hs : (protocol key blank user).step s (.act c (.submit r)) = some s') :
    ∃ cs : List Client, ∃ t,
      ((protocol key blank user).system (Fresh key)).replay s' (cs.map .commit) = some t
        ∧ ¬ ((t.obj.getD []).map key).Nodup := by
  obtain ⟨ops, hout, hobj, hops⟩ := outbox_of_submit hs
  simp only [Safe, not_and_or, not_forall] at hsafe
  rcases hsafe with ⟨d, hdc, x, hx, hk, hne⟩ | ⟨hshows, x, hx, hk, hne⟩
  -- another client adds its record once `c` has added `r`
  · obtain ⟨pre, post, hd⟩ := List.append_of_mem (mem_adds.mp hx)
    have hd' : s'.outbox d = pre ++ .add x :: post := by
      rw [hout, Function.update_of_ne hdc, hd]
    obtain ⟨t₁, h₁, -, hout₁⟩ := Protocol.replay_commit (P := protocol key blank user)
      (Fresh key) hd'
    have hc₁ : t₁.outbox c = (s.outbox c ++ ops ++ [.add r]) ++ [] := by
      rw [hout₁, Function.update_of_ne (Ne.symm hdc), hout, Function.update_self, List.append_nil]
    obtain ⟨t₂, h₂, hobj₂, hout₂⟩ := Protocol.replay_commit (P := protocol key blank user)
      (Fresh key) hc₁
    have hd₂ : t₂.outbox d = [.add x] ++ post := by
      rw [hout₂, Function.update_of_ne hdc, hout₁, Function.update_self, List.singleton_append]
    obtain ⟨t₃, h₃, hobj₃, -⟩ := Protocol.replay_commit (P := protocol key blank user)
      (Fresh key) hd₂
    have hrun := (System.replay_append h₁).trans ((System.replay_append h₂).trans h₃)
    rw [← List.map_append, ← List.map_append] at hrun
    refine ⟨_, t₃, hrun, not_nodup_of_two (x := x) (r := r) ?_ ?_ hne hk⟩
    · simp [hobj₃, protocol, apply]
    · simp [hobj₃, hobj₂, protocol, apply]
  -- `c` adds `r` to a list that still has the other record
  · obtain rfl := hops hshows
    have hc : s'.outbox c = (s.outbox c ++ [.add r]) ++ [] := by
      rw [hout, Function.update_self, List.append_nil, List.append_nil]
    obtain ⟨t, h, hobj', -⟩ := Protocol.replay_commit (P := protocol key blank user)
      (Fresh key) hc
    rw [hobj] at hobj'
    refine ⟨_, t, h, not_nodup_of_two (x := x) (r := r) ?_ ?_ hne hk⟩
    · rw [hobj', List.foldl_append]
      simp only [protocol, List.foldl_cons, List.foldl_nil, apply, Option.getD_some,
        mem_addIfAbsent]
      exact Or.inl hx
    · simp [hobj', protocol, apply]

/-! ## One submission for each user -/

/-- The condition on a step: no record of that key was in the initial list or
has been submitted. -/
def FirstStep (key : R → K) (initial : List R) (s : Shared Client R) :
    Event Client (Input R) → Prop
  | .act _ (.submit r) => key r ∉ initial.map key ∧ key r ∉ s.log.map key
  | _ => True

omit [DecidableEq R] [DecidableEq K] [DecidableEq Client] in
/-- No client of a user without a record sees one: it adds. -/
theorem Kept.not_shows (h : Kept key user initial applied s) {c : Client} {r : R}
    (hc : key r = user c) (hnew : key r ∉ initial.map key) (hlog : key r ∉ s.log.map key) :
    ¬ Shows key blank (s.view c) (key r) := by
  rintro ⟨-, x, hx, hk⟩
  rcases h.view c x hx (hk.trans hc) with hin | hin
  · exact hnew (hc ▸ hin)
  · exact hlog (hk ▸ List.mem_map_of_mem hin)

/-- What one step keeps. -/
theorem Kept.step {initial applied : List R} (h : Kept key user initial applied s)
    {e : Event Client (Input R)} (hok : FirstStep key initial s e)
    (hs : (protocol key blank user).step s e = some s') :
    ∃ applied', Kept key user initial applied' s' := by
  rcases Protocol.step_cases hs with ⟨c, i, w, ops, outs, rfl, hh, rfl⟩
    | ⟨c, op, rest, -, hout, rfl⟩ | ⟨c, _, ahead, v, w, -, hv, hw, rfl⟩
  · rcases handle_cases hh with ⟨r, rfl, hc, hshows, -, -, -⟩ | ⟨r, rfl, -, -, rfl, rfl, rfl⟩
      | ⟨n, rfl, rfl, rfl, rfl⟩
    · exact absurd hshows (h.not_shows hc hok.1 hok.2)
    · exact ⟨applied, h.submit hok.1 hok.2⟩
    · exact ⟨applied, h.edit c n⟩
  · cases op with
    | clear => exact absurd (by simp [hout]) (h.noClear c)
    | add r => exact ⟨_, h.commit_add hout⟩
    | other => exact ⟨_, h.commit_other hout⟩
  · obtain rfl := Option.some.inj hw
    exact ⟨applied, h.refresh hv ahead⟩

/-- In every run of first submissions the list only grows, by what was submitted. -/
theorem Kept.run {o : Option (List R)}
    (h : ((protocol key blank user).system (Start key user o)).Run
      (FirstStep key (o.getD [])) s) :
    ∃ applied, Kept key user (o.getD []) applied s := by
  refine h.invariant (I := fun s => ∃ applied, Kept key user (o.getD []) applied s) ?_ ?_
  · exact fun _ h0 => ⟨[], .start h0⟩
  · rintro _ _ _ ⟨_, hI⟩ hok hs
    exact hI.step hok hs

end Protocol

end GradeIo.Gradebook
