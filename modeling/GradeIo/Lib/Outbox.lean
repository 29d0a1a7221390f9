import Mathlib.Data.List.Basic
import Mathlib.Tactic.Common

/-!
# Outboxes

Nothing here names a particular program. Items are submitted with a ticket and
settled one by one, in their order; whoever waits is told when everything that
was submitted before has been settled. The rules say what the notices are that a
run leaves:

- `run_history` - every ticket is settled once, in the order of submission, and
  what is not settled is still there;
- `caughtUp_iff` - who waits is told exactly when as many items have been settled
  as were there.
-/

namespace Outbox

variable {α τ ω : Type*}

/-- An item with those who wait for it and everything before it. -/
structure Entry (α τ : Type*) where
  item : α
  ticket : τ
  waiters : List τ

inductive Notice (τ ω : Type*) where
  | settled (ticket : τ) (outcome : ω)
  | caughtUp (ticket : τ)

structure State (α τ ω : Type*) where
  entries : List (Entry α τ)
  notices : List (Notice τ ω)

inductive Op (α τ ω : Type*) where
  | submit (item : α) (ticket : τ)
  | wait (ticket : τ)
  | settle (outcome : ω)

def Entry.await (e : Entry α τ) (ticket : τ) : Entry α τ :=
  { e with waiters := e.waiters ++ [ticket] }

def Entry.notices (e : Entry α τ) (outcome : ω) : List (Notice τ ω) :=
  .settled e.ticket outcome :: e.waiters.map .caughtUp

def State.perform (s : State α τ ω) : Op α τ ω → State α τ ω
  | .submit item ticket => { s with entries := s.entries ++ [⟨item, ticket, []⟩] }
  | .wait ticket =>
      match s.entries.getLast? with
      | none => { s with notices := s.notices ++ [.caughtUp ticket] }
      | some e => { s with entries := s.entries.dropLast ++ [e.await ticket] }
  | .settle outcome =>
      match s.entries with
      | [] => s
      | e :: rest => ⟨rest, s.notices ++ e.notices outcome⟩

def State.run (s : State α τ ω) (ops : List (Op α τ ω)) : State α τ ω := ops.foldl State.perform s

/-! ## What is settled -/

def submitted (ops : List (Op α τ ω)) : List (α × τ) :=
  ops.filterMap fun
    | .submit item ticket => some (item, ticket)
    | _ => none

def settled (notices : List (Notice τ ω)) : List (τ × ω) :=
  notices.filterMap fun
    | .settled ticket outcome => some (ticket, outcome)
    | .caughtUp _ => none

def State.pending (s : State α τ ω) : List (α × τ) := s.entries.map fun e => (e.item, e.ticket)

/-- What was submitted is settled, in this order, or pending. -/
def State.History (s : State α τ ω) (items : List (α × τ)) : Prop :=
  ∃ done, items = done ++ s.pending ∧ (settled s.notices).map Prod.fst = done.map Prod.snd

theorem settled_notices (e : Entry α τ) (outcome : ω) :
    settled (e.notices outcome) = [(e.ticket, outcome)] := by
  have hnone : ∀ ws : List τ, settled (ws.map Notice.caughtUp : List (Notice τ ω)) = [] := by
    intro ws
    induction ws with
    | nil => rfl
    | cons w ws ih => exact ih
  exact congrArg (List.cons (e.ticket, outcome)) (hnone e.waiters)

theorem settled_append (ns ms : List (Notice τ ω)) :
    settled (ns ++ ms) = settled ns ++ settled ms := List.filterMap_append

variable {s : State α τ ω} {items : List (α × τ)}

theorem State.History.perform (h : s.History items) (op : Op α τ ω) :
    (s.perform op).History (items ++ submitted [op]) := by
  obtain ⟨done, rfl, hdone⟩ := h
  cases op with
  | submit item ticket =>
      refine ⟨done, ?_, hdone⟩
      rw [List.append_assoc]
      unfold State.pending State.perform
      rw [List.map_append]
      rfl
  | wait ticket =>
      refine ⟨done, ?_, ?_⟩
      · show done ++ s.pending ++ [] = _
        rw [List.append_nil]
        unfold State.pending State.perform
        cases hlast : s.entries.getLast? with
        | none => rfl
        | some e =>
            simp only [List.map_append, List.map_singleton]
            rw [← List.dropLast_append_getLast? e hlast, List.map_append]
            simp [Entry.await]
      · unfold State.perform
        cases s.entries.getLast? with
        | none =>
            simp only [settled_append, List.map_append, hdone]
            exact List.append_nil _
        | some e => exact hdone
  | settle outcome =>
      cases hentries : s.entries with
      | nil =>
          have hsame : s.perform (.settle outcome) = s := by
            unfold State.perform
            rw [hentries]
          rw [hsame]
          exact ⟨done, List.append_nil _, hdone⟩
      | cons e rest =>
          have hperform : s.perform (.settle outcome) = ⟨rest, s.notices ++ e.notices outcome⟩ := by
            unfold State.perform
            rw [hentries]
          rw [hperform]
          refine ⟨done ++ [(e.item, e.ticket)], ?_, ?_⟩
          · unfold State.pending
            rw [hentries]
            simp [submitted]
          · rw [settled_append, settled_notices, List.map_append, hdone, List.map_append]
            rfl

/-- The rule for a run. -/
theorem run_history (h : s.History items) (ops : List (Op α τ ω)) :
    (s.run ops).History (items ++ submitted ops) := by
  induction ops generalizing s items with
  | nil =>
      rw [show submitted ([] : List (Op α τ ω)) = [] from rfl, List.append_nil]
      exact h
  | cons op ops ih =>
      have hsplit : submitted (op :: ops) = submitted [op] ++ submitted ops :=
        List.filterMap_append (l := [op])
      rw [hsplit, ← List.append_assoc]
      exact ih (h.perform op)

/-! ## Who waits -/

/-- The ticket waits behind the first `n` entries. -/
structure State.Behind (s : State α τ ω) (t : τ) (n : Nat) : Prop where
  le : n ≤ s.entries.length
  waits : ∀ i e, s.entries[i]? = some e → (t ∈ e.waiters ↔ i + 1 = n)
  told : .caughtUp t ∈ s.notices ↔ n = 0

/-- It does not wait yet. -/
def State.Fresh (s : State α τ ω) (t : τ) : Prop :=
  .caughtUp t ∉ s.notices ∧ ∀ e ∈ s.entries, t ∉ e.waiters

theorem State.Fresh.run {t : τ} (h : s.Fresh t) {ops : List (Op α τ ω)}
    (hops : ∀ op ∈ ops, op ≠ .wait t) : (s.run ops).Fresh t := by
  induction ops generalizing s with
  | nil => exact h
  | cons op ops ih =>
      refine ih (s := s.perform op) ?_ fun op' hop => hops op' (List.mem_cons_of_mem _ hop)
      obtain ⟨hnot, hnone⟩ := h
      cases op with
      | submit item ticket =>
          refine ⟨hnot, fun e he => ?_⟩
          rcases List.mem_append.mp he with he | he
          · exact hnone e he
          · obtain rfl := List.mem_singleton.mp he
            exact List.not_mem_nil
      | wait ticket =>
          have hne : t ≠ ticket := by
            rintro rfl
            exact hops _ List.mem_cons_self rfl
          unfold State.perform
          cases hlast : s.entries.getLast? with
          | none =>
              refine ⟨?_, hnone⟩
              simp [hnot, hne]
          | some last =>
              refine ⟨hnot, fun e he => ?_⟩
              rcases List.mem_append.mp he with he | he
              · exact hnone e (List.dropLast_subset _ he)
              · obtain rfl := List.mem_singleton.mp he
                simp [Entry.await, hnone last (List.mem_of_getLast? hlast), hne]
      | settle outcome =>
          unfold State.perform
          cases hentries : s.entries with
          | nil => exact ⟨hnot, hnone⟩
          | cons e rest =>
              have hfirst := hnone e (by rw [hentries]; exact List.mem_cons_self)
              refine ⟨?_, fun e' he => hnone e' (by rw [hentries]; exact List.mem_cons_of_mem _ he)⟩
              simp [Entry.notices, hnot, hfirst]

theorem caughtUp_mem_notices {e : Entry α τ} {t : τ} {outcome : ω} :
    .caughtUp t ∈ e.notices outcome ↔ t ∈ e.waiters := by
  simp [Entry.notices]

/-- A new ticket waits behind everything that is there. -/
theorem State.Fresh.wait {t : τ} (h : s.Fresh t) :
    (s.perform (.wait t)).Behind t s.entries.length := by
  obtain ⟨hnot, hnone⟩ := h
  cases hlast : s.entries.getLast? with
  | none =>
      have hnil : s.entries = [] := List.getLast?_eq_none_iff.mp hlast
      have hperform : s.perform (.wait t) = { s with notices := s.notices ++ [.caughtUp t] } := by
        unfold State.perform
        rw [hlast]
      rw [hperform]
      refine ⟨Nat.le_refl _, ?_, ?_⟩
      · intro i e he
        rw [hnil] at he
        cases he
      · simp [hnil]
  | some last =>
      have hperform : s.perform (.wait t) =
          { s with entries := s.entries.dropLast ++ [last.await t] } := by
        unfold State.perform
        rw [hlast]
      have hsplit := List.dropLast_append_getLast? last hlast
      have hlength : s.entries.length = s.entries.dropLast.length + 1 := by
        conv_lhs => rw [← hsplit]
        simp
      rw [hperform]
      refine ⟨?_, ?_, ?_⟩
      · simp only [List.length_append, List.length_singleton]
        omega
      · intro i e he
        rw [List.getElem?_append] at he
        split at he
        · rename_i hi
          have hmem := List.dropLast_subset _ (List.mem_of_getElem? he)
          have hne : i + 1 ≠ s.entries.length := by omega
          simp [hnone e hmem, hne]
        · rename_i hi
          obtain ⟨hlt, rfl⟩ := List.getElem?_eq_some_iff.mp he
          simp only [List.length_singleton] at hlt
          have heq : i + 1 = s.entries.length := by omega
          simp [Entry.await, heq]
      · have hpos : s.entries.length ≠ 0 := by omega
        simp [hnot, hpos]

/-- Each item that is settled brings it one entry forward. -/
theorem State.Behind.perform {t : τ} {n : Nat} (h : s.Behind t n) {op : Op α τ ω}
    (hop : op ≠ .wait t) :
    (s.perform op).Behind t
      (n - ((settled (s.perform op).notices).length - (settled s.notices).length)) := by
  obtain ⟨hle, hwaits, htold⟩ := h
  cases op with
  | submit item ticket =>
      rw [show (s.perform (.submit item ticket)).notices = s.notices from rfl, Nat.sub_self]
      refine ⟨?_, ?_, htold⟩
      · show n ≤ (s.entries ++ [_]).length
        simp only [List.length_append]
        omega
      · intro i e he
        rw [show (s.perform (.submit item ticket)).entries =
            s.entries ++ [⟨item, ticket, []⟩] from rfl,
          List.getElem?_append] at he
        split at he
        · exact hwaits i e he
        · obtain ⟨-, rfl⟩ := List.getElem?_eq_some_iff.mp he
          simp only [List.getElem_singleton, List.not_mem_nil, false_iff]
          omega
  | wait ticket =>
      have hne : t ≠ ticket := by
        rintro rfl
        exact hop rfl
      cases hlast : s.entries.getLast? with
      | none =>
          have hperform : s.perform (.wait ticket) =
              { s with notices := s.notices ++ [.caughtUp ticket] } := by
            unfold State.perform
            rw [hlast]
          rw [hperform]
          simp only [settled_append]
          refine ⟨?_, ?_, ?_⟩
          · simp [settled]
            omega
          · simpa [settled] using hwaits
          · simpa [settled, hne] using htold
      | some last =>
          have hperform : s.perform (.wait ticket) =
              { s with entries := s.entries.dropLast ++ [last.await ticket] } := by
            unfold State.perform
            rw [hlast]
          have hsplit := List.dropLast_append_getLast? last hlast
          rw [hperform, Nat.sub_self]
          refine ⟨?_, ?_, htold⟩
          · rw [← hsplit] at hle
            simpa using hle
          · intro i e he
            rw [List.getElem?_append] at he
            split at he
            · rename_i hi
              refine hwaits i e ?_
              rw [← hsplit, List.getElem?_append, if_pos hi]
              exact he
            · rename_i hi
              obtain ⟨hlt, rfl⟩ := List.getElem?_eq_some_iff.mp he
              have hthis := hwaits i last (by
                rw [← hsplit, List.getElem?_append, if_neg hi]
                simp only [List.length_singleton] at hlt
                rw [show i - s.entries.dropLast.length = 0 by omega]
                rfl)
              simpa [Entry.await, hne] using hthis
  | settle outcome =>
      cases hentries : s.entries with
      | nil =>
          have hsame : s.perform (.settle outcome) = s := by
            unfold State.perform
            rw [hentries]
          rw [hsame, Nat.sub_self]
          exact ⟨hle, hwaits, htold⟩
      | cons e rest =>
          have hperform : s.perform (.settle outcome) = ⟨rest, s.notices ++ e.notices outcome⟩ := by
            unfold State.perform
            rw [hentries]
          have hcount : (settled (s.notices ++ e.notices outcome)).length - (settled s.notices).length
              = 1 := by
            rw [settled_append, settled_notices, List.length_append, List.length_singleton]
            omega
          rw [hperform, hcount]
          rw [hentries] at hle hwaits
          have hfirst := hwaits 0 e rfl
          refine ⟨?_, ?_, ?_⟩
          · simp only [List.length_cons] at hle ⊢
            omega
          · intro i e' he
            rw [hwaits (i + 1) e' he]
            omega
          · rw [List.mem_append, htold, caughtUp_mem_notices, hfirst]
            omega

theorem settled_length_le (s : State α τ ω) (op : Op α τ ω) :
    (settled s.notices).length ≤ (settled (s.perform op).notices).length := by
  have happend : ∃ ns, (s.perform op).notices = s.notices ++ ns := by
    cases op with
    | submit item ticket => exact ⟨[], (List.append_nil _).symm⟩
    | wait ticket =>
        unfold State.perform
        cases s.entries.getLast? with
        | none => exact ⟨_, rfl⟩
        | some e => exact ⟨[], (List.append_nil _).symm⟩
    | settle outcome =>
        unfold State.perform
        cases s.entries with
        | nil => exact ⟨[], (List.append_nil _).symm⟩
        | cons e rest => exact ⟨_, rfl⟩
  obtain ⟨ns, hns⟩ := happend
  rw [hns, settled_append, List.length_append]
  omega

theorem State.Behind.run {t : τ} {n : Nat} (h : s.Behind t n) {ops : List (Op α τ ω)}
    (hops : ∀ op ∈ ops, op ≠ .wait t) :
    (settled s.notices).length ≤ (settled (s.run ops).notices).length
      ∧ (s.run ops).Behind t
        (n - ((settled (s.run ops).notices).length - (settled s.notices).length)) := by
  induction ops generalizing s n with
  | nil =>
      refine ⟨Nat.le_refl _, ?_⟩
      rw [show s.run [] = s from rfl, Nat.sub_self]
      exact h
  | cons op ops ih =>
      have hfirst := h.perform (hops op List.mem_cons_self)
      obtain ⟨hle, hrest⟩ := ih hfirst fun op' h' => hops op' (List.mem_cons_of_mem _ h')
      have hmono := settled_length_le s op
      rw [show s.run (op :: ops) = (s.perform op).run ops from rfl]
      refine ⟨Nat.le_trans hmono hle, ?_⟩
      convert hrest using 1
      omega

/-- The rule for who waits. -/
theorem caughtUp_iff {t : τ} (h : s.Fresh t) {ops : List (Op α τ ω)}
    (hops : ∀ op ∈ ops, op ≠ .wait t) :
    .caughtUp t ∈ ((s.perform (.wait t)).run ops).notices ↔
      (settled s.notices).length + s.entries.length ≤
        (settled ((s.perform (.wait t)).run ops).notices).length := by
  have hsame : (settled (s.perform (.wait t)).notices).length = (settled s.notices).length := by
    unfold State.perform
    cases s.entries.getLast? with
    | none => simp [settled]
    | some e => rfl
  obtain ⟨hle, hbehind⟩ := h.wait.run hops
  rw [hbehind.told]
  omega

end Outbox
