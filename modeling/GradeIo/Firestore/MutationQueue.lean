import Mathlib.Data.List.Sort
import Std.Data.ExtTreeSet.Lemmas
import GradeIo.Firestore.Mutation
import GradeIo.Lib.RangeScan

/-!
# The mutation queue

`memory_mutation_queue.cc`: the pending batches in the order in which they were
written, with consecutive ids, and a sorted index of the documents that each of
them concerns. A batch leaves the queue at the front, and `none` stands for a
failed assertion.

`Inv` holds in every state that the client can bring the queue into
(`Reachable.inv`). Under it no question about the queue fails, and the answers
that are looked up in the index are those of a scan of all batches
(`Inv.affectingDocumentKey`, `Inv.affectingDocumentKeys`, `Inv.affectingQuery`).
-/

namespace GradeIo.Firestore

open RangeScan

/-! ## References -/

structure DocumentKeyReference where
  key : DocumentKey
  refId : Int
deriving DecidableEq

namespace DocumentKeyReference

/-- By key, then by id. -/
def byKey : DocumentKeyReference → DocumentKeyReference → Ordering :=
  compareLex (compareOn key) (compareOn refId)

instance : Std.TransCmp byKey :=
  inferInstanceAs (Std.TransCmp (compareLex (compareOn key) (compareOn refId)))

instance : Std.LawfulEqCmp byKey where
  compare_self {_} := @Std.ReflCmp.compare_self _ byKey inferInstance _
  eq_of_compare {a b} h := by
    obtain ⟨hkey, hid⟩ := compareLex_eq_eq.mp h
    have hk : a.key = b.key := Std.LawfulEqCmp.eq_of_compare hkey
    have hi : a.refId = b.refId := Std.LawfulEqCmp.eq_of_compare hid
    cases a
    cases b
    exact congrArg₂ mk hk hi

end DocumentKeyReference

abbrev ReferenceSet := Std.ExtTreeSet DocumentKeyReference DocumentKeyReference.byKey

/-- The values from `start` on, as long as they satisfy `p`. -/
def ReferenceSet.scanFrom (s : ReferenceSet) (start : DocumentKeyReference)
    (p : DocumentKeyReference → Bool) : List DocumentKeyReference :=
  scan (fun r => DocumentKeyReference.byKey r start == .lt) p s.toList

structure MemoryMutationQueue where
  queue : List MutationBatch
  /-- An `int32_t` there: ids are taken not to run out. -/
  nextBatchId : Int
  batchesByDocumentKey : ReferenceSet

namespace MemoryMutationQueue

def initial : MemoryMutationQueue := ⟨[], 1, ∅⟩

def isEmpty (q : MemoryMutationQueue) : Bool := q.queue.isEmpty

def start (q : MemoryMutationQueue) : MemoryMutationQueue :=
  if q.isEmpty then { q with nextBatchId := 1 } else q

/-- Verifies that the batch is the front of the queue. -/
def acknowledgeBatch (q : MemoryMutationQueue) (batch : MutationBatch) :
    Option MemoryMutationQueue :=
  match q.queue with
  | [] => none
  | check :: _ => if batch.batchId = check.batchId then some q else none

def references (batch : MutationBatch) : List DocumentKeyReference :=
  batch.mutations.map fun m => ⟨m.key, batch.batchId⟩

def addMutationBatch (q : MemoryMutationQueue) (mutations : List Mutation) :
    Option (MutationBatch × MemoryMutationQueue) :=
  if mutations.isEmpty then none
  else if (q.queue.getLast?.all fun prior => decide (prior.batchId < q.nextBatchId)) then
    let batch : MutationBatch := ⟨q.nextBatchId, mutations⟩
    some (batch, ⟨q.queue ++ [batch], q.nextBatchId + 1,
      (references batch).foldl (fun s r => s.insert r) q.batchesByDocumentKey⟩)
  else none

def removeMutationBatch (q : MemoryMutationQueue) (batch : MutationBatch) :
    Option MemoryMutationQueue :=
  match q.queue with
  | [] => none
  | head :: rest =>
      if head.batchId = batch.batchId then
        some ⟨rest, q.nextBatchId,
          (references batch).foldl (fun s r => s.erase r) q.batchesByDocumentKey⟩
      else none

def indexOfBatchId (q : MemoryMutationQueue) (batchId : Int) : Int :=
  match q.queue with
  | [] => 0
  | first :: _ => batchId - first.batchId

/-- `some none` if there is no such batch. -/
def lookupMutationBatch (q : MemoryMutationQueue) (batchId : Int) :
    Option (Option MutationBatch) :=
  if q.queue.isEmpty then some none
  else
    let index := q.indexOfBatchId batchId
    if index < 0 || (q.queue.length : Int) ≤ index then some none
    else
      match q.queue[index.toNat]? with
      | none => none
      | some batch => if batch.batchId = batchId then some (some batch) else none

def nextMutationBatchAfterBatchId (q : MemoryMutationQueue) (batchId : Int) :
    Option MutationBatch :=
  let rawIndex := q.indexOfBatchId (batchId + 1)
  let index := if rawIndex < 0 then 0 else rawIndex.toNat
  q.queue[index]?

def getHighestUnacknowledgedBatchId (q : MemoryMutationQueue) : Int :=
  if q.isEmpty then -1 else q.nextBatchId - 1

def allMutationBatchesWithIds (q : MemoryMutationQueue) (ids : Std.ExtTreeSet Int compare) :
    Option (List MutationBatch) :=
  (ids.toList.mapM q.lookupMutationBatch).map fun batches => batches.filterMap id

def insertIds (ids : Std.ExtTreeSet Int compare) (rs : List DocumentKeyReference) :
    Std.ExtTreeSet Int compare :=
  rs.foldl (fun ids r => ids.insert r.refId) ids

def referencesOfKey (q : MemoryMutationQueue) (key : DocumentKey) : List DocumentKeyReference :=
  q.batchesByDocumentKey.scanFrom ⟨key, 0⟩ fun r => key == r.key

def allMutationBatchesAffectingDocumentKeys (q : MemoryMutationQueue) (keys : List DocumentKey) :
    Option (List MutationBatch) :=
  q.allMutationBatchesWithIds
    (keys.foldl (fun ids key => insertIds ids (q.referencesOfKey key)) ∅)

/-- Batches in the index must exist in the main table. -/
def allMutationBatchesAffectingDocumentKey (q : MemoryMutationQueue) (key : DocumentKey) :
    Option (List MutationBatch) :=
  (q.referencesOfKey key).mapM fun r => (q.lookupMutationBatch r.refId).join

/-- For a query of the documents directly below a path. The empty segment comes
before all others. -/
def allMutationBatchesAffectingQuery (q : MemoryMutationQueue) (path : List String) :
    Option (List MutationBatch) :=
  let startPath := if path.length % 2 = 0 then path else path ++ [""]
  let rows := q.batchesByDocumentKey.scanFrom ⟨startPath, 0⟩ fun r => path.isPrefixOf r.key
  q.allMutationBatchesWithIds
    (insertIds ∅ (rows.filter fun r => r.key.length = path.length + 1))

def containsKey (q : MemoryMutationQueue) (key : DocumentKey) : Bool :=
  (q.referencesOfKey key).head?.isSome

/-- Whether the check passes. -/
def performConsistencyCheck (q : MemoryMutationQueue) : Bool :=
  !q.queue.isEmpty || q.batchesByDocumentKey.isEmpty

/-! ## The invariant -/

structure Inv (q : MemoryMutationQueue) : Prop where
  /-- The ids are consecutive and end before the next one. -/
  ids : ∀ (i : Nat) (b : MutationBatch), q.queue[i]? = some b →
    b.batchId = q.nextBatchId - q.queue.length + i
  positive : (q.queue.length : Int) < q.nextBatchId
  nonempty : ∀ b ∈ q.queue, b.mutations ≠ []
  index : ∀ r, r ∈ q.batchesByDocumentKey ↔ ∃ b ∈ q.queue, r ∈ references b

variable {q : MemoryMutationQueue}

theorem mem_references {r : DocumentKeyReference} {b : MutationBatch} :
    r ∈ references b ↔ r.refId = b.batchId ∧ r.key ∈ b.keys := by
  unfold references MutationBatch.keys
  simp only [List.mem_map]
  constructor
  · rintro ⟨m, hm, rfl⟩
    exact ⟨rfl, m, hm, rfl⟩
  · rintro ⟨hid, m, hm, hkey⟩
    exact ⟨m, hm, by cases r; exact congrArg₂ _ hkey hid.symm⟩

theorem mem_foldl_insert {rs : List DocumentKeyReference} {s : ReferenceSet}
    {r : DocumentKeyReference} :
    r ∈ rs.foldl (fun s r => s.insert r) s ↔ r ∈ rs ∨ r ∈ s := by
  induction rs generalizing s with
  | nil => simp
  | cons a rs ih =>
      rw [List.foldl_cons, ih, Std.ExtTreeSet.mem_insert, Std.LawfulEqCmp.compare_eq_iff_eq,
        List.mem_cons]
      grind

theorem mem_foldl_erase {rs : List DocumentKeyReference} {s : ReferenceSet}
    {r : DocumentKeyReference} :
    r ∈ rs.foldl (fun s r => s.erase r) s ↔ r ∉ rs ∧ r ∈ s := by
  induction rs generalizing s with
  | nil => simp
  | cons a rs ih =>
      rw [List.foldl_cons, ih, Std.ExtTreeSet.mem_erase, ne_eq, Std.LawfulEqCmp.compare_eq_iff_eq,
        List.mem_cons]
      grind

namespace Inv

theorem initial : Inv MemoryMutationQueue.initial where
  ids i b h := by simp [MemoryMutationQueue.initial] at h
  positive := by decide
  nonempty := List.forall_mem_nil _
  index r := by simp [MemoryMutationQueue.initial]

theorem id_mem (h : Inv q) {b : MutationBatch} (hb : b ∈ q.queue) :
    q.nextBatchId - q.queue.length ≤ b.batchId ∧ b.batchId < q.nextBatchId := by
  obtain ⟨i, hi⟩ := List.mem_iff_getElem?.mp hb
  have hid := h.ids i b hi
  have hlt := (List.getElem?_eq_some_iff.mp hi).1
  omega

/-- Batches are known by their ids. -/
theorem eq_of_id (h : Inv q) {a b : MutationBatch} (ha : a ∈ q.queue) (hb : b ∈ q.queue)
    (hid : a.batchId = b.batchId) : a = b := by
  obtain ⟨i, hi⟩ := List.mem_iff_getElem?.mp ha
  obtain ⟨j, hj⟩ := List.mem_iff_getElem?.mp hb
  have hai := h.ids i a hi
  have hbj := h.ids j b hj
  obtain rfl : i = j := by omega
  exact Option.some.inj (hi.symm.trans hj)

theorem pairwise (h : Inv q) : q.queue.Pairwise fun a b => a.batchId < b.batchId := by
  rw [List.pairwise_iff_getElem]
  intro i j hi hj hij
  have hai := h.ids i _ (List.getElem?_eq_getElem hi)
  have hbj := h.ids j _ (List.getElem?_eq_getElem hj)
  omega

theorem start (h : Inv q) : Inv q.start := by
  unfold MemoryMutationQueue.start isEmpty
  split
  · rename_i hempty
    have hnil : q.queue = [] := List.isEmpty_iff.mp hempty
    refine ⟨?_, ?_, h.nonempty, h.index⟩
    · intro i b hb
      simp [hnil] at hb
    · simp [hnil]
  · exact h

theorem addMutationBatch (h : Inv q) {ms : List Mutation} (hms : ms ≠ []) :
    ∃ q', q.addMutationBatch ms = some (⟨q.nextBatchId, ms⟩, q')
      ∧ q'.queue = q.queue ++ [⟨q.nextBatchId, ms⟩] ∧ q'.nextBatchId = q.nextBatchId + 1
      ∧ Inv q' := by
  unfold MemoryMutationQueue.addMutationBatch
  have hprior : (q.queue.getLast?.all fun prior => decide (prior.batchId < q.nextBatchId)) = true := by
    rw [Option.all_eq_true]
    intro b hb
    simpa using (h.id_mem (List.mem_of_getLast? hb)).2
  rw [if_neg (by simpa using hms), if_pos hprior]
  refine ⟨_, rfl, rfl, rfl, ?_, ?_, ?_, ?_⟩
  · intro i b hb
    rw [List.getElem?_append] at hb
    simp only [List.length_append, List.length_singleton] at hb ⊢
    split at hb
    · have hid := h.ids i b hb
      omega
    · rename_i hi
      obtain ⟨hlt, rfl⟩ := List.getElem?_eq_some_iff.mp hb
      simp only [List.length_singleton] at hlt
      simp only [List.getElem_singleton]
      omega
  · have := h.positive
    simp only [List.length_append, List.length_singleton]
    omega
  · intro b hb
    rcases List.mem_append.mp hb with hb | hb
    · exact h.nonempty b hb
    · obtain rfl := List.mem_singleton.mp hb
      exact hms
  · intro r
    rw [mem_foldl_insert, h.index]
    simp only [List.mem_append, List.mem_singleton, or_and_right, exists_or, exists_eq_left]
    exact or_comm

/-- Only the front can be removed. -/
theorem removeMutationBatch (h : Inv q) {b : MutationBatch} {rest : List MutationBatch}
    (hq : q.queue = b :: rest) :
    ∃ q', q.removeMutationBatch b = some q' ∧ q'.queue = rest ∧ q'.nextBatchId = q.nextBatchId
      ∧ Inv q' := by
  unfold MemoryMutationQueue.removeMutationBatch
  rw [hq]
  simp only [if_true]
  have hlen : q.queue.length = rest.length + 1 := by rw [hq, List.length_cons]
  refine ⟨_, rfl, rfl, rfl, ?_, ?_, ?_, ?_⟩
  · intro i a ha
    have hid := h.ids (i + 1) a (by rw [hq, List.getElem?_cons_succ]; exact ha)
    simp only
    omega
  · have := h.positive
    simp only
    omega
  · intro a ha
    exact h.nonempty a (by rw [hq]; exact List.mem_cons_of_mem _ ha)
  · intro r
    show r ∈ (references b).foldl (fun s r => s.erase r) q.batchesByDocumentKey ↔ _
    rw [mem_foldl_erase, h.index, hq, List.exists_mem_cons_iff]
    constructor
    · rintro ⟨hnot, hr | hr⟩
      · exact absurd hr hnot
      · exact hr
    · rintro ⟨a, ha, hr⟩
      refine ⟨?_, Or.inr ⟨a, ha, hr⟩⟩
      intro hb
      have hpairwise := h.pairwise
      rw [hq] at hpairwise
      have hlt := (List.pairwise_cons.mp hpairwise).1 a ha
      have hid := (mem_references.mp hr).1.symm.trans (mem_references.mp hb).1
      omega

/-! ### Answers -/

theorem find?_eq (h : Inv q) {b : MutationBatch} (hb : b ∈ q.queue) :
    q.queue.find? (fun a => a.batchId = b.batchId) = some b := by
  cases hf : q.queue.find? (fun a => a.batchId = b.batchId) with
  | none =>
      have hnone := List.find?_eq_none.mp hf b hb
      simp at hnone
  | some a =>
      have hid : a.batchId = b.batchId := by simpa using List.find?_some hf
      rw [h.eq_of_id (List.mem_of_find?_eq_some hf) hb hid]

theorem lookupMutationBatch (h : Inv q) (id : Int) :
    q.lookupMutationBatch id = some (q.queue.find? fun b => b.batchId = id) := by
  unfold MemoryMutationQueue.lookupMutationBatch indexOfBatchId
  cases hq : q.queue with
  | nil => simp
  | cons first rest =>
      have hfirst := h.ids 0 first (by rw [hq]; rfl)
      have hlen : q.queue.length = rest.length + 1 := by rw [hq, List.length_cons]
      simp only [List.isEmpty_cons, Bool.false_eq_true, if_false]
      split
      · rename_i hout
        -- no batch has an id outside the range of the queue
        have hnone : (first :: rest).find? (fun b => decide (b.batchId = id)) = none := by
          rw [List.find?_eq_none]
          intro b hb hid
          have hmem := h.id_mem (b := b) (by rw [hq]; exact hb)
          have hid : b.batchId = id := by simpa using hid
          simp only [List.length_cons, Bool.or_eq_true, decide_eq_true_eq] at hout
          omega
        rw [hnone]
      · rename_i hin
        simp only [List.length_cons, Bool.or_eq_true, decide_eq_true_eq, not_or, not_lt,
          not_le] at hin
        have hlt : (id - first.batchId).toNat < (first :: rest).length := by
          rw [List.length_cons]
          omega
        rw [List.getElem?_eq_getElem hlt]
        simp only
        have hget : q.queue[(id - first.batchId).toNat]? =
            some (first :: rest)[(id - first.batchId).toNat] := by
          rw [hq, List.getElem?_eq_getElem hlt]
        have hid := h.ids _ _ hget
        have hid' : ((first :: rest)[(id - first.batchId).toNat]).batchId = id := by omega
        rw [if_pos hid']
        have hfind := h.find?_eq (List.mem_of_getElem? hget)
        rw [hid', hq] at hfind
        exact congrArg some hfind.symm

/-- Behind an id the queue goes on with the first greater one. -/
theorem nextMutationBatchAfterBatchId (h : Inv q) (id : Int) :
    q.nextMutationBatchAfterBatchId id = q.queue.find? fun b => id < b.batchId := by
  have hfind : ∀ (n : Nat) (l : List MutationBatch),
      (∀ i b, l[i]? = some b → (id < b.batchId ↔ n ≤ i)) →
      l.find? (fun b => id < b.batchId) = l[n]? := by
    intro n l
    induction l generalizing n with
    | nil => simp
    | cons b l ih =>
        intro hl
        have hb := hl 0 b rfl
        cases n with
        | zero => rw [List.find?_cons_of_pos (by simpa using hb), List.getElem?_cons_zero]
        | succ n =>
            rw [List.find?_cons_of_neg (by simpa using hb), List.getElem?_cons_succ]
            refine ih n fun i a ha => ?_
            rw [hl (i + 1) a ha]
            omega
  unfold MemoryMutationQueue.nextMutationBatchAfterBatchId indexOfBatchId
  cases hq : q.queue with
  | nil => rfl
  | cons first rest =>
      have hfirst := h.ids 0 first (by rw [hq]; rfl)
      simp only
      rw [← hq, hfind (if id + 1 - first.batchId < 0 then 0 else (id + 1 - first.batchId).toNat)]
      intro i b hb
      have hid := h.ids i b hb
      split
      · omega
      · omega

/-- Batches of the queue, found by increasing ids, come in the order of the queue. -/
theorem filterMap_find? (h : Inv q) {ids : List Int} (hids : ids.Pairwise (· < ·)) :
    ids.filterMap (fun id => q.queue.find? fun b => b.batchId = id) =
      q.queue.filter fun b => b.batchId ∈ ids := by
  have hanti : Std.Antisymm fun a b : MutationBatch => a.batchId < b.batchId :=
    ⟨fun a b hab hba => absurd hba (by omega)⟩
  have hirrefl : Std.Irrefl fun a b : MutationBatch => a.batchId < b.batchId :=
    ⟨fun a haa => absurd haa (by omega)⟩
  have hfound : ∀ {id b}, q.queue.find? (fun a => a.batchId = id) = some b →
      b ∈ q.queue ∧ b.batchId = id := by
    intro id b hb
    exact ⟨List.mem_of_find?_eq_some hb, by simpa using List.find?_some hb⟩
  refine List.Pairwise.eq_of_mem_iff (r := fun a b => a.batchId < b.batchId) ?_
    (h.pairwise.sublist List.filter_sublist) ?_
  · refine List.Pairwise.filterMap _ ?_ hids
    intro i j hij a ha b hb
    have hai := (hfound ha).2
    have hbj := (hfound hb).2
    omega
  · intro b
    simp only [List.mem_filterMap, List.mem_filter, decide_eq_true_eq]
    constructor
    · rintro ⟨id, hid, hb⟩
      obtain ⟨hmem, rfl⟩ := hfound hb
      exact ⟨hmem, hid⟩
    · rintro ⟨hmem, hid⟩
      exact ⟨b.batchId, hid, h.find?_eq hmem⟩

theorem mapM_some {α β : Type} (f : α → β) (l : List α) :
    l.mapM (fun a => some (f a)) = some (l.map f) := by
  induction l with
  | nil => rfl
  | cons a l ih => simp [List.mapM_cons, ih]

theorem allMutationBatchesWithIds (h : Inv q) (ids : Std.ExtTreeSet Int compare) :
    q.allMutationBatchesWithIds ids = some (q.queue.filter fun b => b.batchId ∈ ids) := by
  have hsorted : ids.toList.Pairwise (· < ·) := by
    refine ids.ordered_toList.imp ?_
    intro a b hab
    exact compare_lt_iff_lt.mp hab
  have hlookup : q.lookupMutationBatch =
      fun id => some (q.queue.find? fun b => b.batchId = id) := funext h.lookupMutationBatch
  unfold MemoryMutationQueue.allMutationBatchesWithIds
  rw [hlookup, mapM_some, Option.map_some, List.filterMap_map]
  have hfind := h.filterMap_find? hsorted
  simp only [Std.ExtTreeSet.mem_toList] at hfind
  exact congrArg some hfind

/-! ### The index -/

theorem lt_iff {a b : DocumentKeyReference} : DocumentKeyReference.byKey a b = .lt ↔
    compare a.key b.key = .lt ∨ (a.key = b.key ∧ a.refId < b.refId) := by
  unfold DocumentKeyReference.byKey compareLex compareOn
  rw [Ordering.then_eq_lt, Std.LawfulEqCmp.compare_eq_iff_eq, compare_lt_iff_lt]

theorem refId_pos (h : Inv q) {r : DocumentKeyReference} (hr : r ∈ q.batchesByDocumentKey) :
    0 < r.refId := by
  obtain ⟨b, hb, hrb⟩ := (h.index r).mp hr
  have hid := (mem_references.mp hrb).1
  have hmem := h.id_mem hb
  have hpos := h.positive
  omega

theorem compare_key_self (k : DocumentKey) : compare k k ≠ .lt := by
  have heq : compare k k = .eq := Std.ReflCmp.compare_self
  rw [heq]
  decide

theorem byKey_trans {a b c : DocumentKeyReference} (hab : DocumentKeyReference.byKey a b = .lt)
    (hbc : (DocumentKeyReference.byKey b c == .lt) = true) :
    (DocumentKeyReference.byKey a c == .lt) = true := by
  rw [beq_iff_eq] at hbc ⊢
  exact Std.TransCmp.lt_trans hab hbc

theorem referencesOfKey (h : Inv q) (key : DocumentKey) :
    q.referencesOfKey key = q.batchesByDocumentKey.toList.filter fun r => key == r.key := by
  refine scan_eq_filter Std.ExtTreeSet.ordered_toList ?_ ?_ ?_
  · exact fun a _ b _ hab hb => byKey_trans hab hb
  · intro a _ b _ hstart hab hb
    rw [beq_iff_eq] at hb ⊢
    subst hb
    rcases lt_iff.mp hab with hlt | ⟨heq, -⟩
    · rw [beq_eq_false_iff_ne, ne_eq, lt_iff] at hstart
      exact absurd (Or.inl hlt) hstart
    · exact heq.symm
  · intro a ha hbefore
    rw [beq_iff_eq] at hbefore
    rw [beq_eq_false_iff_ne]
    rintro rfl
    have hpos := h.refId_pos (Std.ExtTreeSet.mem_toList.mp ha)
    rcases lt_iff.mp hbefore with hlt | ⟨-, hlt⟩
    · exact absurd hlt (compare_key_self a.key)
    · simp only at hlt
      omega

theorem mem_index (h : Inv q) {r : DocumentKeyReference} : r ∈ q.batchesByDocumentKey ↔
    ∃ b ∈ q.queue, r.refId = b.batchId ∧ r.key ∈ b.keys := by
  rw [h.index]
  simp only [mem_references]

/-- The batches of a document, without a failed assertion. -/
theorem affectingDocumentKey (h : Inv q) (key : DocumentKey) :
    q.allMutationBatchesAffectingDocumentKey key =
      some (q.queue.filter fun b => key ∈ b.keys) := by
  have hmem : ∀ r ∈ q.referencesOfKey key, ∃ b ∈ q.queue, r.refId = b.batchId ∧ key ∈ b.keys := by
    intro r hr
    rw [h.referencesOfKey, List.mem_filter, Std.ExtTreeSet.mem_toList, beq_iff_eq] at hr
    obtain ⟨hr, rfl⟩ := hr
    exact h.mem_index.mp hr
  have hsorted : ((q.referencesOfKey key).map DocumentKeyReference.refId).Pairwise (· < ·) := by
    rw [h.referencesOfKey, List.pairwise_map, List.pairwise_filter]
    refine Std.ExtTreeSet.ordered_toList.imp ?_
    intro a b hab ha hb
    rw [beq_iff_eq] at ha hb
    rcases lt_iff.mp hab with hlt | ⟨-, hlt⟩
    · rw [← ha, ← hb] at hlt
      exact absurd hlt (compare_key_self key)
    · exact hlt
  have hlookup : ∀ l : List DocumentKeyReference,
      (∀ r ∈ l, ∃ b ∈ q.queue, r.refId = b.batchId ∧ key ∈ b.keys) →
      l.mapM (fun r => (q.lookupMutationBatch r.refId).join) =
        some ((l.map DocumentKeyReference.refId).filterMap fun id =>
          q.queue.find? fun b => b.batchId = id) := by
    intro l
    induction l with
    | nil => exact fun _ => rfl
    | cons r l ih =>
        intro hl
        obtain ⟨b, hb, hid, -⟩ := hl r List.mem_cons_self
        have hfind : q.queue.find? (fun a => a.batchId = r.refId) = some b := by
          rw [hid]
          exact h.find?_eq hb
        rw [List.mapM_cons, ih fun r hr => hl r (List.mem_cons_of_mem _ hr),
          h.lookupMutationBatch, hfind, List.map_cons, List.filterMap_cons, hfind]
        rfl
  unfold MemoryMutationQueue.allMutationBatchesAffectingDocumentKey
  rw [hlookup _ hmem, h.filterMap_find? hsorted]
  congr 1
  refine List.filter_congr fun b hb => ?_
  rw [decide_eq_decide, List.mem_map]
  constructor
  · rintro ⟨r, hr, hid⟩
    obtain ⟨b', hb', hid', hkey⟩ := hmem r hr
    rw [h.eq_of_id hb hb' (hid.symm.trans hid')]
    exact hkey
  · intro hkey
    refine ⟨⟨key, b.batchId⟩, ?_, rfl⟩
    rw [h.referencesOfKey, List.mem_filter, Std.ExtTreeSet.mem_toList]
    exact ⟨h.mem_index.mpr ⟨b, hb, rfl, hkey⟩, by simp⟩

theorem mem_insertIds {ids : Std.ExtTreeSet Int compare} {rs : List DocumentKeyReference}
    {id : Int} : id ∈ insertIds ids rs ↔ id ∈ ids ∨ ∃ r ∈ rs, r.refId = id := by
  unfold insertIds
  induction rs generalizing ids with
  | nil => simp
  | cons r rs ih =>
      rw [List.foldl_cons, ih, Std.ExtTreeSet.mem_insert, Std.LawfulEqCmp.compare_eq_iff_eq,
        List.exists_mem_cons_iff]
      grind

/-- The batches of several documents. -/
theorem affectingDocumentKeys (h : Inv q) (keys : List DocumentKey) :
    q.allMutationBatchesAffectingDocumentKeys keys =
      some (q.queue.filter fun b => ∃ key ∈ keys, key ∈ b.keys) := by
  have hmem : ∀ (keys : List DocumentKey) (ids : Std.ExtTreeSet Int compare) (id : Int),
      id ∈ keys.foldl (fun ids key => insertIds ids (q.referencesOfKey key)) ids ↔
        id ∈ ids ∨ ∃ key ∈ keys, ∃ r ∈ q.referencesOfKey key, r.refId = id := by
    intro keys
    induction keys with
    | nil => simp
    | cons key keys ih =>
        intro ids id
        rw [List.foldl_cons, ih, mem_insertIds, List.exists_mem_cons_iff, or_assoc]
  unfold MemoryMutationQueue.allMutationBatchesAffectingDocumentKeys
  rw [h.allMutationBatchesWithIds]
  congr 1
  refine List.filter_congr fun b hb => ?_
  rw [decide_eq_decide, hmem]
  constructor
  · rintro (hempty | ⟨key, hkey, r, hr, hid⟩)
    · simp at hempty
    · rw [h.referencesOfKey, List.mem_filter, Std.ExtTreeSet.mem_toList, beq_iff_eq] at hr
      obtain ⟨hr, rfl⟩ := hr
      obtain ⟨b', hb', hid', hmem'⟩ := h.mem_index.mp hr
      exact ⟨r.key, hkey, h.eq_of_id hb hb' (hid.symm.trans hid') ▸ hmem'⟩
  · rintro ⟨key, hkey, hmem'⟩
    refine Or.inr ⟨key, hkey, ⟨key, b.batchId⟩, ?_, rfl⟩
    rw [h.referencesOfKey, List.mem_filter, Std.ExtTreeSet.mem_toList]
    exact ⟨h.mem_index.mpr ⟨b, hb, rfl, hmem'⟩, by simp⟩

theorem compare_cons (x y : String) (p q : List String) :
    compare (x :: p) (y :: q) = (compare x y).then (compare p q) :=
  List.compareLex_cons_cons

/-- The paths that begin with one lie together. -/
theorem prefix_of_between {p s k e : List String} (hs : p <+: s) (he : p <+: e)
    (hsk : compare k s ≠ .lt) (hke : compare k e ≠ .gt) : p <+: k := by
  induction p generalizing s k e with
  | nil => exact List.nil_prefix
  | cons x p ih =>
      obtain ⟨s, rfl⟩ := hs
      obtain ⟨e, rfl⟩ := he
      cases k with
      | nil => exact absurd rfl hsk
      | cons y k =>
          rw [List.cons_append, compare_cons] at hsk hke
          cases hyx : compare y x with
          | lt =>
              rw [hyx] at hsk
              exact absurd rfl hsk
          | gt =>
              rw [hyx] at hke
              exact absurd rfl hke
          | eq =>
              rw [hyx] at hsk hke
              obtain rfl := Std.LawfulEqCmp.eq_of_compare hyx
              exact List.cons_prefix_cons.mpr ⟨rfl,
                ih (List.prefix_append p s) (List.prefix_append p e) hsk hke⟩

/-- Nothing below a path comes before the start of its scan. -/
theorem start_le {p k : List String} (hp : p <+: k) (hlen : k.length = p.length + 1) :
    compare k (if p.length % 2 = 0 then p else p ++ [""]) ≠ .lt := by
  obtain ⟨t, rfl⟩ := hp
  obtain ⟨x, rfl⟩ := List.length_eq_one_iff.mp (show t.length = 1 by simpa using hlen)
  have happend : ∀ (p a b : List String), compare (p ++ a) (p ++ b) = compare a b := by
    intro p a b
    induction p with
    | nil => rfl
    | cons y p ih =>
        have heq : compare y y = .eq := Std.ReflCmp.compare_self
        rw [List.cons_append, List.cons_append, compare_cons, heq, ih]
        rfl
  split
  · have hnil := happend p [x] []
    rw [List.append_nil] at hnil
    rw [hnil]
    intro hlt
    cases hlt
  · rw [happend, compare_cons]
    cases hx : compare x "" with
    | lt =>
        have hlt := String.lt_iff_toList_lt.mp (compare_lt_iff_lt.mp hx)
        simp at hlt
    | eq => decide
    | gt => decide

/-- The batches of the documents directly below a path. -/
theorem affectingQuery (h : Inv q) (path : List String) :
    q.allMutationBatchesAffectingQuery path =
      some (q.queue.filter fun b => ∃ key ∈ b.keys, path <+: key ∧ key.length = path.length + 1) := by
  unfold MemoryMutationQueue.allMutationBatchesAffectingQuery ReferenceSet.scanFrom
  simp only
  rw [filter_scan Std.ExtTreeSet.ordered_toList, h.allMutationBatchesWithIds]
  · congr 1
    refine List.filter_congr fun b hb => ?_
    rw [decide_eq_decide, mem_insertIds]
    simp only [List.mem_filter, Std.ExtTreeSet.mem_toList, Bool.and_eq_true, decide_eq_true_eq,
      List.isPrefixOf_iff_prefix]
    constructor
    · rintro (hempty | ⟨r, ⟨hr, hlen, hpre⟩, hid⟩)
      · simp at hempty
      · obtain ⟨b', hb', hid', hmem'⟩ := h.mem_index.mp hr
        exact ⟨r.key, h.eq_of_id hb hb' (hid.symm.trans hid') ▸ hmem', hpre, hlen⟩
    · rintro ⟨key, hmem', hpre, hlen⟩
      exact Or.inr ⟨⟨key, b.batchId⟩, ⟨h.mem_index.mpr ⟨b, hb, rfl, hmem'⟩, hlen, hpre⟩, rfl⟩
  · exact fun a _ b _ hab hb => byKey_trans hab hb
  · intro a _ b _ hstart hab hb
    rw [List.isPrefixOf_iff_prefix] at hb ⊢
    rw [beq_eq_false_iff_ne, ne_eq, lt_iff] at hstart
    have hpre : path <+: if path.length % 2 = 0 then path else path ++ [""] := by
      split
      · exact List.prefix_refl path
      · exact List.prefix_append path [""]
    refine prefix_of_between hpre hb (fun hlt => hstart (Or.inl hlt)) ?_
    rcases lt_iff.mp hab with hlt | ⟨heq, -⟩
    · rw [hlt]
      decide
    · have hself : compare b.key b.key = .eq := Std.ReflCmp.compare_self
      rw [heq, hself]
      decide
  · intro a ha hbefore
    rw [beq_iff_eq] at hbefore
    have hpos := h.refId_pos (Std.ExtTreeSet.mem_toList.mp ha)
    rw [← Bool.not_eq_true, Bool.and_eq_true, decide_eq_true_eq, List.isPrefixOf_iff_prefix]
    rintro ⟨hlen, hpre⟩
    rcases lt_iff.mp hbefore with hlt | ⟨-, hlt⟩
    · exact start_le hpre hlen hlt
    · simp only at hlt
      omega

theorem containsKey (h : Inv q) (key : DocumentKey) :
    q.containsKey key = true ↔ ∃ b ∈ q.queue, key ∈ b.keys := by
  unfold MemoryMutationQueue.containsKey
  rw [List.isSome_head?, ne_eq, List.eq_nil_iff_forall_not_mem, h.referencesOfKey]
  simp only [List.mem_filter, Std.ExtTreeSet.mem_toList, beq_iff_eq, not_forall, not_not]
  constructor
  · rintro ⟨r, hr, rfl⟩
    obtain ⟨b, hb, -, hkey⟩ := h.mem_index.mp hr
    exact ⟨b, hb, hkey⟩
  · rintro ⟨b, hb, hkey⟩
    exact ⟨⟨key, b.batchId⟩, h.mem_index.mpr ⟨b, hb, rfl, hkey⟩, rfl⟩

theorem performConsistencyCheck (h : Inv q) : q.performConsistencyCheck = true := by
  unfold MemoryMutationQueue.performConsistencyCheck
  cases hq : q.queue with
  | nil =>
      have hempty : q.batchesByDocumentKey = ∅ := by
        refine Std.ExtTreeSet.ext_mem fun r => ?_
        rw [h.index, hq]
        simp
      rw [hempty]
      rfl
  | cons b rest => rfl

end Inv

/-! ## All runs -/

/-- What the client does with a queue. A batch that is removed comes from the
queue: nothing else of it than its id is compared. -/
inductive Reachable : MemoryMutationQueue → Prop
  | initial : Reachable initial
  | start {q : MemoryMutationQueue} : Reachable q → Reachable q.start
  | add {q q' : MemoryMutationQueue} {ms : List Mutation} {b : MutationBatch} :
      Reachable q → q.addMutationBatch ms = some (b, q') → Reachable q'
  | acknowledge {q q' : MemoryMutationQueue} {b : MutationBatch} :
      Reachable q → q.acknowledgeBatch b = some q' → Reachable q'
  | remove {q q' : MemoryMutationQueue} {b : MutationBatch} :
      Reachable q → b ∈ q.queue → q.removeMutationBatch b = some q' → Reachable q'

theorem Reachable.inv (h : Reachable q) : Inv q := by
  induction h with
  | initial => exact Inv.initial
  | start _ ih => exact ih.start
  | @add q q' ms b _ hadd ih =>
      have hms : ms ≠ [] := by
        rintro rfl
        cases hadd
      obtain ⟨q'', hadd', -, -, hinv⟩ := ih.addMutationBatch hms
      obtain ⟨-, rfl⟩ := Prod.mk.inj (Option.some.inj (hadd.symm.trans hadd'))
      exact hinv
  | @acknowledge q q' b _ hack ih =>
      unfold acknowledgeBatch at hack
      split at hack
      · cases hack
      · split at hack
        · obtain rfl := Option.some.inj hack
          exact ih
        · cases hack
  | @remove q q' b _ hb hremove ih =>
      cases hq : q.queue with
      | nil =>
          rw [hq] at hb
          cases hb
      | cons head rest =>
          have hid : head.batchId = b.batchId := by
            unfold removeMutationBatch at hremove
            rw [hq] at hremove
            simp only at hremove
            split at hremove
            · assumption
            · cases hremove
          have hhead : head ∈ q.queue := by
            rw [hq]
            exact List.mem_cons_self
          obtain rfl := ih.eq_of_id hhead hb hid
          obtain ⟨q'', hremove', -, -, hinv⟩ := ih.removeMutationBatch hq
          obtain rfl := Option.some.inj (hremove.symm.trans hremove')
          exact hinv

/-- However the queue has come about, a batch is found by its id and behind an
id, the batches of some documents and of a query are those that a scan of the
whole queue finds, in its order, and no assertion fails. -/
theorem Reachable.every_query (h : Reachable q) :
    (∀ id, q.lookupMutationBatch id = some (q.queue.find? fun b => b.batchId = id))
      ∧ (∀ id, q.nextMutationBatchAfterBatchId id = q.queue.find? fun b => id < b.batchId)
      ∧ (∀ key, q.allMutationBatchesAffectingDocumentKey key =
          some (q.queue.filter fun b => key ∈ b.keys))
      ∧ (∀ keys, q.allMutationBatchesAffectingDocumentKeys keys =
          some (q.queue.filter fun b => ∃ key ∈ keys, key ∈ b.keys))
      ∧ (∀ path, q.allMutationBatchesAffectingQuery path =
          some (q.queue.filter fun b => ∃ key ∈ b.keys, path <+: key ∧ key.length = path.length + 1))
      ∧ (∀ key, q.containsKey key = true ↔ ∃ b ∈ q.queue, key ∈ b.keys)
      ∧ q.performConsistencyCheck = true :=
  ⟨h.inv.lookupMutationBatch, h.inv.nextMutationBatchAfterBatchId, h.inv.affectingDocumentKey,
    h.inv.affectingDocumentKeys, h.inv.affectingQuery, h.inv.containsKey,
    h.inv.performConsistencyCheck⟩

/-- Two classes are deleted together, then one of them and, when the first batch
is gone, the other. -/
theorem Reachable.every_query_classes :
    ∃ (b₁ b₂ b₃ : MutationBatch) (q₁ q₂ q₃ q : MemoryMutationQueue),
      MemoryMutationQueue.initial.addMutationBatch
          [.delete ["Class", "home"] .none, .delete ["Class", "art"] .none] = some (b₁, q₁)
      ∧ q₁.addMutationBatch [.delete ["Class", "art"] .none] = some (b₂, q₂)
      ∧ q₂.removeMutationBatch b₁ = some q₃
      ∧ q₃.addMutationBatch [.delete ["Class", "home"] .none] = some (b₃, q)
      ∧ q.lookupMutationBatch b₁.batchId = some none
      ∧ q.lookupMutationBatch b₃.batchId = some (some b₃)
      ∧ q.nextMutationBatchAfterBatchId b₂.batchId = some b₃
      ∧ q.allMutationBatchesAffectingDocumentKey ["Class", "art"] = some [b₂]
      ∧ q.allMutationBatchesAffectingDocumentKeys [["Class", "home"], ["Class", "art"]] =
          some [b₂, b₃]
      ∧ q.allMutationBatchesAffectingQuery ["Class"] = some [b₂, b₃]
      ∧ q.containsKey ["Class", "gym"] = false := by
  let home : Mutation := .delete ["Class", "home"] .none
  let art : Mutation := .delete ["Class", "art"] .none
  obtain ⟨q₁, h₁, hqueue₁, hnext₁, hinv₁⟩ : ∃ q₁, MemoryMutationQueue.initial.addMutationBatch
        [home, art] = some (⟨1, [home, art]⟩, q₁)
      ∧ q₁.queue = [⟨1, [home, art]⟩] ∧ q₁.nextBatchId = 2 ∧ Inv q₁ :=
    Inv.initial.addMutationBatch (List.cons_ne_nil home [art])
  obtain ⟨q₂, h₂, hqueue₂, hnext₂, hinv₂⟩ := hinv₁.addMutationBatch (List.cons_ne_nil art [])
  rw [hnext₁] at h₂ hqueue₂ hnext₂
  rw [hqueue₁] at hqueue₂
  obtain ⟨q₃, h₃, hqueue₃, hnext₃, hinv₃⟩ := hinv₂.removeMutationBatch hqueue₂
  rw [hnext₂] at hnext₃
  obtain ⟨q, h, hqueue, -, -⟩ := hinv₃.addMutationBatch (List.cons_ne_nil home [])
  rw [hnext₃] at h hqueue
  have hqueue : q.queue = [⟨2, [art]⟩, ⟨3, [home]⟩] := by
    rw [hqueue, hqueue₃]
    rfl
  have hfront : ⟨1, [home, art]⟩ ∈ q₂.queue := by
    rw [hqueue₂]
    exact List.mem_cons_self
  obtain ⟨hlookup, hafter, hkey, hkeys, hquery, hcontains, -⟩ :=
    Reachable.every_query (.add (.remove (.add (.add .initial h₁) h₂) hfront h₃) h)
  simp only [hqueue] at hlookup hafter hkey hkeys hquery hcontains
  refine ⟨_, _, _, q₁, q₂, q₃, q, h₁, h₂, h₃, h, (hlookup 1).trans rfl, (hlookup 3).trans rfl,
    (hafter 2).trans rfl, (hkey _).trans rfl, (hkeys _).trans rfl, (hquery _).trans rfl, ?_⟩
  rw [← Bool.not_eq_true, hcontains]
  decide

end MemoryMutationQueue

end GradeIo.Firestore
