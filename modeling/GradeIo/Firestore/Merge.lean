import GradeIo.Firestore.Latency
import GradeIo.Firestore.UserData

/-!
# What a merge means

A merge is a tree of dictionaries; its leaves (`fieldLeaves`) are what it asks
for: a value at a path, a deletion, or a transform. The walk of `parseData`
sorts the leaves into object, mask and transforms (`Collects`), and applying the
mutations that are made of these does for every leaf what it asks for and
nothing else (`Carries`).

The keys of a dictionary are distinct. So no leaf lies on the way to another
one, and the order in which the mask and the transforms are worked off does not
matter.
-/

namespace GradeIo.Firestore

open DocDb

/-! ## Leaves -/

inductive Request where
  | set (v : Value)
  | clear
  | transform (op : TransformOperation)

namespace Request

/-- What is at the path of a request that is carried out. -/
def result : Request → Option Value → Option Value
  | set v, _ => some v
  | clear, _ => none
  | transform op, previous => some (op.apply previous)

def op? : Request → Option TransformOperation
  | transform op => some op
  | _ => none

/-- What the object of the mutation has at the path. -/
def value? : Request → Option Value
  | set v => some v
  | _ => none

end Request

def Scalar.toValue : Scalar → Value
  | null => .null
  | bool b => .bool b
  | number q => .number q
  | string s => .string s
  | timestamp t => .timestamp t
  | other _ => .null

namespace UserData

def isSentinel : UserData → Bool
  | delete => true
  | arrayUnion _ => true
  | arrayRemove _ => true
  | _ => false

mutual

/-- The value that a plain input stands for. -/
def plain : UserData → Value
  | scalar s => s.toValue
  | array xs => .array (plainList xs)
  | dictionary fs => .map (plainFields fs [])
  | _ => .null

def plainList : List UserData → List Value
  | [] => []
  | x :: xs => plain x :: plainList xs

/-- Sentinels leave no value behind. -/
def plainFields : List (String × UserData) → Dict → Dict
  | [], d => d
  | (k, x) :: fs, d =>
      plainFields fs (if x.isSentinel then d else ObjectValue.set [k] (plain x) d)

end

def value? (x : UserData) : Option Value := if x.isSentinel then none else some x.plain

/-- What an input that is no dictionary asks for. -/
def request : UserData → Request
  | delete => .clear
  | arrayUnion xs => .transform (.arrayUnion (plainList xs))
  | arrayRemove xs => .transform (.arrayRemove (plainList xs))
  | x => .set x.plain

mutual

/-- An empty dictionary is a leaf, too. -/
def leaves : UserData → List (FieldPath × Request)
  | dictionary [] => [([], .set (.map []))]
  | dictionary (f :: fs) => fieldLeaves (f :: fs)
  | x => [([], x.request)]

def fieldLeaves : List (String × UserData) → List (FieldPath × Request)
  | [] => []
  | (k, x) :: fs => (leaves x).map (fun l => (k :: l.1, l.2)) ++ fieldLeaves fs

end

/-- Every dictionary on the way to a leaf has distinct keys. -/
inductive Distinct : UserData → Prop
  | scalar (s : Scalar) : Distinct (.scalar s)
  | array (xs : List UserData) : Distinct (.array xs)
  | dictionary {fs : List (String × UserData)} : (fs.map Prod.fst).Nodup →
      (∀ f ∈ fs, Distinct f.2) → Distinct (.dictionary fs)
  | delete : Distinct .delete
  | arrayUnion (xs : List UserData) : Distinct (.arrayUnion xs)
  | arrayRemove (xs : List UserData) : Distinct (.arrayRemove xs)

variable {fs : List (String × UserData)} {x : UserData} {l : FieldPath × Request} {d : Dict}

theorem mem_fieldLeaves :
    l ∈ fieldLeaves fs ↔ ∃ f ∈ fs, ∃ m ∈ leaves f.2, l = (f.1 :: m.1, m.2) := by
  induction fs with
  | nil => simp [fieldLeaves]
  | cons f fs ih =>
      obtain ⟨k, x⟩ := f
      rw [fieldLeaves, List.mem_append, ih, List.exists_mem_cons_iff, List.mem_map]
      simp only [eq_comm]

theorem apart_of_ne {k l : String} (h : k ≠ l) (p q : FieldPath) : Apart (k :: p) (l :: q) := by
  constructor
  · intro hp
    exact h (List.cons_prefix_cons.mp hp).1
  · intro hp
    exact h (List.cons_prefix_cons.mp hp).1.symm

theorem fieldLeaves_apart (hnd : (fs.map Prod.fst).Nodup)
    (h : ∀ f ∈ fs, (leaves f.2).Pairwise fun l l' => Apart l.1 l'.1) :
    (fieldLeaves fs).Pairwise fun l l' => Apart l.1 l'.1 := by
  induction fs with
  | nil => exact List.Pairwise.nil
  | cons f fs ih =>
      obtain ⟨k, x⟩ := f
      obtain ⟨hk, hnd⟩ := List.nodup_cons.mp hnd
      rw [fieldLeaves, List.pairwise_append]
      refine ⟨?_, ih hnd fun f hf => h f (List.mem_cons_of_mem _ hf), ?_⟩
      · rw [List.pairwise_map]
        exact (h (k, x) List.mem_cons_self).imp fun ha => apart_cons.mpr ha
      · intro l hl l' hl'
        obtain ⟨m, -, rfl⟩ := List.mem_map.mp hl
        obtain ⟨g, hg, m', -, rfl⟩ := mem_fieldLeaves.mp hl'
        refine apart_of_ne ?_ _ _
        rintro rfl
        exact hk (List.mem_map.mpr ⟨g, hg, rfl⟩)

/-- No leaf lies on the way to another one. -/
theorem Distinct.leaves_apart (h : x.Distinct) :
    (leaves x).Pairwise fun l l' => Apart l.1 l'.1 := by
  induction h with
  | @dictionary fs hnd _ ih =>
      cases fs with
      | nil => exact List.pairwise_singleton _ _
      | cons f fs => exact fieldLeaves_apart hnd ih
  | _ => exact List.pairwise_singleton _ _

/-! ### The object has the values of the leaves -/

theorem lookup_plainFields_of_notMem {k : String} (h : k ∉ fs.map Prod.fst) (d : Dict) :
    (plainFields fs d).lookup k = d.lookup k := by
  induction fs generalizing d with
  | nil => rw [plainFields]
  | cons f fs ih =>
      obtain ⟨l, x⟩ := f
      obtain ⟨hne, hk⟩ := not_or.mp fun hmem => h (List.mem_cons.mpr hmem)
      rw [plainFields, ih hk]
      split
      · rfl
      · exact Dict.lookup_put_of_ne hne _ d

theorem lookup_plainFields (hnd : (fs.map Prod.fst).Nodup) {k : String} (h : (k, x) ∈ fs)
    (hd : d.lookup k = none) : (plainFields fs d).lookup k = x.value? := by
  induction fs generalizing d with
  | nil => cases h
  | cons f fs ih =>
      obtain ⟨l, y⟩ := f
      obtain ⟨hl, hnd⟩ := List.nodup_cons.mp hnd
      rw [plainFields]
      rcases List.mem_cons.mp h with heq | hmem
      · obtain ⟨rfl, rfl⟩ := Prod.mk.inj heq
        rw [lookup_plainFields_of_notMem hl, value?]
        split
        · exact hd
        · exact Dict.lookup_put_self k _ d
      · have hne : k ≠ l := by
          rintro rfl
          exact hl (List.mem_map.mpr ⟨(k, x), hmem, rfl⟩)
        refine ih hnd hmem ?_
        split
        · exact hd
        · exact (Dict.lookup_put_of_ne hne _ d).trans hd

theorem get_plainFields (hnd : (fs.map Prod.fst).Nodup)
    (h : ∀ f ∈ fs, ∀ l ∈ leaves f.2, f.2.value?.bind (Value.get l.1) = l.2.value?) :
    ∀ l ∈ fieldLeaves fs, ObjectValue.get l.1 (plainFields fs []) = l.2.value? := by
  intro l hl
  obtain ⟨⟨k, x⟩, hf, m, hm, rfl⟩ := mem_fieldLeaves.mp hl
  rw [ObjectValue.get_cons, lookup_plainFields hnd hf List.lookup_nil]
  exact h (k, x) hf m hm

theorem Distinct.get_value? (h : x.Distinct) :
    ∀ l ∈ leaves x, x.value?.bind (Value.get l.1) = l.2.value? := by
  induction h with
  | @dictionary fs hnd _ ih =>
      cases fs with
      | nil =>
          intro l hl
          obtain rfl := List.mem_singleton.mp hl
          rfl
      | cons f fs => exact get_plainFields hnd ih
  | _ =>
      intro l hl
      obtain rfl := List.mem_singleton.mp hl
      rfl

end UserData

/-! ## The walk collects the leaves -/

theorem bind_ok {α β : Type} {x : Except String α} {f : α → Except String β} {b : β} :
    x >>= f = .ok b ↔ ∃ a, x = .ok a ∧ f a = .ok b := by
  cases x with
  | error e =>
      constructor
      · intro h
        cases h
      · rintro ⟨a, h, -⟩
        cases h
  | ok a =>
      constructor
      · exact fun h => ⟨a, rfl, h⟩
      · rintro ⟨a', ha, h⟩
        obtain rfl := Except.ok.inj ha
        exact h

/-- What a walk below `P` has added, if its leaves are `ls`. -/
structure Collects (P : FieldPath) (ls : List (FieldPath × Request)) (acc acc' : ParseAccumulator) :
    Prop where
  source : acc'.dataSource = acc.dataSource
  mask : ∀ q, q ∈ acc'.fieldMask ↔
    q ∈ acc.fieldMask ∨ ∃ l ∈ ls, l.2.op? = none ∧ q = P ++ l.1
  transforms : acc'.fieldTransforms =
    acc.fieldTransforms ++ ls.filterMap fun l => l.2.op?.map (⟨P ++ l.1, ·⟩)

namespace Collects

variable {P : FieldPath} {ls ls' : List (FieldPath × Request)} {acc acc' acc'' : ParseAccumulator}

theorem nil : Collects P [] acc acc := ⟨rfl, by simp, by simp⟩

theorem append (h : Collects P ls acc acc') (h' : Collects P ls' acc' acc'') :
    Collects P (ls ++ ls') acc acc'' where
  source := h'.source.trans h.source
  mask q := by
    rw [h'.mask, h.mask, or_assoc]
    simp only [List.mem_append, or_and_right, exists_or]
  transforms := by
    rw [h'.transforms, h.transforms, List.filterMap_append, List.append_assoc]

theorem child {k : String} (h : Collects (P ++ [k]) ls acc acc') :
    Collects P (ls.map fun l => (k :: l.1, l.2)) acc acc' where
  source := h.source
  mask q := by
    rw [h.mask]
    refine or_congr_right ?_
    constructor
    · rintro ⟨l, hl, hop, rfl⟩
      exact ⟨(k :: l.1, l.2), List.mem_map.mpr ⟨l, hl, rfl⟩, hop, by simp⟩
    · rintro ⟨l, hl, hop, rfl⟩
      obtain ⟨m, hm, rfl⟩ := List.mem_map.mp hl
      exact ⟨m, hm, hop, by simp⟩
  transforms := by
    rw [h.transforms, List.filterMap_map]
    simp

theorem addToFieldMask {r : Request} (hr : r.op? = none) :
    Collects P [([], r)] acc (acc.addToFieldMask P) where
  source := rfl
  mask q := by
    show q ∈ insertPath P acc.fieldMask ↔ _
    rw [mem_insertPath, or_comm]
    simp [hr]
  transforms := by
    show acc.fieldTransforms = _
    simp [hr]

theorem addToFieldTransforms (op : TransformOperation) :
    Collects P [([], .transform op)] acc (acc.addToFieldTransforms P op) where
  source := rfl
  mask q := by simp [ParseAccumulator.addToFieldTransforms, Request.op?]
  transforms := by simp [ParseAccumulator.addToFieldTransforms, Request.op?]

end Collects

/-- What is known of an input that was walked without error. -/
structure Walked (x : UserData) (ctx : ParseContext) (acc : ParseAccumulator) (v : Option Value)
    (acc' : ParseAccumulator) : Prop where
  value : v = x.value?
  unplaced : ctx.path = none → x.isSentinel = false ∧ acc' = acc
  placed : ∀ P, ctx.path = some P → P ≠ [] → Collects P x.leaves acc acc'

/-- The same, of one input at every place. -/
def Walks (x : UserData) : Prop :=
  ∀ ctx acc v acc', parseData x ctx acc = .ok (v, acc') → Walked x ctx acc v acc'

theorem checkSentinel_eq_ok {methodName : String} {ctx : ParseContext} {acc : ParseAccumulator}
    {p : FieldPath} : checkSentinel methodName ctx acc = .ok p ↔
      ParseContext.write acc = true ∧ ctx.path = some p := by
  unfold checkSentinel
  cases ParseContext.write acc with
  | false => simp
  | true => cases ctx.path <;> simp

theorem childContext_eq_ok {ctx child : ParseContext} {acc : ParseAccumulator} {k : String}
    (h : ctx.childContext acc k = .ok child) : child = ⟨ctx.path.map (· ++ [k]), false⟩ := by
  obtain ⟨-, -, h⟩ := bind_ok.mp h
  exact (Except.ok.inj h).symm

/-- An element of an array: nothing is collected, and it is no sentinel. -/
theorem Walks.element {x : UserData} (hx : Walks x) {acc acc' : ParseAccumulator}
    {v : Option Value} (h : parseData x .arrayChild acc = .ok (v, acc')) :
    v = some x.plain ∧ acc' = acc := by
  have hw := hx _ _ _ _ h
  obtain ⟨hs, hacc⟩ := hw.unplaced rfl
  refine ⟨?_, hacc⟩
  rw [hw.value, UserData.value?, hs]
  rfl

theorem parseArray_eq_ok {xs : List UserData} {acc acc' : ParseAccumulator} {vs : List Value}
    (hxs : ∀ x ∈ xs, Walks x) (h : parseArray xs acc = .ok (vs, acc')) :
    vs = UserData.plainList xs ∧ acc' = acc := by
  induction xs generalizing acc acc' vs with
  | nil =>
      obtain ⟨rfl, rfl⟩ := Prod.mk.inj (Except.ok.inj h)
      exact ⟨rfl, rfl⟩
  | cons x xs ih =>
      rw [parseArray] at h
      obtain ⟨⟨v, acc₁⟩, hx, h⟩ := bind_ok.mp h
      obtain ⟨⟨vs', acc₂⟩, hxs', h⟩ := bind_ok.mp h
      obtain ⟨rfl, rfl⟩ := Prod.mk.inj (Except.ok.inj h)
      obtain ⟨rfl, rfl⟩ := (hxs x List.mem_cons_self).element hx
      obtain ⟨rfl, rfl⟩ := ih (fun y hy => hxs y (List.mem_cons_of_mem _ hy)) hxs'
      exact ⟨rfl, rfl⟩

theorem parseArrayTransformElements_eq_ok {xs : List UserData} {acc : ParseAccumulator}
    {vs : List Value} (hxs : ∀ x ∈ xs, Walks x)
    (h : parseArrayTransformElements xs acc = .ok vs) : vs = UserData.plainList xs := by
  induction xs generalizing acc vs with
  | nil => exact (Except.ok.inj h).symm
  | cons x xs ih =>
      rw [parseArrayTransformElements] at h
      obtain ⟨⟨v, acc₁⟩, hx, hrest⟩ := bind_ok.mp h
      clear h
      obtain ⟨rfl, rfl⟩ := (hxs x List.mem_cons_self).element hx
      simp only at hrest
      split at hrest
      · obtain ⟨vs', hvs, hcons⟩ := bind_ok.mp hrest
        obtain rfl := Except.ok.inj hcons
        rw [ih (fun y hy => hxs y (List.mem_cons_of_mem _ hy)) hvs]
        rfl
      · cases hrest

theorem parseDictionary_eq_ok {fs : List (String × UserData)} {ctx : ParseContext} {d d' : Dict}
    {acc acc' : ParseAccumulator} (hfs : ∀ f ∈ fs, Walks f.2)
    (h : parseDictionary fs ctx d acc = .ok (d', acc')) :
    d' = UserData.plainFields fs d ∧ (ctx.path = none → acc' = acc)
      ∧ ∀ P, ctx.path = some P → Collects P (UserData.fieldLeaves fs) acc acc' := by
  induction fs generalizing d acc with
  | nil =>
      obtain ⟨rfl, rfl⟩ := Prod.mk.inj (Except.ok.inj h)
      exact ⟨rfl, fun _ => rfl, fun _ _ => .nil⟩
  | cons f fs ih =>
      obtain ⟨k, x⟩ := f
      rw [parseDictionary] at h
      obtain ⟨child, hchild, hparse⟩ := bind_ok.mp h
      obtain ⟨⟨v, acc₁⟩, hx, hrest⟩ := bind_ok.mp hparse
      obtain rfl := childContext_eq_ok hchild
      have hw := hfs (k, x) List.mem_cons_self _ _ _ _ hx
      obtain ⟨hd, hnone, hsome⟩ := ih (fun g hg => hfs g (List.mem_cons_of_mem _ hg)) hrest
      refine ⟨?_, ?_, ?_⟩
      · rw [hd, UserData.plainFields, hw.value, UserData.value?]
        cases x.isSentinel <;> rfl
      · intro hctx
        rw [hnone hctx, (hw.unplaced (by rw [hctx]; rfl)).2]
      · intro P hctx
        have hplaced := hw.placed (P ++ [k]) (by rw [hctx]; rfl) (by simp)
        exact hplaced.child.append (hsome P hctx)

theorem walked_transform {x : UserData} {ctx : ParseContext} {acc : ParseAccumulator}
    {p : FieldPath} {op : TransformOperation} (hctx : ctx.path = some p)
    (hsentinel : x.isSentinel = true) (hleaves : x.leaves = [([], .transform op)]) :
    Walked x ctx acc none (acc.addToFieldTransforms p op) where
  value := by rw [UserData.value?, hsentinel, if_pos rfl]
  unplaced hnone := by
    rw [hctx] at hnone
    cases hnone
  placed P hP _ := by
    rw [hctx] at hP
    obtain rfl := Option.some.inj hP
    rw [hleaves]
    exact .addToFieldTransforms op

/-- Whatever is parsed without error, is parsed to what it stands for. -/
theorem walks (x : UserData) : Walks x := by
  induction x using UserData.induction with
  | scalar s =>
      intro ctx acc v acc' h
      rw [parseData] at h
      obtain ⟨w, hw, hok⟩ := bind_ok.mp h
      obtain ⟨rfl, rfl⟩ := Prod.mk.inj (Except.ok.inj hok)
      refine ⟨?_, ?_, ?_⟩
      · cases s <;> cases hw <;> rfl
      · intro hctx
        rw [addContextPath, hctx]
        exact ⟨rfl, rfl⟩
      · intro P hctx _
        rw [addContextPath, hctx]
        exact .addToFieldMask rfl
  | array xs ih =>
      intro ctx acc v acc' h
      rw [parseData] at h
      split at h
      · cases h
      · obtain ⟨⟨vs, acc₁⟩, hvs, hok⟩ := bind_ok.mp h
        obtain ⟨rfl, rfl⟩ := Prod.mk.inj (Except.ok.inj hok)
        obtain ⟨rfl, rfl⟩ := parseArray_eq_ok ih hvs
        refine ⟨rfl, ?_, ?_⟩
        · intro hctx
          rw [addContextPath, hctx]
          exact ⟨rfl, rfl⟩
        · intro P hctx _
          rw [addContextPath, hctx]
          exact .addToFieldMask rfl
  | dictionary fs ih =>
      intro ctx acc v acc' h
      rw [parseData] at h
      cases fs with
      | nil =>
          rw [List.isEmpty_nil, if_pos rfl] at h
          cases hctx : ctx.path with
          | none =>
              rw [hctx] at h
              obtain ⟨rfl, rfl⟩ := Prod.mk.inj (Except.ok.inj h)
              exact ⟨rfl, fun _ => ⟨rfl, rfl⟩, fun P hP => by rw [hctx] at hP; cases hP⟩
          | some p =>
              cases p with
              | nil =>
                  rw [hctx] at h
                  obtain ⟨rfl, rfl⟩ := Prod.mk.inj (Except.ok.inj h)
                  refine ⟨rfl, fun _ => ⟨rfl, rfl⟩, ?_⟩
                  intro P hP hne
                  rw [hctx] at hP
                  exact absurd (Option.some.inj hP).symm hne
              | cons k p =>
                  rw [hctx] at h
                  obtain ⟨rfl, rfl⟩ := Prod.mk.inj (Except.ok.inj h)
                  refine ⟨rfl, ?_, ?_⟩
                  · intro hP
                    rw [hctx] at hP
                    cases hP
                  · intro P hP _
                    rw [hctx] at hP
                    obtain rfl := Option.some.inj hP
                    exact .addToFieldMask rfl
      | cons f fs =>
          rw [List.isEmpty_cons, if_neg Bool.false_ne_true] at h
          obtain ⟨⟨d, acc₁⟩, hd, hok⟩ := bind_ok.mp h
          obtain ⟨rfl, rfl⟩ := Prod.mk.inj (Except.ok.inj hok)
          obtain ⟨rfl, hnone, hsome⟩ := parseDictionary_eq_ok ih hd
          exact ⟨rfl, fun hctx => ⟨rfl, hnone hctx⟩, fun P hctx _ => hsome P hctx⟩
  | delete =>
      intro ctx acc v acc' h
      rw [parseData, parseDelete] at h
      obtain ⟨p, hp, hok⟩ := bind_ok.mp h
      obtain ⟨-, hctx⟩ := checkSentinel_eq_ok.mp hp
      have hmerge : v = none ∧ acc' = acc.addToFieldMask p := by
        split at hok
        · exact Prod.mk.inj (Except.ok.inj hok.symm)
        · split at hok <;> cases hok
        · cases hok
      obtain ⟨rfl, rfl⟩ := hmerge
      refine ⟨rfl, ?_, ?_⟩
      · intro hnone
        rw [hctx] at hnone
        cases hnone
      · intro P hP _
        rw [hctx] at hP
        obtain rfl := Option.some.inj hP
        exact .addToFieldMask rfl
  | arrayUnion xs ih =>
      intro ctx acc v acc' h
      rw [parseData] at h
      obtain ⟨p, hp, helements⟩ := bind_ok.mp h
      obtain ⟨es, hes, hok⟩ := bind_ok.mp helements
      obtain ⟨rfl, rfl⟩ := Prod.mk.inj (Except.ok.inj hok)
      obtain rfl := parseArrayTransformElements_eq_ok ih hes
      exact walked_transform (checkSentinel_eq_ok.mp hp).2 rfl rfl
  | arrayRemove xs ih =>
      intro ctx acc v acc' h
      rw [parseData] at h
      obtain ⟨p, hp, helements⟩ := bind_ok.mp h
      obtain ⟨es, hes, hok⟩ := bind_ok.mp helements
      obtain ⟨rfl, rfl⟩ := Prod.mk.inj (Except.ok.inj hok)
      obtain rfl := parseArrayTransformElements_eq_ok ih hes
      exact walked_transform (checkSentinel_eq_ok.mp hp).2 rfl rfl

theorem parsedMergeData_eq_ok {fs : List (String × UserData)} {parsed : ParsedSetData}
    (h : parsedMergeData (.dictionary fs) = .ok parsed) :
    ∃ acc, parsed = ⟨UserData.plainFields fs [], some acc.fieldMask, acc.fieldTransforms⟩
      ∧ Collects [] (UserData.fieldLeaves fs) ⟨.mergeSet, [], []⟩ acc := by
  rw [parsedMergeData] at h
  obtain ⟨⟨v, acc⟩, hwalk, hok⟩ := bind_ok.mp h
  cases fs with
  | nil =>
      obtain ⟨rfl, rfl⟩ := Prod.mk.inj (Except.ok.inj hwalk)
      exact ⟨⟨.mergeSet, [], []⟩, (Except.ok.inj hok).symm, .nil⟩
  | cons f fs =>
      rw [parseData, List.isEmpty_cons, if_neg Bool.false_ne_true] at hwalk
      obtain ⟨⟨d, acc'⟩, hd, hsome⟩ := bind_ok.mp hwalk
      obtain ⟨rfl, rfl⟩ := Prod.mk.inj (Except.ok.inj hsome)
      obtain ⟨rfl, -, hcollects⟩ := parseDictionary_eq_ok (fun f _ => walks f.2) hd
      exact ⟨acc', (Except.ok.inj hok).symm, hcollects [] rfl⟩

/-! ## The mutations carry out the leaves -/

/-- Every leaf has what it asks for, and what no leaf concerns is as before. -/
def Carries (ls : List (FieldPath × Request)) (d d' : Dict) : Prop :=
  (∀ l ∈ ls, ObjectValue.get l.1 d' = l.2.result (ObjectValue.get l.1 d))
    ∧ ∀ q, (∀ l ∈ ls, Apart l.1 q) → ObjectValue.get q d' = ObjectValue.get q d

theorem get_patchObject_of_mem {mask : List FieldPath} {p : FieldPath}
    (h : ∀ q ∈ mask, q = p ∨ Apart q p) (hp : p ∈ mask) (hne : p ≠ []) (value obj : Dict) :
    ObjectValue.get p (Mutation.patchObject value mask obj) = ObjectValue.get p value := by
  have hstep : ∀ obj, ObjectValue.get p (Mutation.patchObject value [p] obj) =
      ObjectValue.get p value := by
    intro obj
    unfold Mutation.patchObject
    rw [List.foldl_cons, List.foldl_nil, if_neg hne]
    cases hv : ObjectValue.get p value with
    | none =>
        have hget := ObjectValue.get_delete_append hne [] obj
        rwa [List.append_nil] at hget
    | some v => exact ObjectValue.get_set_self hne v obj
  -- the last time that the path comes up in the mask decides
  obtain ⟨before, after, rfl, hafter⟩ : ∃ before after, mask = before ++ p :: after ∧ p ∉ after := by
    obtain ⟨as, bs, hrev, hnot⟩ := List.eq_append_cons_of_mem (List.mem_reverse.mpr hp)
    refine ⟨bs.reverse, as.reverse, ?_, by simpa using hnot⟩
    rw [← List.reverse_reverse mask, hrev]
    simp
  have hsplit : Mutation.patchObject value (before ++ p :: after) obj =
      Mutation.patchObject value after (Mutation.patchObject value [p]
        (Mutation.patchObject value before obj)) := by
    unfold Mutation.patchObject
    rw [List.foldl_append, List.foldl_cons, List.foldl_cons, List.foldl_nil]
  rw [hsplit, get_patchObject, hstep]
  intro q hq
  rcases h q (by simp [hq]) with rfl | hq'
  · exact absurd hq hafter
  · exact hq'

theorem transformObject_map (obj : Dict) (ts : List FieldTransform) (f : FieldTransform → Value) :
    transformObject obj ts (ts.map f) =
      ts.foldl (fun d t => ObjectValue.set t.path (f t) d) obj := by
  unfold transformObject
  induction ts generalizing obj with
  | nil => rfl
  | cons t ts ih =>
      rw [List.map_cons, List.zip_cons_cons, List.foldl_cons, List.foldl_cons]
      exact ih _

theorem get_transforms_of_apart {ts : List FieldTransform} {q : FieldPath}
    (h : ∀ t ∈ ts, Apart t.path q) (f : FieldTransform → Value) (obj : Dict) :
    ObjectValue.get q (ts.foldl (fun d t => ObjectValue.set t.path (f t) d) obj) =
      ObjectValue.get q obj := by
  induction ts generalizing obj with
  | nil => rfl
  | cons t ts ih =>
      rw [List.foldl_cons, ih fun t ht => h t (List.mem_cons_of_mem _ ht)]
      exact ObjectValue.get_set_of_apart (h t List.mem_cons_self) _ obj

theorem get_transforms_of_mem {ts : List FieldTransform}
    (h : ts.Pairwise fun t t' => Apart t.path t'.path) {t : FieldTransform} (ht : t ∈ ts)
    (hne : t.path ≠ []) (f : FieldTransform → Value) (obj : Dict) :
    ObjectValue.get t.path (ts.foldl (fun d t => ObjectValue.set t.path (f t) d) obj) =
      some (f t) := by
  induction ts generalizing obj with
  | nil => cases ht
  | cons s ts ih =>
      obtain ⟨hs, hts⟩ := List.pairwise_cons.mp h
      rw [List.foldl_cons]
      rcases List.mem_cons.mp ht with rfl | ht
      · rw [get_transforms_of_apart fun t' ht' => (hs t' ht').symm]
        exact ObjectValue.get_set_self hne _ obj
      · exact ih hts ht _

/-- The transforms that the leaves ask for. -/
def transformsOf (ls : List (FieldPath × Request)) : List FieldTransform :=
  ls.filterMap fun l => l.2.op?.map (⟨l.1, ·⟩)

theorem mem_transformsOf {ls : List (FieldPath × Request)} {t : FieldTransform} :
    t ∈ transformsOf ls ↔ (t.path, .transform t.transformation) ∈ ls := by
  unfold transformsOf
  rw [List.mem_filterMap]
  constructor
  · rintro ⟨⟨p, r⟩, hl, hop⟩
    cases r with
    | transform op =>
        obtain rfl := Option.some.inj hop
        exact hl
    | _ => cases hop
  · intro hl
    exact ⟨_, hl, rfl⟩

section

variable {ls : List (FieldPath × Request)} {mask : List FieldPath} {data obj : Dict}

theorem apart_of_mem (h : ls.Pairwise fun l l' => Apart l.1 l'.1) {l l' : FieldPath × Request}
    (hl : l ∈ ls) (hl' : l' ∈ ls) (hne : l ≠ l') : Apart l.1 l'.1 := by
  have : Std.Symm fun l l' : FieldPath × Request => Apart l.1 l'.1 := ⟨fun _ _ h => h.symm⟩
  exact h.forall hl hl' hne

/-- Object, mask and transforms of the leaves together. -/
theorem carries (hapart : ls.Pairwise fun l l' => Apart l.1 l'.1) (hne : ∀ l ∈ ls, l.1 ≠ [])
    (hmask : ∀ q, q ∈ mask ↔ ∃ l ∈ ls, l.2.op? = none ∧ q = l.1)
    (hdata : ∀ l ∈ ls, ObjectValue.get l.1 data = l.2.value?) :
    Carries ls obj ((transformsOf ls).foldl
      (fun d t => ObjectValue.set t.path
        (t.transformation.apply (ObjectValue.get t.path (Mutation.patchObject data mask obj))) d)
      (Mutation.patchObject data mask obj)) := by
  have htransforms : (transformsOf ls).Pairwise fun t t' => Apart t.path t'.path := by
    refine List.Pairwise.filterMap _ ?_ hapart
    rintro ⟨p, r⟩ ⟨p', r'⟩ happ t ht t' ht'
    cases r <;> cases ht
    cases r' <;> cases ht'
    exact happ
  constructor
  · intro l hl
    by_cases hop : l.2.op? = none
    · have hnot : ∀ t ∈ transformsOf ls, Apart t.path l.1 := by
        intro t ht
        refine apart_of_mem hapart (mem_transformsOf.mp ht) hl ?_
        rintro rfl
        cases hop
      rw [get_transforms_of_apart hnot, get_patchObject_of_mem ?_ ((hmask _).mpr ⟨l, hl, hop, rfl⟩)
        (hne l hl), hdata l hl]
      · cases hr : l.2 with
        | transform op =>
            rw [hr] at hop
            cases hop
        | _ => rfl
      · intro q hq
        obtain ⟨l', hl', -, rfl⟩ := (hmask q).mp hq
        by_cases heq : l' = l
        · exact Or.inl (congrArg Prod.fst heq)
        · exact Or.inr (apart_of_mem hapart hl' hl heq)
    · obtain ⟨p, r⟩ := l
      cases r with
      | transform op =>
          have ht : (⟨p, op⟩ : FieldTransform) ∈ transformsOf ls := mem_transformsOf.mpr hl
          have hget := get_transforms_of_mem htransforms ht (hne _ hl) (fun t =>
            t.transformation.apply
              (ObjectValue.get t.path (Mutation.patchObject data mask obj)))
            (Mutation.patchObject data mask obj)
          rw [hget, get_patchObject]
          · rfl
          · intro q hq
            obtain ⟨l', hl', hnone, rfl⟩ := (hmask q).mp hq
            refine apart_of_mem hapart hl' hl ?_
            rintro rfl
            cases hnone
      | _ => exact absurd rfl hop
  · intro q hq
    rw [get_transforms_of_apart fun t ht => hq _ (mem_transformsOf.mp ht), get_patchObject]
    intro p hp
    obtain ⟨l, hl, -, rfl⟩ := (hmask p).mp hp
    exact hq l hl

end

/-- A patch without transforms, or with them. -/
theorem effectOf_patch (key : DocumentKey) (data : Dict) (mask : List FieldPath) {p : Precondition}
    (ts : List FieldTransform) {c : Option Dict} (hp : (p == .none || c.isSome) = true) :
    effectOf (.patch key data mask p :: transformMutations key ts) key c =
      some (ts.foldl (fun d t => ObjectValue.set t.path (t.transformation.apply
          (ObjectValue.get t.path (Mutation.patchObject data mask (c.getD [])))) d)
        (Mutation.patchObject data mask (c.getD []))) := by
  have hpatch : (Mutation.patch key data mask p).effect c =
      some (Mutation.patchObject data mask (c.getD [])) := by
    rw [Mutation.effect, patchContent, if_pos hp]
  unfold effectOf transformMutations
  cases ts with
  | nil =>
      simp only [List.isEmpty_nil, List.foldl_cons, List.foldl_nil, Mutation.key, if_true, hpatch]
  | cons t ts =>
      rw [List.isEmpty_cons, if_neg Bool.false_ne_true]
      simp only [List.foldl_cons, List.foldl_nil, Mutation.key, if_true, hpatch]
      show transformContent (t :: ts) _ = _
      rw [transformContent, Option.map_some, transformObject_map, List.foldl_cons]

theorem regular_patch {key : DocumentKey} {data : Dict} {mask : List FieldPath} {p : Precondition}
    {ts : List FieldTransform} (hp : p.Plain) (h : ∀ q ∈ mask, ∀ t ∈ ts, Apart q t.path) :
    Regular key (.patch key data mask p :: transformMutations key ts) := by
  unfold transformMutations
  cases ts with
  | nil => exact .patch data mask hp
  | cons t ts => exact .patchTransform data mask (t :: ts) hp h

/-- A merge that is accepted is regular, so that it means the same while it is
pending and when it is acknowledged; and it means that every leaf of the data is
carried out, and nothing else. -/
theorem carries_setData {key : DocumentKey} {fs : List (String × UserData)} {ms : List Mutation}
    (hdistinct : (UserData.dictionary fs).Distinct)
    (h : DocumentReference.setData key (.dictionary fs) true = .ok ms) :
    Regular key ms ∧ ∀ c, ∃ d, effectOf ms key c = some d
      ∧ Carries (UserData.fieldLeaves fs) (c.getD []) d := by
  rw [DocumentReference.setData, if_pos rfl] at h
  obtain ⟨parsed, hparsed, hok⟩ := bind_ok.mp h
  obtain ⟨acc, rfl, hcollects⟩ := parsedMergeData_eq_ok hparsed
  obtain rfl := Except.ok.inj hok
  have hfields : ∀ f ∈ fs, f.2.Distinct ∧ (fs.map Prod.fst).Nodup := by
    cases hdistinct with
    | dictionary hnd hall => exact fun f hf => ⟨hall f hf, hnd⟩
  have hnd : (fs.map Prod.fst).Nodup := by
    cases hdistinct with
    | dictionary hnd _ => exact hnd
  have hapart := UserData.fieldLeaves_apart hnd fun f hf => (hfields f hf).1.leaves_apart
  have hdata := UserData.get_plainFields hnd fun f hf => (hfields f hf).1.get_value?
  have hne : ∀ l ∈ UserData.fieldLeaves fs, l.1 ≠ [] := by
    intro l hl
    obtain ⟨f, -, m, -, rfl⟩ := UserData.mem_fieldLeaves.mp hl
    exact List.cons_ne_nil _ _
  have hmask : ∀ q, q ∈ acc.fieldMask ↔
      ∃ l ∈ UserData.fieldLeaves fs, l.2.op? = none ∧ q = l.1 := by
    intro q
    rw [hcollects.mask]
    simp
  have hts : acc.fieldTransforms = transformsOf (UserData.fieldLeaves fs) := by
    rw [hcollects.transforms]
    rfl
  show Regular key (.patch key _ _ .none :: transformMutations key _) ∧ ∀ c, ∃ d,
    effectOf (.patch key _ _ .none :: transformMutations key _) key c = some d ∧ _
  constructor
  · refine regular_patch (Or.inl rfl) ?_
    intro q hq t ht
    obtain ⟨l, hl, hop, rfl⟩ := (hmask q).mp hq
    rw [hts] at ht
    refine apart_of_mem hapart hl (mem_transformsOf.mp ht) ?_
    rintro rfl
    cases hop
  · intro c
    refine ⟨_, effectOf_patch _ _ _ _ rfl, ?_⟩
    rw [hts]
    exact carries hapart hne hmask hdata

/-- Pending or acknowledged, an accepted merge makes the same of a document:
every leaf of the data is carried out, and nothing else. -/
theorem setData_merge {key : DocumentKey} {fs : List (String × UserData)} {ms : List Mutation}
    (hdistinct : (UserData.dictionary fs).Distinct)
    (h : DocumentReference.setData key (.dictionary fs) true = .ok ms) (batchId : Int)
    (doc : Option MaybeDocument) :
    ∃ d, content ((MutationBatch.mk batchId ms).applyToLocalDocument key doc) = some d
      ∧ Carries (UserData.fieldLeaves fs) ((content doc).getD []) d
      ∧ ∀ rs v, List.Forall₂ Mutation.Answers ms rs →
          rs.getLast?.map MutationResult.version = some v →
          ∃ e, (MutationBatch.mk batchId ms).applyToRemoteDocument key rs doc = some (some e)
            ∧ content (some e) = some d ∧ e.version = v := by
  obtain ⟨hregular, heffect⟩ := carries_setData hdistinct h
  obtain ⟨d, hd, hcarries⟩ := heffect (content doc)
  refine ⟨d, by rw [hregular.content_local, hd], hcarries, ?_⟩
  intro rs v hrs hv
  obtain ⟨e, he, hdata, hversion, -⟩ := hregular.content_remote hrs hv
  exact ⟨e, he, hdata.trans hd, hversion⟩

/-- A name and a new member, merged into a class. -/
def joined : List (String × UserData) :=
  [("studentIDs", .arrayUnion [.scalar (.string "ann")]), ("name", .scalar (.string "4b"))]

theorem setData_merge_joined :
    ∃ ms, DocumentReference.setData ["Class", "washington"] (.dictionary joined) true = .ok ms
      ∧ ∃ d, content ((MutationBatch.mk 1 ms).applyToLocalDocument ["Class", "washington"] none) =
          some d
        ∧ Carries (UserData.fieldLeaves joined) [] d
        ∧ ∀ rs v, List.Forall₂ Mutation.Answers ms rs →
            rs.getLast?.map MutationResult.version = some v →
            ∃ e, (MutationBatch.mk 1 ms).applyToRemoteDocument ["Class", "washington"] rs none =
                some (some e)
              ∧ content (some e) = some d ∧ e.version = v :=
  ⟨_, rfl, setData_merge (.dictionary (by decide) (by
    intro f hf
    rcases List.mem_cons.mp hf with rfl | hf
    · exact .arrayUnion _
    · obtain rfl := List.mem_singleton.mp hf
      exact .scalar _)) rfl 1 none⟩

end GradeIo.Firestore
