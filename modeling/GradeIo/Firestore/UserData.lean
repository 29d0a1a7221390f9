import GradeIo.Firestore.FieldPath
import GradeIo.Firestore.Mutation

/-!
# What a caller hands over

`FSTUserDataConverter` and the accumulator of `user_data.cc`: the data of one
call is walked once. Plain values become an object; every leaf that is a value
or a deletion puts its path into the field mask; array unions and removals
become transforms and leave no value behind. Sentinels stand only in fields that
are written, arrays not directly in arrays, and field names may neither be empty
nor begin and end with `__`.

A dictionary is the list of its entries, in the order in which they are
enumerated. The sentinels for the server's time and for increments are left out.
-/

namespace GradeIo.Firestore

open DocDb

inductive Scalar where
  | null
  | bool (b : Bool)
  | number (q : Rat)
  | string (s : String)
  | timestamp (t : Rat)
  /-- An object of any other class. -/
  | other (className : String)

inductive UserData where
  | scalar (s : Scalar)
  | array (xs : List UserData)
  | dictionary (fs : List (String × UserData))
  | delete
  | arrayUnion (xs : List UserData)
  | arrayRemove (xs : List UserData)

/-- By the elements of arrays and of array transforms, and by the entries of dictionaries. -/
theorem UserData.induction {P : UserData → Prop} (scalar : ∀ s, P (.scalar s))
    (array : ∀ xs, (∀ x ∈ xs, P x) → P (.array xs))
    (dictionary : ∀ fs, (∀ f ∈ fs, P f.2) → P (.dictionary fs)) (delete : P .delete)
    (arrayUnion : ∀ xs, (∀ x ∈ xs, P x) → P (.arrayUnion xs))
    (arrayRemove : ∀ xs, (∀ x ∈ xs, P x) → P (.arrayRemove xs)) (x : UserData) : P x :=
  @UserData.rec P (fun xs => ∀ x ∈ xs, P x) (fun fs => ∀ f ∈ fs, P f.2) (fun f => P f.2)
    scalar array dictionary delete arrayUnion arrayRemove
    (List.forall_mem_nil _) (fun _ _ hx hxs => List.forall_mem_cons.mpr ⟨hx, hxs⟩)
    (List.forall_mem_nil _) (fun _ _ hf hfs => List.forall_mem_cons.mpr ⟨hf, hfs⟩)
    (fun _ _ hx => hx) x

inductive UserDataSource where
  | set
  | mergeSet
  | update
  | argument
  | arrayArgument
deriving DecidableEq, Repr

structure ParseAccumulator where
  dataSource : UserDataSource
  /-- A set, in its order. -/
  fieldMask : List FieldPath
  fieldTransforms : List FieldTransform

/-- `std::set::insert`. -/
def insertPath (p : FieldPath) : List FieldPath → List FieldPath
  | [] => [p]
  | q :: l =>
      match compare p q with
      | .lt => p :: q :: l
      | .eq => q :: l
      | .gt => q :: insertPath p l

theorem mem_insertPath {p q : FieldPath} {l : List FieldPath} :
    q ∈ insertPath p l ↔ q = p ∨ q ∈ l := by
  induction l with
  | nil => simp [insertPath]
  | cons r l ih =>
      unfold insertPath
      cases hc : compare p r with
      | lt => simp
      | eq =>
          obtain rfl := Std.LawfulEqCmp.eq_of_compare hc
          simp
      | gt => grind

namespace ParseAccumulator

def addToFieldMask (acc : ParseAccumulator) (p : FieldPath) : ParseAccumulator :=
  { acc with fieldMask := insertPath p acc.fieldMask }

def addToFieldTransforms (acc : ParseAccumulator) (p : FieldPath) (op : TransformOperation) :
    ParseAccumulator :=
  { acc with fieldTransforms := acc.fieldTransforms ++ [⟨p, op⟩] }

/-- Whether a path leads to something that was parsed. -/
def contains (acc : ParseAccumulator) (p : FieldPath) : Bool :=
  acc.fieldMask.any (p.isPrefixOf ·) || acc.fieldTransforms.any fun t => p.isPrefixOf t.path

end ParseAccumulator

/-- Where the walk is; inside arrays there are no paths. -/
structure ParseContext where
  path : Option FieldPath
  arrayElement : Bool

namespace ParseContext

def root : ParseContext := ⟨some [], false⟩

def fieldDescription (ctx : ParseContext) : String :=
  match ctx.path with
  | none => ""
  | some [] => ""
  | some p => " (found in field " ++ FieldPath.canonicalString p ++ ")"

def write (acc : ParseAccumulator) : Bool :=
  match acc.dataSource with
  | .set => true
  | .mergeSet => true
  | .update => true
  | .argument => false
  | .arrayArgument => false

def isReserved (segment : String) : Bool :=
  "__".toList.isPrefixOf segment.toList && "__".toList.isSuffixOf segment.toList

def validatePathSegment (ctx : ParseContext) (acc : ParseAccumulator) (segment : String) :
    Except String Unit :=
  if segment = "" then
    .error ("Invalid data. Document fields must not be empty" ++ ctx.fieldDescription)
  else if write acc && isReserved segment then
    .error ("Invalid data. Document fields cannot begin and end with \"__\"" ++
      ctx.fieldDescription)
  else .ok ()

def childContext (ctx : ParseContext) (acc : ParseAccumulator) (name : String) :
    Except String ParseContext := do
  let child : ParseContext := ⟨ctx.path.map (· ++ [name]), false⟩
  child.validatePathSegment acc name
  .ok child

/-- The child for the path of an update: every segment of it is checked. -/
def childContextPath (ctx : ParseContext) (acc : ParseAccumulator) (p : FieldPath) :
    Except String ParseContext := do
  let child : ParseContext := ⟨ctx.path.map (· ++ p), false⟩
  match child.path with
  | none => .ok child
  | some q =>
      q.forM (child.validatePathSegment acc)
      .ok child

/-- Elements of arrays have no path. -/
def arrayChild : ParseContext := ⟨none, true⟩

end ParseContext

/-! ## The walk -/

/-- What every sentinel needs. -/
def checkSentinel (methodName : String) (ctx : ParseContext) (acc : ParseAccumulator) :
    Except String FieldPath :=
  if ParseContext.write acc then
    match ctx.path with
    | none => .error (methodName ++ " is not currently supported inside arrays")
    | some p => .ok p
  else
    .error (methodName ++ " can only be used with updateData() and setData()" ++
      ctx.fieldDescription)

def parseDelete (ctx : ParseContext) (acc : ParseAccumulator) :
    Except String (Option Value × ParseAccumulator) := do
  let p ← checkSentinel "FieldValue.delete()" ctx acc
  match acc.dataSource with
  | .mergeSet => .ok (none, acc.addToFieldMask p)
  | .update =>
      if p = [] then
        .error "FieldValue.delete() at the top level should have already been handled."
      else
        .error ("FieldValue.delete() can only appear at the top level of your update data" ++
          ctx.fieldDescription)
  | _ =>
      .error ("FieldValue.delete() can only be used with updateData() and setData() with merge:true"
        ++ ctx.fieldDescription)

def parseScalarValue (s : Scalar) (ctx : ParseContext) : Except String Value :=
  match s with
  | .null => .ok .null
  | .bool b => .ok (.bool b)
  | .number q => .ok (.number q)
  | .string s => .ok (.string s)
  | .timestamp t => .ok (.timestamp t)
  | .other name => .error ("Unsupported type: " ++ name ++ ctx.fieldDescription)

/-- Values put the path of their context into the mask, where there is one. -/
def addContextPath (ctx : ParseContext) (acc : ParseAccumulator) : ParseAccumulator :=
  match ctx.path with
  | none => acc
  | some p => acc.addToFieldMask p

mutual

/-- The parsed value, if the input was no sentinel. -/
def parseData : UserData → ParseContext → ParseAccumulator →
    Except String (Option Value × ParseAccumulator)
  | .dictionary fs, ctx, acc =>
      if fs.isEmpty then
        match ctx.path with
        | some (k :: p) => .ok (some (.map []), acc.addToFieldMask (k :: p))
        | _ => .ok (some (.map []), acc)
      else do
        let (d, acc) ← parseDictionary fs ctx [] acc
        .ok (some (.map d), acc)
  | .delete, ctx, acc => parseDelete ctx acc
  | .arrayUnion xs, ctx, acc => do
      let p ← checkSentinel "FieldValue.arrayUnion()" ctx acc
      let es ← parseArrayTransformElements xs ⟨.argument, [], []⟩
      .ok (none, acc.addToFieldTransforms p (.arrayUnion es))
  | .arrayRemove xs, ctx, acc => do
      let p ← checkSentinel "FieldValue.arrayRemove()" ctx acc
      let es ← parseArrayTransformElements xs ⟨.argument, [], []⟩
      .ok (none, acc.addToFieldTransforms p (.arrayRemove es))
  | .array xs, ctx, acc =>
      if ctx.arrayElement && acc.dataSource != .arrayArgument then
        .error "Nested arrays are not supported"
      else do
        let (vs, acc) ← parseArray xs (addContextPath ctx acc)
        .ok (some (.array vs), acc)
  | .scalar s, ctx, acc => do
      let v ← parseScalarValue s ctx
      .ok (some v, addContextPath ctx acc)

def parseDictionary : List (String × UserData) → ParseContext → Dict → ParseAccumulator →
    Except String (Dict × ParseAccumulator)
  | [], _, d, acc => .ok (d, acc)
  | (k, x) :: fs, ctx, d, acc => do
      let child ← ctx.childContext acc k
      let (v, acc) ← parseData x child acc
      parseDictionary fs ctx (match v with
        | some v => ObjectValue.set [k] v d
        | none => d) acc

/-- A sentinel, were it possible here, would count as null. -/
def parseArray : List UserData → ParseAccumulator → Except String (List Value × ParseAccumulator)
  | [], acc => .ok ([], acc)
  | x :: xs, acc => do
      let (v, acc) ← parseData x .arrayChild acc
      let (vs, acc) ← parseArray xs acc
      .ok (v.getD .null :: vs, acc)

/-- The elements are arguments of the call, not data that is written. -/
def parseArrayTransformElements : List UserData → ParseAccumulator → Except String (List Value)
  | [], _ => .ok []
  | x :: xs, acc => do
      let (v, acc) ← parseData x .arrayChild acc
      match v with
      | none => .error "Failed to properly parse array transform element"
      | some v =>
          if acc.fieldTransforms.isEmpty then do
            let vs ← parseArrayTransformElements xs acc
            .ok (v :: vs)
          else .error "Failed to properly parse array transform element"

end

/-! ## The three calls -/

structure ParsedSetData where
  data : Dict
  /-- Only of a merge. -/
  fieldMask : Option (List FieldPath)
  fieldTransforms : List FieldTransform

structure ParsedUpdateData where
  data : Dict
  fieldMask : List FieldPath
  fieldTransforms : List FieldTransform

def transformMutations (key : DocumentKey) (ts : List FieldTransform) : List Mutation :=
  if ts.isEmpty then [] else [.transform key ts]

def ParsedSetData.toMutations (d : ParsedSetData) (key : DocumentKey) (p : Precondition) :
    List Mutation :=
  (match d.fieldMask with
    | some mask => .patch key d.data mask p
    | none => .set key d.data p) :: transformMutations key d.fieldTransforms

def ParsedUpdateData.toMutations (d : ParsedUpdateData) (key : DocumentKey) (p : Precondition) :
    List Mutation :=
  .patch key d.data d.fieldMask p :: transformMutations key d.fieldTransforms

def notADictionary : String := "Data to be written must be an NSDictionary."

def parsedSetData : UserData → Except String ParsedSetData
  | .dictionary fs => do
      let (v, acc) ← parseData (.dictionary fs) .root ⟨.set, [], []⟩
      match v with
      | some (.map d) => .ok ⟨d, none, acc.fieldTransforms⟩
      | _ => .error "Parsed data should not be nil."
  | _ => .error notADictionary

/-- With no field mask of the caller's. -/
def parsedMergeData : UserData → Except String ParsedSetData
  | .dictionary fs => do
      let (v, acc) ← parseData (.dictionary fs) .root ⟨.mergeSet, [], []⟩
      match v with
      | some (.map d) => .ok ⟨d, some acc.fieldMask, acc.fieldTransforms⟩
      | _ => .error "Parsed data should not be nil."
  | _ => .error notADictionary

/-- Entry by entry; the keys are paths with dots. -/
def parseUpdates : List (String × UserData) → Dict → ParseAccumulator →
    Except String (Dict × ParseAccumulator)
  | [], d, acc => .ok (d, acc)
  | (key, x) :: fs, d, acc => do
      let p ← FieldPath.fromDotSeparatedString key
      match x with
      | .delete => parseUpdates fs d (acc.addToFieldMask p)
      | x =>
          let child ← ParseContext.root.childContextPath acc p
          let (v, acc) ← parseData x child acc
          match v with
          | some v => parseUpdates fs (ObjectValue.set p v d) (acc.addToFieldMask p)
          | none => parseUpdates fs d acc

def parsedUpdateData : UserData → Except String ParsedUpdateData
  | .dictionary fs => do
      let (d, acc) ← parseUpdates fs [] ⟨.update, [], []⟩
      .ok ⟨d, acc.fieldMask, acc.fieldTransforms⟩
  | _ => .error notADictionary

namespace DocumentReference

def setData (key : DocumentKey) (data : UserData) (merge : Bool) :
    Except String (List Mutation) := do
  let parsed ← if merge then parsedMergeData data else parsedSetData data
  .ok (parsed.toMutations key .none)

def updateData (key : DocumentKey) (fields : UserData) : Except String (List Mutation) := do
  let parsed ← parsedUpdateData fields
  .ok (parsed.toMutations key (.exists true))

def deleteDocument (key : DocumentKey) : List Mutation := [.delete key .none]

end DocumentReference

end GradeIo.Firestore
