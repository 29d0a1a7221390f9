import GradeIo.Lib.DocStore
import GradeIo.Lib.Nested

/-!
# Mutations of the Firestore client

The client under `Pods/FirebaseFirestore`: documents as the client knows them
(`maybe_document.h` and its three classes), preconditions, the four mutations
and their batches. Of the transforms the two on arrays are modelled, which have
no base value; documents carry no key, since they are kept under it.

A mutation is applied twice: to the local view, as long as it is pending, and to
the cached document, when the backend has acknowledged it. The methods of the
second kind are `none` where an assertion fails.
-/

namespace GradeIo.Firestore

open DocDb Keyed

/-- A document key is a path of an even number of segments. -/
abbrev DocumentKey := List String

/-- Versions are ordered; `0` is `SnapshotVersion::None()`. -/
abbrev SnapshotVersion := Nat

inductive DocumentState where
  | localMutations
  | committedMutations
  | synced
deriving DecidableEq, Repr

inductive MaybeDocument where
  | document (data : Dict) (version : SnapshotVersion) (state : DocumentState)
  | noDocument (version : SnapshotVersion) (hasCommittedMutations : Bool)
  | unknownDocument (version : SnapshotVersion)
deriving DecidableEq

namespace MaybeDocument

def version : MaybeDocument → SnapshotVersion
  | document _ v _ => v
  | noDocument v _ => v
  | unknownDocument v => v

def isDocument : MaybeDocument → Bool
  | document _ _ _ => true
  | _ => false

def hasPendingWrites : MaybeDocument → Bool
  | document _ _ state => state != .synced
  | noDocument _ hasCommittedMutations => hasCommittedMutations
  | unknownDocument _ => true

/-- The fields, if the document exists. -/
def data? : MaybeDocument → Option Dict
  | document d _ _ => some d
  | _ => none

end MaybeDocument

/-- What a reader of the document sees. -/
def content (doc : Option MaybeDocument) : Option Dict := doc.bind MaybeDocument.data?

/-! ## Preconditions -/

inductive Precondition where
  | none
  | exists (value : Bool)
  | updateTime (version : SnapshotVersion)
deriving DecidableEq

def Precondition.isValidFor (p : Precondition) (doc : Option MaybeDocument) : Bool :=
  match p with
  | .updateTime v => doc.any fun d => d.isDocument && d.version == v
  | .exists value => value == doc.any MaybeDocument.isDocument
  | .none => true

/-! ## Transforms -/

inductive TransformOperation where
  | arrayUnion (elements : List Value)
  | arrayRemove (elements : List Value)
deriving DecidableEq

/-- The local and the remote application are the same. The client also tells an
Integer from the Double of the same value, and keeps both. -/
def TransformOperation.apply (op : TransformOperation) (previous : Option Value) : Value :=
  match op with
  | arrayUnion es => .array (es.foldl addIfAbsent (elements previous))
  | arrayRemove es => .array (es.foldl List.erase (elements previous))

structure FieldTransform where
  path : FieldPath
  transformation : TransformOperation
deriving DecidableEq

/-- The results are computed first, all from the same document. -/
def transformObject (object : Dict) (ts : List FieldTransform) (results : List Value) : Dict :=
  (ts.zip results).foldl (fun d r => ObjectValue.set r.1.path r.2 d) object

/-! ## Mutations -/

inductive Mutation where
  | set (key : DocumentKey) (value : Dict) (precondition : Precondition)
  | patch (key : DocumentKey) (value : Dict) (mask : List FieldPath) (precondition : Precondition)
  | delete (key : DocumentKey) (precondition : Precondition)
  | transform (key : DocumentKey) (fieldTransforms : List FieldTransform)
deriving DecidableEq

structure MutationResult where
  version : SnapshotVersion
  transformResults : Option (List Value)

namespace Mutation

def key : Mutation → DocumentKey
  | set k _ _ => k
  | patch k _ _ _ => k
  | delete k _ => k
  | transform k _ => k

/-- A transform applies to documents that exist. -/
def precondition : Mutation → Precondition
  | set _ _ p => p
  | patch _ _ _ p => p
  | delete _ p => p
  | transform _ _ => .exists true

/-- Every path of the mask is set to its value, or cleared if it has none. -/
def patchObject (value : Dict) (mask : List FieldPath) (obj : Dict) : Dict :=
  mask.foldl (fun obj path =>
    if path = [] then obj
    else
      match ObjectValue.get path value with
      | none => ObjectValue.delete path obj
      | some newValue => ObjectValue.set path newValue obj) obj

def patchDocument (value : Dict) (mask : List FieldPath) (doc : Option MaybeDocument) : Dict :=
  patchObject value mask ((content doc).getD [])

def getPostMutationVersion : Option MaybeDocument → SnapshotVersion
  | some (.document _ v _) => v
  | _ => 0

/-- The value before the transform: that of the document, or the one before
the whole batch. -/
def localPrevious (path : FieldPath) (doc baseDoc : Option MaybeDocument) : Option Value :=
  ((content doc).bind (ObjectValue.get path)).or ((content baseDoc).bind (ObjectValue.get path))

def applyToLocalView (m : Mutation) (doc baseDoc : Option MaybeDocument) : Option MaybeDocument :=
  if m.precondition.isValidFor doc then
    match m with
    | set _ value _ => some (.document value (getPostMutationVersion doc) .localMutations)
    | patch _ value mask _ =>
        some (.document (patchDocument value mask doc) (getPostMutationVersion doc)
          .localMutations)
    | delete _ _ => some (.noDocument 0 false)
    | transform _ ts =>
        match doc with
        | some (.document d v _) =>
            some (.document (transformObject d ts (ts.map fun t =>
              t.transformation.apply (localPrevious t.path doc baseDoc))) v .localMutations)
        | _ => doc
  else doc

/-- What the backend has accepted met its precondition there: where it does not
here, the cached document is not the backend's. -/
def applyToRemoteDocument (m : Mutation) (doc : Option MaybeDocument) (r : MutationResult) :
    Option MaybeDocument :=
  match m with
  | set _ value _ =>
      if r.transformResults.isSome then none
      else some (.document value r.version .committedMutations)
  | patch _ value mask p =>
      if r.transformResults.isSome then none
      else if p.isValidFor doc then
        some (.document (patchDocument value mask doc) r.version .committedMutations)
      else some (.unknownDocument r.version)
  | delete _ _ =>
      if r.transformResults.isSome then none
      else some (.noDocument r.version true)
  | transform _ ts =>
      match r.transformResults with
      | none => none
      | some results =>
          match doc with
          | some (.document d _ _) =>
              if results.length = ts.length then
                some (.document (transformObject d ts (ts.map fun t =>
                  t.transformation.apply (ObjectValue.get t.path d))) r.version
                  .committedMutations)
              else none
          | _ => some (.unknownDocument r.version)

end Mutation

/-! ## Batches -/

structure MutationBatch where
  /-- Ids are positive; `-1` is `kBatchIdUnknown`. -/
  batchId : Int
  mutations : List Mutation
deriving DecidableEq

namespace MutationBatch

def applyToLocalDocument (b : MutationBatch) (key : DocumentKey) (baseDoc : Option MaybeDocument) :
    Option MaybeDocument :=
  b.mutations.foldl
    (fun doc m => if m.key = key then m.applyToLocalView doc baseDoc else doc) baseDoc

/-- One result for each mutation; `none` where an assertion fails. -/
def applyToRemoteDocument (b : MutationBatch) (key : DocumentKey) (results : List MutationResult)
    (doc : Option MaybeDocument) : Option (Option MaybeDocument) :=
  if results.length = b.mutations.length then
    (b.mutations.zip results).foldlM
      (fun doc (m, r) =>
        if m.key = key then (m.applyToRemoteDocument doc r).map some else some doc) doc
  else none

def keys (b : MutationBatch) : List DocumentKey := b.mutations.map Mutation.key

end MutationBatch

end GradeIo.Firestore
