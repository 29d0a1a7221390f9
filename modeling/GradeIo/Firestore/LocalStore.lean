import GradeIo.Firestore.Latency
import GradeIo.Firestore.MutationQueue

/-!
# The local store

`local_store.cc` and `local_documents_view.cc`: the documents that the backend
has sent or acknowledged, and the queue of the writes that are still pending. A
reader sees the cached document with the pending batches applied to it. `none`
stands for a failed assertion.

Queue and cache are those in memory. Left out are the targets of the watch
stream with their resume tokens, limbo documents, garbage collection, and the
base values of increments.
-/

namespace GradeIo.Firestore

open DocDb

/-- Documents with the time at which they were read. -/
abbrev RemoteDocumentCache := Std.ExtTreeMap DocumentKey (MaybeDocument × SnapshotVersion)

abbrev MaybeDocumentMap := Std.ExtTreeMap DocumentKey MaybeDocument

abbrev OptionalMaybeDocumentMap := Std.ExtTreeMap DocumentKey (Option MaybeDocument)

abbrev DocumentKeySet := Std.ExtTreeSet DocumentKey

structure LocalStore where
  mutationQueue : MemoryMutationQueue
  remoteDocumentCache : RemoteDocumentCache
  lastRemoteSnapshotVersion : SnapshotVersion

namespace MutationBatch

def keySet (b : MutationBatch) : DocumentKeySet := b.keys.foldl (fun s k => s.insert k) ∅

/-- The whole batch is applied once for each of its mutations. -/
def applyToLocalDocumentSet (b : MutationBatch) (documents : MaybeDocumentMap) : MaybeDocumentMap :=
  b.mutations.foldl (fun ds m =>
    match b.applyToLocalDocument m.key ds[m.key]? with
    | some d => ds.insert m.key d
    | none => ds) documents

end MutationBatch

/-- The version of each document: that of the last mutation of it. -/
def docVersions (b : MutationBatch) (results : List MutationResult) :
    Option (Std.ExtTreeMap DocumentKey SnapshotVersion) :=
  if b.mutations.length = results.length then
    some ((b.mutations.zip results).foldl (fun vs r => vs.insert r.1.key r.2.version) ∅)
  else none

namespace LocalStore

def initial : LocalStore := ⟨.initial, ∅, 0⟩

/-- `RemoteDocumentCache::Get`. -/
def get (s : LocalStore) (key : DocumentKey) : Option MaybeDocument :=
  s.remoteDocumentCache[key]?.map Prod.fst

/-! ## The view of the documents -/

def applyAll (batches : List MutationBatch) (key : DocumentKey) (doc : Option MaybeDocument) :
    Option MaybeDocument :=
  batches.foldl (fun d b => b.applyToLocalDocument key d) doc

def getDocument (s : LocalStore) (key : DocumentKey) : Option (Option MaybeDocument) := do
  let batches ← s.mutationQueue.allMutationBatchesAffectingDocumentKey key
  some (applyAll batches key (s.get key))

def getLocalViewOfDocuments (s : LocalStore) (baseDocs : OptionalMaybeDocumentMap) :
    Option MaybeDocumentMap := do
  let batches ← s.mutationQueue.allMutationBatchesAffectingDocumentKeys baseDocs.keys
  some (baseDocs.map fun key base => (applyAll batches key base).getD (.noDocument 0 false))

def getDocuments (s : LocalStore) (keys : DocumentKeySet) : Option MaybeDocumentMap :=
  s.getLocalViewOfDocuments (keys.toList.foldl (fun m k => m.insert k (s.get k)) ∅)

/-! ## Writes -/

def writeLocally (s : LocalStore) (mutations : List Mutation) :
    Option ((Int × MaybeDocumentMap) × LocalStore) := do
  let keys : DocumentKeySet := mutations.foldl (fun ks m => ks.insert m.key) ∅
  let existingDocuments ← s.getDocuments keys
  let (batch, queue) ← s.mutationQueue.addMutationBatch mutations
  some ((batch.batchId, batch.applyToLocalDocumentSet existingDocuments),
    { s with mutationQueue := queue })

/-- What a write that is acknowledged makes of one document of it. -/
def applyBatchResultTo (batch : MutationBatch) (commitVersion : SnapshotVersion)
    (results : List MutationResult) (versions : Std.ExtTreeMap DocumentKey SnapshotVersion)
    (cache : RemoteDocumentCache) (key : DocumentKey) : Option RemoteDocumentCache := do
  let remoteDoc := cache[key]?.map Prod.fst
  let ackVersion ← versions[key]?
  if remoteDoc.all fun d => decide (d.version < ackVersion) then
    match ← batch.applyToRemoteDocument key results remoteDoc with
    | none => if remoteDoc.isSome then none else some cache
    | some d => some (cache.insert key (d, commitVersion))
  else some cache

def applyBatchResult (s : LocalStore) (batch : MutationBatch) (commitVersion : SnapshotVersion)
    (results : List MutationResult) : Option LocalStore := do
  let versions ← docVersions batch results
  let cache ← batch.keySet.toList.foldlM
    (applyBatchResultTo batch commitVersion results versions) s.remoteDocumentCache
  let queue ← s.mutationQueue.removeMutationBatch batch
  some { s with mutationQueue := queue, remoteDocumentCache := cache }

def acknowledgeBatch (s : LocalStore) (batch : MutationBatch) (commitVersion : SnapshotVersion)
    (results : List MutationResult) : Option (MaybeDocumentMap × LocalStore) := do
  let queue ← s.mutationQueue.acknowledgeBatch batch
  let s ← { s with mutationQueue := queue }.applyBatchResult batch commitVersion results
  if s.mutationQueue.performConsistencyCheck then
    let changes ← s.getDocuments batch.keySet
    some (changes, s)
  else none

def rejectBatch (s : LocalStore) (batchId : Int) : Option (MaybeDocumentMap × LocalStore) := do
  let toReject ← (← s.mutationQueue.lookupMutationBatch batchId)
  let queue ← s.mutationQueue.removeMutationBatch toReject
  let s := { s with mutationQueue := queue }
  if s.mutationQueue.performConsistencyCheck then
    let changes ← s.getDocuments toReject.keySet
    some (changes, s)
  else none

def getNextMutationBatch (s : LocalStore) (batchId : Int) : Option MutationBatch :=
  s.mutationQueue.nextMutationBatchAfterBatchId batchId

/-! ## Documents from the backend -/

/-- One document of an event: it is removed if access to it was lost, and
replaces an older one, or one that only a write has made. -/
def applyUpdate (snapshotVersion : SnapshotVersion) (existing : RemoteDocumentCache)
    (acc : RemoteDocumentCache × OptionalMaybeDocumentMap) (update : DocumentKey × MaybeDocument) :
    Option (RemoteDocumentCache × OptionalMaybeDocumentMap) :=
  let (key, doc) := update
  let (cache, changedDocs) := acc
  match doc with
  | .noDocument 0 _ => some (cache.erase key, changedDocs.insert key (some doc))
  | _ =>
      if existing[key]?.all fun e => decide (e.1.version < doc.version) ||
          (decide (doc.version = e.1.version) && e.1.hasPendingWrites) then
        if snapshotVersion = 0 then none
        else some (cache.insert key (doc, snapshotVersion), changedDocs.insert key (some doc))
      else some (cache, changedDocs)

/-- The documents of an event have distinct keys. Version `0` is that of a made-up event. -/
def applyRemoteEvent (s : LocalStore) (snapshotVersion : SnapshotVersion)
    (documentUpdates : List (DocumentKey × MaybeDocument)) :
    Option (MaybeDocumentMap × LocalStore) := do
  let (cache, changedDocs) ← documentUpdates.foldlM
    (applyUpdate snapshotVersion s.remoteDocumentCache) (s.remoteDocumentCache, ∅)
  let last ←
    if snapshotVersion = 0 then some s.lastRemoteSnapshotVersion
    else if s.lastRemoteSnapshotVersion ≤ snapshotVersion then some snapshotVersion
    else none
  let s := { s with remoteDocumentCache := cache, lastRemoteSnapshotVersion := last }
  let changes ← s.getLocalViewOfDocuments changedDocs
  some (changes, s)

end LocalStore

end GradeIo.Firestore
