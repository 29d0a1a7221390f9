import GradeIo.Firestore.LocalStore
import GradeIo.Firestore.WriteStream
import GradeIo.Lib.Transition

/-!
# Sending the writes

The parts of `sync_engine.cc` and `remote_store.cc` for writes: a write goes to
the local store and from there, in its turn, into the pipeline of the writes that
are sent; the answers of the backend come back to the local store and to the
callbacks of the caller. Everything runs on one queue, so that the steps of a run
are the operations of `Event` in any order. `none` stands for a failed assertion.

Left out are the watch stream, of which only the documents of its events come in
(`remoteEvent`), the snapshots for the listeners, changes of the user, and
transactions.
-/

namespace GradeIo.Firestore

/-- A callback of the application. -/
abbrev Callback := Nat

/-- A call of one of them. -/
inductive Notice where
  | mutation (callback : Callback) (status : Code)
  | pendingWrites (callback : Callback) (status : Code)
deriving DecidableEq

structure WriteResponse where
  commitVersion : SnapshotVersion
  results : List MutationResult

structure RemoteStore where
  isNetworkEnabled : Bool
  writePipeline : List MutationBatch
  writeStream : WriteStream

structure SyncEngine where
  localStore : LocalStore
  remoteStore : RemoteStore
  mutationCallbacks : Std.ExtTreeMap Int Callback
  pendingWritesCallbacks : Std.ExtTreeMap Int (List Callback)
  /-- The calls made so far. -/
  notices : List Notice

/-! ## The pipeline -/

namespace RemoteStore

def kMaxPendingWrites : Nat := 10

def canUseNetwork (r : RemoteStore) : Bool := r.isNetworkEnabled

def canAddToWritePipeline (r : RemoteStore) : Bool :=
  r.canUseNetwork && decide (r.writePipeline.length < kMaxPendingWrites)

def shouldStartWriteStream (r : RemoteStore) : Bool :=
  r.canUseNetwork && !r.writeStream.isStarted && !r.writePipeline.isEmpty

def startWriteStream (r : RemoteStore) : Option RemoteStore :=
  if r.shouldStartWriteStream then
    r.writeStream.start.map fun w => { r with writeStream := w }
  else none

def startIfNeeded (r : RemoteStore) : Option RemoteStore :=
  if r.shouldStartWriteStream then r.startWriteStream else some r

def addToWritePipeline (r : RemoteStore) (batch : MutationBatch) : Option RemoteStore :=
  if r.canAddToWritePipeline then
    let r := { r with writePipeline := r.writePipeline ++ [batch] }
    if r.writeStream.isOpen && r.writeStream.handshakeComplete then
      (r.writeStream.writeMutations batch.mutations).map fun w => { r with writeStream := w }
    else some r
  else none

/-- The loop, for the slots that are free. -/
def fillSlots (getNextMutationBatch : Int → Option MutationBatch) :
    Nat → Int → RemoteStore → Option RemoteStore
  | 0, _, r => some r
  | slots + 1, lastBatchIdRetrieved, r =>
      if r.canAddToWritePipeline then
        match getNextMutationBatch lastBatchIdRetrieved with
        | none =>
            if r.writePipeline.isEmpty then some { r with writeStream := r.writeStream.markIdle }
            else some r
        | some batch =>
            (r.addToWritePipeline batch).bind
              (fillSlots getNextMutationBatch slots batch.batchId)
      else some r

def fillWritePipeline (r : RemoteStore) (getNextMutationBatch : Int → Option MutationBatch) :
    Option RemoteStore := do
  let lastBatchIdRetrieved := r.writePipeline.getLast?.elim (-1) MutationBatch.batchId
  let r ← fillSlots getNextMutationBatch (kMaxPendingWrites - r.writePipeline.length)
    lastBatchIdRetrieved r
  r.startIfNeeded

def onWriteStreamOpen (r : RemoteStore) : Option RemoteStore :=
  r.writeStream.writeHandshake.map fun w => { r with writeStream := w }

def onWriteStreamHandshakeComplete (r : RemoteStore) : Option RemoteStore :=
  (r.writePipeline.foldlM (fun (w : WriteStream) b => w.writeMutations b.mutations)
    r.writeStream).map fun w => { r with writeStream := w }

/-- A permanent error only resets the stream token. -/
def handleHandshakeError (r : RemoteStore) (status : Code) : Option RemoteStore :=
  (Datastore.isPermanentError status).map fun _ => r

end RemoteStore

namespace SyncEngine

def initial : SyncEngine := ⟨.initial, ⟨false, [], .initial⟩, ∅, ∅, []⟩

def fillWritePipeline (s : SyncEngine) : Option SyncEngine :=
  (s.remoteStore.fillWritePipeline s.localStore.getNextMutationBatch).map
    fun r => { s with remoteStore := r }

/-! ## Outcomes of writes -/

def notifyUser (s : SyncEngine) (batchId : Int) (status : Code) : SyncEngine :=
  match s.mutationCallbacks[batchId]? with
  | none => s
  | some callback => { s with
      mutationCallbacks := s.mutationCallbacks.erase batchId
      notices := s.notices ++ [.mutation callback status] }

def triggerPendingWriteCallbacks (s : SyncEngine) (batchId : Int) : SyncEngine :=
  match s.pendingWritesCallbacks[batchId]? with
  | none => s
  | some callbacks => { s with
      pendingWritesCallbacks := s.pendingWritesCallbacks.erase batchId
      notices := s.notices ++ callbacks.map fun c => .pendingWrites c .ok }

/-- Calls the callbacks before the local store is asked. -/
def handleSuccessfulWrite (s : SyncEngine) (batch : MutationBatch) (response : WriteResponse) :
    Option SyncEngine := do
  let s := (s.notifyUser batch.batchId .ok).triggerPendingWriteCallbacks batch.batchId
  let (_, localStore) ← s.localStore.acknowledgeBatch batch response.commitVersion response.results
  some { s with localStore }

/-- Calls them afterwards. -/
def handleRejectedWrite (s : SyncEngine) (batchId : Int) (error : Code) : Option SyncEngine := do
  let (_, localStore) ← s.localStore.rejectBatch batchId
  some (({ s with localStore }.notifyUser batchId error).triggerPendingWriteCallbacks batchId)

/-! ## The write stream calls back -/

/-- The first write of the pipeline is gone. -/
def dropFirst (s : SyncEngine) (rest : List MutationBatch) : SyncEngine :=
  { s with remoteStore := { s.remoteStore with writePipeline := rest } }

def onWriteStreamMutationResult (s : SyncEngine) (response : WriteResponse) : Option SyncEngine :=
  match s.remoteStore.writePipeline with
  | [] => none
  | batch :: rest => do
      let s ← (s.dropFirst rest).handleSuccessfulWrite batch response
      s.fillWritePipeline

/-- Only permanent errors are the fault of the first write. -/
def handleWriteError (s : SyncEngine) (status : Code) : Option SyncEngine := do
  if ← Datastore.isPermanentWriteError status then
    match s.remoteStore.writePipeline with
    | [] => none
    | batch :: rest => do
        let s := s.dropFirst rest
        let w ← s.remoteStore.writeStream.inhibitBackoff
        let s := { s with remoteStore := { s.remoteStore with writeStream := w } }
        let s ← s.handleRejectedWrite batch.batchId status
        s.fillWritePipeline
  else some s

def startIfNeeded (s : SyncEngine) : Option SyncEngine :=
  s.remoteStore.startIfNeeded.map fun r => { s with remoteStore := r }

def onWriteStreamClose (s : SyncEngine) (status : Code) : Option SyncEngine := do
  if status = .ok then
    -- a graceful stop must have been desirable
    if s.remoteStore.shouldStartWriteStream then none else s.startIfNeeded
  else if s.remoteStore.writePipeline.isEmpty then s.startIfNeeded
  else if s.remoteStore.writeStream.handshakeComplete then
    let s ← s.handleWriteError status
    s.startIfNeeded
  else
    let r ← s.remoteStore.handleHandshakeError status
    { s with remoteStore := r }.startIfNeeded

def setStream (s : SyncEngine) (w : WriteStream) : SyncEngine :=
  { s with remoteStore := { s.remoteStore with writeStream := w } }

/-- The handshake is forgotten after the remote store was told. -/
def notifyStreamClose (s : SyncEngine) (status : Code) : Option SyncEngine := do
  let s ← s.onWriteStreamClose status
  some (s.setStream { s.remoteStore.writeStream with handshakeComplete := false })

def close (s : SyncEngine) (status : Code) : Option SyncEngine :=
  if s.remoteStore.writeStream.isStarted then
    (s.setStream (s.remoteStore.writeStream.shut status)).notifyStreamClose status
  else if status = .ok then some s
  else none

def stop (s : SyncEngine) : Option SyncEngine := s.close .ok

/-! ## Network -/

def enableNetwork (s : SyncEngine) : Option SyncEngine :=
  { s with remoteStore := { s.remoteStore with isNetworkEnabled := true } }.fillWritePipeline

def disableNetworkInternal (s : SyncEngine) : Option SyncEngine := do
  let s ← s.stop
  some (s.dropFirst [])

def disableNetwork (s : SyncEngine) : Option SyncEngine :=
  { s with remoteStore := { s.remoteStore with isNetworkEnabled := false } }.disableNetworkInternal

def restartNetwork (s : SyncEngine) : Option SyncEngine := do
  let s ← s.disableNetwork
  let w ← s.remoteStore.writeStream.inhibitBackoff
  (s.setStream w).enableNetwork

/-- Also what is done when the connection comes back. -/
def handleCredentialChange (s : SyncEngine) : Option SyncEngine :=
  if s.remoteStore.canUseNetwork then s.restartNetwork else some s

/-! ## Events of the stream -/

def resumeStartWithCredentials (s : SyncEngine) (status : Code) : Option SyncEngine :=
  let w := s.remoteStore.writeStream
  if w.state = .starting then
    if status = .ok then
      ({ s.remoteStore with
          writeStream := { w with state := .opened, grpcStream := some [] } }).onWriteStreamOpen.map
        fun r => { s with remoteStore := r }
    else s.close status
  else none

/-- A token that was asked for before the stream was closed is ignored. -/
def onToken (s : SyncEngine) (i : Nat) (status : Code) : Option SyncEngine :=
  let w := s.remoteStore.writeStream
  match w.tokenRequests[i]? with
  | none => some s
  | some initialCloseCount =>
      let s := s.setStream { w with tokenRequests := w.tokenRequests.eraseIdx i }
      if w.closeCount = initialCloseCount then s.resumeStartWithCredentials status else some s

def notifyStreamResponse (s : SyncEngine) (response : WriteResponse) : Option SyncEngine :=
  let w := s.remoteStore.writeStream
  if w.handshakeComplete then s.onWriteStreamMutationResult response
  else
    { s.remoteStore with
        writeStream := { w with handshakeComplete := true } }.onWriteStreamHandshakeComplete.map
      fun r => { s with remoteStore := r }

/-- The first request is answered. -/
def onStreamRead (s : SyncEngine) (response : WriteResponse) : Option SyncEngine :=
  let w := s.remoteStore.writeStream
  if w.isStarted then
    (s.setStream { w with grpcStream := w.grpcStream.map List.tail }).notifyStreamResponse response
  else none

def onBackoffElapsed (s : SyncEngine) : Option SyncEngine :=
  s.remoteStore.writeStream.backoffElapsed.map s.setStream

/-! ## Calls of the application -/

def writeMutations (s : SyncEngine) (mutations : List Mutation) (callback : Callback) :
    Option SyncEngine := do
  let ((batchId, _), localStore) ← s.localStore.writeLocally mutations
  { s with
    localStore
    mutationCallbacks := s.mutationCallbacks.insertIfNew batchId callback }.fillWritePipeline

def registerPendingWritesCallback (s : SyncEngine) (callback : Callback) : SyncEngine :=
  let largestPendingBatchId := s.localStore.mutationQueue.getHighestUnacknowledgedBatchId
  if largestPendingBatchId = -1 then
    { s with notices := s.notices ++ [.pendingWrites callback .ok] }
  else
    { s with
      pendingWritesCallbacks := s.pendingWritesCallbacks.insert largestPendingBatchId
        (s.pendingWritesCallbacks[largestPendingBatchId]?.getD [] ++ [callback]) }

def applyRemoteEvent (s : SyncEngine) (snapshotVersion : SnapshotVersion)
    (documentUpdates : List (DocumentKey × MaybeDocument)) : Option SyncEngine := do
  let (_, localStore) ← s.localStore.applyRemoteEvent snapshotVersion documentUpdates
  some { s with localStore }

end SyncEngine

/-! ## Runs -/

inductive Event where
  | writeMutations (mutations : List Mutation) (callback : Callback)
  | registerPendingWritesCallback (callback : Callback)
  | enableNetwork
  | disableNetwork
  | handleCredentialChange
  /-- One of the tokens that were asked for arrives, or an error in its place. -/
  | token (i : Nat) (status : Code)
  | streamRead (response : WriteResponse)
  /-- The backend or the connection ends the stream. -/
  | streamFinish (status : Code)
  | idleTimeout
  | backoffElapsed
  | remoteEvent (snapshotVersion : SnapshotVersion)
      (documentUpdates : List (DocumentKey × MaybeDocument))

def SyncEngine.step (s : SyncEngine) : Event → Option SyncEngine
  | .writeMutations ms callback => s.writeMutations ms callback
  | .registerPendingWritesCallback callback => some (s.registerPendingWritesCallback callback)
  | .enableNetwork => s.enableNetwork
  | .disableNetwork => s.disableNetwork
  | .handleCredentialChange => s.handleCredentialChange
  | .token i status => s.onToken i status
  | .streamRead response => s.onStreamRead response
  | .streamFinish status => s.close status
  | .idleTimeout => s.stop
  | .backoffElapsed => s.onBackoffElapsed
  | .remoteEvent v updates => s.applyRemoteEvent v updates

def SyncEngine.system : Transition.System SyncEngine Event where
  Init s := s = .initial
  step := SyncEngine.step

end GradeIo.Firestore
