import GradeIo.Firestore.Mutation

/-!
# The write stream

`stream.cc` and `write_stream.cc`: the states of the connection over which
writes are sent, with its timers, the tokens that it has asked for, and the
requests that the backend has not answered yet. `none` stands for a failed
assertion. `Close` is in `SyncEngine`, since it calls back to the remote store.

Of a status only the code is kept. Left out are the lengths of the delays, the
stream token, and the empty request before a graceful stop.
-/

namespace GradeIo.Firestore

/-- `firestore_errors.h`. -/
inductive Code where
  | ok
  | cancelled
  | unknown
  | invalidArgument
  | deadlineExceeded
  | notFound
  | alreadyExists
  | permissionDenied
  | resourceExhausted
  | failedPrecondition
  | aborted
  | outOfRange
  | unimplemented
  | internal
  | unavailable
  | dataLoss
  | unauthenticated
deriving DecidableEq, Repr

namespace Datastore

def isPermanentError : Code → Option Bool
  | .ok => none
  | .cancelled | .unknown | .deadlineExceeded | .resourceExhausted | .internal | .unavailable
  | .unauthenticated => some false
  | .invalidArgument | .notFound | .alreadyExists | .permissionDenied | .failedPrecondition
  | .aborted | .outOfRange | .unimplemented | .dataLoss => some true

def isPermanentWriteError (error : Code) : Option Bool :=
  (isPermanentError error).map fun permanent => permanent && error != .aborted

end Datastore

inductive StreamState where
  | initial
  | starting
  | opened
  | error
  | backoff
deriving DecidableEq, Repr

inductive WriteRequest where
  | handshake
  | mutations (ms : List Mutation)

structure WriteStream where
  state : StreamState
  closeCount : Nat
  idlenessTimer : Bool
  /-- The delayed operation of `backoff_`. -/
  backoffTimer : Bool
  /-- The close counts at which a token was asked for. -/
  tokenRequests : List Nat
  /-- What was written to it and not answered yet. -/
  grpcStream : Option (List WriteRequest)
  handshakeComplete : Bool

namespace WriteStream

def initial : WriteStream := ⟨.initial, 0, false, false, [], none, false⟩

def isOpen (w : WriteStream) : Bool := w.state == .opened

def isStarted (w : WriteStream) : Bool :=
  w.state == .starting || w.state == .backoff || w.isOpen

def requestCredentials (w : WriteStream) : WriteStream :=
  { w with tokenRequests := w.tokenRequests ++ [w.closeCount] }

def backoffAndTryRestarting (w : WriteStream) : Option WriteStream :=
  if w.state = .error then some { w with state := .backoff, backoffTimer := true } else none

def start (w : WriteStream) : Option WriteStream :=
  if w.state = .error then w.backoffAndTryRestarting
  else if w.state = .initial then some { w with state := .starting }.requestCredentials
  else none

/-- The operation of the backoff timer. -/
def backoffElapsed (w : WriteStream) : Option WriteStream :=
  if w.state = .backoff then
    let w := { w with state := .initial, backoffTimer := false }
    w.start.filter WriteStream.isStarted
  else none

def inhibitBackoff (w : WriteStream) : Option WriteStream :=
  if w.isStarted then none else some { w with state := .initial }

def markIdle (w : WriteStream) : WriteStream :=
  if w.isOpen && !w.idlenessTimer then { w with idlenessTimer := true } else w

def write (w : WriteStream) (request : WriteRequest) : Option WriteStream :=
  match w.grpcStream with
  | none => none
  | some requests =>
      if w.isOpen then
        some { w with idlenessTimer := false, grpcStream := some (requests ++ [request]) }
      else none

def writeHandshake (w : WriteStream) : Option WriteStream :=
  if w.isOpen && !w.handshakeComplete then w.write .handshake else none

def writeMutations (w : WriteStream) (ms : List Mutation) : Option WriteStream :=
  if w.isOpen && w.handshakeComplete then w.write (.mutations ms) else none

/-- Steps 2 to 7 of `Close`, up to the notification. -/
def shut (w : WriteStream) (status : Code) : WriteStream :=
  { w with
    idlenessTimer := false
    backoffTimer := false
    closeCount := w.closeCount + 1
    grpcStream := none
    state := if status = .ok then .initial else .error }

end WriteStream

end GradeIo.Firestore
