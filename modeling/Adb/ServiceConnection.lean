import Adb.StoppingPrograms
import Adb.SyncTransfers

/-!
The client connected to the sync service: the commands of `adb push` and `adb
pull`, file_sync_client.cpp.  The service has handled everything that the client
has written; whether a write to the socket succeeds is given from outside.
-/

namespace Adb.ServiceConnection

open Adb.DescriptorIo
open Adb.ExactConsumers
open Adb.StoppingPrograms
open Adb.SyncClient
open Adb.SyncMessages
open Adb.SyncService
open Adb.SyncTransfers
open Adb.WirePackets

/-- The moment at which a request header is written: where the service is, and
what the client has not read.  `earlier` counts the requests of the same batch
that were written before, when the answers are read together afterwards. -/
structure Request where
  id : Nat
  phase : Phase
  buffer : Bytes
  unread : Bytes
  earlier : Nat
  deriving DecidableEq, Repr

/-- A `SyncConnection` with the service at its other end.  `written` is what the
client has sent so far, and `broken` says that a write to the socket failed. -/
structure Session where
  service : Progress Service UInt8
  written : Bytes
  haveStatV2 : Bool
  expectDone : Bool
  broken : Bool
  calls : Nat
  requests : List Request

/-- A client that stops waits for bytes that do not come, or has exited. -/
abbrev Client := Program Session

variable (env : Nat → Answers) (world : World)

/-- The answer to the next call on the client's machine. -/
def ask {α : Type} (answer : Nat → α) : Client α := do
  let s ← get
  modify fun s => { s with calls := s.calls + 1 }
  pure (answer s.calls)

def haveStatV2 : Client Bool := do
  let s ← get
  pure s.haveStatV2

def expectDone : Client Bool := do
  let s ← get
  pure s.expectDone

def setExpectDone (expected : Bool) : Client PUnit :=
  modify fun s => { s with expectDone := expected }

/-- `WriteFdExactly` on the socket. -/
def Session.write (s : Session) (ok : Bool) (bytes : Bytes) : Session :=
  if ok && !s.broken then
    { s with
      service := (fileSyncService env).feed s.service bytes
      written := s.written ++ bytes }
  else { s with broken := true }

def writeFdExactly (bytes : Bytes) : Client Bool := do
  let ok ← ask world.sent
  let s ← get
  modify fun s => s.write env ok bytes
  pure (ok && !s.broken)

/-- A write that starts with a request header. -/
def Session.noteRequest (s : Session) (ok : Bool) (id : Nat) (earlier : Nat) : Session :=
  if ok && !s.broken then
    { s with
      requests := s.requests ++
        [⟨id, s.service.state.phase, s.service.buffer, s.service.state.out, earlier⟩] }
  else s

def writeRequest (id : Nat) (earlier : Nat) (bytes : Bytes) : Client Bool := do
  let ok ← ask world.sent
  let s ← get
  modify fun s => (s.noteRequest ok id earlier).write env ok bytes
  pure (ok && !s.broken)

def Session.setOut (s : Session) (out : Bytes) : Session :=
  { s with service := { s.service with state := { s.service.state with out := out } } }

/-- `ReadFdExactly` on the socket.  It fails at the end of the stream, and
waits while the service may still write. -/
def readFdExactly (n : Nat) : Client (Option Bytes) := do
  let s ← get
  let out := s.service.state.out
  if n ≤ out.length then
    modify fun s => s.setOut (out.drop n)
    pure (some (out.take n))
  else if s.broken ∨ s.service.state.phase = .ended then
    modify fun s => s.setOut []
    pure none
  else throw ()

def receivedError : Client Bool := do
  let answer ← ask world.polled
  let s ← get
  match answer with
  | .failed => pure true
  | .seen => pure (s.service.state.out ≠ [] ∨ s.service.state.phase = .ended ∨ s.broken)
  | .quiet => pure false

/-- What the service has written bounds the rounds of a loop that reads it. -/
def rounds : Client Nat := do
  let s ← get
  pure (s.service.state.out.length + 1)

abbrev connection : SyncConnection Client where
  haveStatV2 := haveStatV2
  readFdExactly := readFdExactly
  writeRequest := writeRequest env world
  errnoFromWire := world.errnoFromWire
  exit := throw ()

abbrev localMachine : LocalMachine Client where
  world := world
  ask := ask
  outOfDepth := throw ()

abbrev pushing : SyncPush Client where
  toSyncConnection := connection env world
  toLocalMachine := localMachine world
  writeFdExactly := writeFdExactly env world
  receivedError := receivedError world
  expectDone := expectDone
  setExpectDone := setExpectDone

abbrev pulling : SyncPull Client where
  toSyncConnection := connection env world
  dirname := world.dirname
  basename := world.basename
  mkdirs _ := ask world.madeDirs
  unlink _ := pure ⟨⟩
  creat _ := ask world.created
  write _ := ask world.written
  setTimeAndMode := ask world.setTimeAndMode
  noteName _ := pure ⟨⟩
  rounds := rounds
  outOfRounds := throw ()

/-! ## `do_sync_push` and `do_sync_pull` -/

/-- Where a source goes in a directory of the other machine. -/
def inDirectory (dst src : Bytes) : Bytes := withSeparator dst ++ world.basename src

/-- The loop of `do_sync_push`. -/
def pushEach (depth : Nat) (dst : Bytes) (dstExists dstIsdir sync : Bool) :
    List Bytes → Client Bool
  | [] => pure true
  | src :: srcs => do
      let st ← ask fun n => world.stat n src
      match st with
      | .error _ =>
          let _ ← pushEach depth dst dstExists dstIsdir sync srcs
          pure false
      | .ok info =>
          if sIsDir info.mode then
            if dstExists && !dstIsdir then pure false
            else
              let dstDir := if dstExists then inDirectory world dst src else dst
              let ok ← copyLocalDirRemote (pushing env world) depth src dstDir sync false
              let rest ← pushEach depth dst dstExists dstIsdir sync srcs
              pure (ok && rest)
          else if shouldPushFile info.mode then
            let dstPath := if dstIsdir then inDirectory world dst src else dst
            let ok ← (pushing env world).syncSend src dstPath (info.mtime % 2 ^ 32) info.mode sync
            let rest ← pushEach depth dst dstExists dstIsdir sync srcs
            pure (ok && rest)
          else pushEach depth dst dstExists dstIsdir sync srcs

/-- Whether `dst` may be the place of the sources when it is no directory. -/
def acceptsSources (srcs : List Bytes) (dst : Bytes) (dstExists dstIsdir : Bool) : Bool :=
  dstIsdir || (srcs.length ≤ 1 && !(dst.getLast? = some 47 && dstExists))

def pushSources (depth : Nat) (srcs : List Bytes) (dst : Bytes) (dstExists dstIsdir sync : Bool) :
    Client Bool :=
  if acceptsSources srcs dst dstExists dstIsdir then
    pushEach env world depth dst dstExists dstIsdir sync srcs
  else pure false

/-- The end of a `SyncConnection`: a `QUIT` request. -/
def closing (body : Client Bool) : Client Bool := do
  let result ← body
  let _ ← (connection env world).sendRequest idQuit 0 []
  pure result

def doSyncPush (depth : Nat) (srcs : List Bytes) (dst : Bytes) (sync : Bool) : Client Bool :=
  closing env world do
    let st ← (pulling env world).syncStatFallback dst
    match st with
    | .ok info => pushSources env world depth srcs dst true (sIsDir info.mode) sync
    | .error .enoent => pushSources env world depth srcs dst false false sync
    | .error .enoprotoopt => pushSources env world depth srcs dst false false sync
    | .error _ => pure false

/-- The loop of `do_sync_pull`. -/
def pullEach (depth : Nat) (dst : Bytes) (dstExists dstIsdir copyAttrs : Bool) :
    List Bytes → Client Bool
  | [] => pure true
  | src :: srcs => do
      let st ← (pulling env world).syncStatFallback src
      match st with
      | .error _ =>
          let _ ← pullEach depth dst dstExists dstIsdir copyAttrs srcs
          pure false
      | .ok info =>
          if sIsDir info.mode then
            if dstExists && !dstIsdir then pure false
            else
              let dstDir := if dstExists then inDirectory world dst src else dst
              let ok ← (pulling env world).copyRemoteDirLocal depth src dstDir copyAttrs
              let rest ← pullEach depth dst dstExists dstIsdir copyAttrs srcs
              pure (ok && rest)
          else if shouldPullFile info.mode then
            let dstPath := if dstIsdir then dst ++ 47 :: world.basename src else dst
            let ok ← (pulling env world).pullFile src dstPath copyAttrs
            let rest ← pullEach depth dst dstExists dstIsdir copyAttrs srcs
            pure (ok && rest)
          else pullEach depth dst dstExists dstIsdir copyAttrs srcs

def pullSources (depth : Nat) (srcs : List Bytes) (dst : Bytes)
    (dstExists dstIsdir copyAttrs : Bool) : Client Bool :=
  if acceptsSources srcs dst dstExists dstIsdir then
    pullEach env world depth dst dstExists dstIsdir copyAttrs srcs
  else pure false

def doSyncPull (depth : Nat) (srcs : List Bytes) (dst : Bytes) (copyAttrs : Bool) : Client Bool :=
  closing env world do
    let st ← ask fun n => world.stat n dst
    match st with
    | .ok info => pullSources env world depth srcs dst true (sIsDir info.mode) copyAttrs
    | .error .enoent =>
        if srcs.length = 1 then
          let parent ← ask fun n => world.stat n (world.dirname dst)
          match parent with
          | .ok _ => pullSources env world depth srcs dst false false copyAttrs
          | .error _ => pure false
        else pure false
    | .error _ => pure false

end Adb.ServiceConnection
