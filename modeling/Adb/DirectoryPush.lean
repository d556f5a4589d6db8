import Adb.StoppingPrograms
import Adb.SyncTransfers

/-!
`copy_local_dir_remote` of file_sync_client.cpp, against a device that answers
with any bytes.  The device has sent `incoming` when it closes the connection;
what the client finds on its own machine, and whether its writes to the socket
succeed, may differ from call to call.
-/

namespace Adb.DirectoryPush

open Adb.DescriptorIo
open Adb.StoppingPrograms
open Adb.SyncClient
open Adb.SyncMessages
open Adb.SyncTransfers
open Adb.WirePackets

/-- What happens on the socket.  `left` says that the loop of `SendLargeFile`
ends before the file does, with these bytes to be read. -/
inductive Event where
  | wrote (bytes : Bytes)
  | read (bytes : Bytes)
  | left (waiting : Bytes)
  deriving DecidableEq, Repr

/-- A `SyncConnection` in a push. -/
structure Upload where
  incoming : Bytes
  haveStatV2 : Bool
  expectDone : Bool
  calls : Nat
  trace : List Event
  deriving DecidableEq, Repr

/-- A client that stops has exited. -/
abbrev Pusher := Program Upload

variable (world : World)

def ask {α : Type} (answer : Nat → α) : Pusher α := do
  let u ← get
  modify fun u => { u with calls := u.calls + 1 }
  pure (answer u.calls)

def note (event : Event) : Pusher PUnit :=
  modify fun u => { u with trace := u.trace ++ [event] }

def haveStatV2 : Pusher Bool := do
  let u ← get
  pure u.haveStatV2

def expectDone : Pusher Bool := do
  let u ← get
  pure u.expectDone

def setExpectDone (expected : Bool) : Pusher PUnit :=
  modify fun u => { u with expectDone := expected }

/-- `WriteFdExactly` on the socket. -/
def writeFdExactly (bytes : Bytes) : Pusher Bool := do
  let ok ← ask world.sent
  if ok then
    note (.wrote bytes)
    pure true
  else pure false

/-- `ReadFdExactly` on the socket. -/
def readFdExactly (n : Nat) : Pusher (Option Bytes) := do
  let u ← get
  if n ≤ u.incoming.length then
    modify fun u => { u with incoming := u.incoming.drop n }
    note (.read (u.incoming.take n))
    pure (some (u.incoming.take n))
  else
    modify fun u => { u with incoming := [] }
    pure none

/-- `ReceivedError`: the poll fails, or it reports that there is something. -/
def receivedError : Pusher Bool := do
  let answer ← ask world.polled
  match answer with
  | .quiet => pure false
  | _ =>
      let u ← get
      note (.left (u.incoming.take headerSize))
      pure true

abbrev pushing : SyncPush Pusher where
  readFdExactly := readFdExactly
  writeRequest _ _ := writeFdExactly world
  haveStatV2 := haveStatV2
  errnoFromWire := world.errnoFromWire
  exit := throw ()
  world := world
  ask := ask
  outOfDepth := throw ()
  writeFdExactly := writeFdExactly world
  receivedError := receivedError world
  expectDone := expectDone
  setExpectDone := setExpectDone

/-- A directory push over a connection on which the device sends `stream`. -/
def push (depth : Nat) (lpath rpath : Bytes) (checkTimestamps listOnly haveStatV2 : Bool)
    (stream : Bytes) : Except Unit Bool × Upload :=
  execute (copyLocalDirRemote (pushing world) depth lpath rpath checkTimestamps listOnly)
    ⟨stream, haveStatV2, false, 0, []⟩

end Adb.DirectoryPush
