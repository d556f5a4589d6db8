import Adb.HostPaths
import Adb.StoppingPrograms
import Adb.SyncTransfers

/-!
`copy_remote_dir_local` of file_sync_client.cpp, against a device that answers
with any bytes.  The device has sent `incoming` when it closes the connection;
what the client finds on its own machine, and whether its writes to the socket
succeed, may differ from call to call.  The client runs on a host with `/` as
its separator.
-/

namespace Adb.DirectoryPull

open Adb.DescriptorIo
open Adb.HostPaths
open Adb.StoppingPrograms
open Adb.SyncClient
open Adb.SyncTransfers

/-- The client's machine: the answer to its n-th call. -/
structure Machine where
  sent : Nat → Bool
  madeDirs : Nat → Bool
  created : Nat → Bool
  written : Nat → Bool
  setTimeAndMode : Nat → Bool
  errnoFromWire : Nat → ClientErrno

/-- The calls that change the file system of the client. -/
inductive Change where
  | mkdirs (path : Bytes)
  | unlink (path : Bytes)
  | creat (path : Bytes)
  deriving DecidableEq, Repr

def Change.path : Change → Bytes
  | .mkdirs path => path
  | .unlink path => path
  | .creat path => path

/-- A `SyncConnection` in a pull: what has not been read, the names that the
listings had, and the changes on the host.  `exhausted` says that a loop of the
model has stopped before the loop of the source. -/
structure Download where
  incoming : Bytes
  haveStatV2 : Bool
  calls : Nat
  listed : List Bytes
  changes : List Change
  exhausted : Bool
  deriving DecidableEq, Repr

abbrev Puller := Program Download

/-- The destination and the source of a pull.  Both paths are known to be
nonempty. -/
structure Pull where
  rpath : Bytes
  lpath : Bytes
  rpath_ne_nil : rpath ≠ []
  lpath_ne_nil : lpath ≠ []

variable (paths : PathFunctions) (machine : Machine)

def ask {α : Type} (answer : Nat → α) : Puller α := do
  let s ← get
  modify fun s => { s with calls := s.calls + 1 }
  pure (answer s.calls)

def change (c : Change) : Puller PUnit :=
  modify fun s => { s with changes := s.changes ++ [c] }

def outOfRounds {α : Type} : Puller α := do
  modify fun s => { s with exhausted := true }
  throw ()

def readFdExactly (n : Nat) : Puller (Option Bytes) := do
  let s ← get
  if n ≤ s.incoming.length then
    modify fun s => { s with incoming := s.incoming.drop n }
    pure (some (s.incoming.take n))
  else
    modify fun s => { s with incoming := [] }
    pure none

def haveStatV2 : Puller Bool := do
  let s ← get
  pure s.haveStatV2

def creat (path : Bytes) : Puller Bool := do
  change (.creat path)
  ask machine.created

def mkdirs (path : Bytes) : Puller Bool := do
  change (.mkdirs path)
  ask machine.madeDirs

/-- The callback gets this name. -/
def noteName (name : Bytes) : Puller PUnit :=
  modify fun s => { s with listed := s.listed ++ [name] }

def rounds : Puller Nat := do
  let s ← get
  pure (s.incoming.length + 1)

abbrev pulling : SyncPull Puller where
  readFdExactly := readFdExactly
  writeRequest _ _ _ := ask machine.sent
  haveStatV2 := haveStatV2
  errnoFromWire := machine.errnoFromWire
  exit := throw ()
  unlink path := change (.unlink path)
  creat := creat machine
  write _ := ask machine.written
  rounds := rounds
  outOfRounds := outOfRounds
  dirname := paths.dirname
  basename := paths.basename
  mkdirs := mkdirs machine
  setTimeAndMode := ask machine.setTimeAndMode
  noteName := noteName

/-- A directory pull over a connection on which the device has sent `stream`. -/
def download (pull : Pull) (copyAttrs haveStatV2 : Bool) (stream : Bytes) : Download :=
  (execute ((pulling paths machine).copyRemoteDirLocal (stream.length + 1) pull.rpath pull.lpath
    copyAttrs) ⟨stream, haveStatV2, 0, [], [], false⟩).2

end Adb.DirectoryPull
