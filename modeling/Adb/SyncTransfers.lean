import Adb.SyncClient
import Adb.SyncService

/-!
The transfers of file_sync_client.cpp over any connection: listings, received
files and directories.  The client runs on a host with `/` as its separator.
-/

namespace Adb.SyncTransfers

open Adb.DescriptorIo
open Adb.SyncClient
open Adb.SyncMessages
open Adb.SyncService (Dent)
open Adb.WirePackets

/-- `S_IFDIR`. -/
def directoryMode : Nat := 4 * 2 ^ 12

def shouldPullFile (mode : Nat) : Bool := sIsReg mode || sIsBlk mode || sIsChr mode

def shouldPushFile (mode : Nat) : Bool := sIsReg mode || sIsLnk mode

def withSeparator (path : Bytes) : Bytes :=
  if path.getLast? = some 47 then path else path ++ [47]

structure CopyInfo where
  lpath : Bytes
  rpath : Bytes
  time : Nat
  mode : Nat
  size : Nat
  skip : Bool
  deriving DecidableEq, Repr

/-- The constructor of `copyinfo`. -/
def copyInfo (localPath remotePath name : Bytes) (mode : Nat) : CopyInfo :=
  let lpath := withSeparator localPath ++ name
  let rpath := withSeparator remotePath ++ name
  if sIsDir mode then ⟨withSeparator lpath, withSeparator rpath, 0, mode, 0, false⟩
  else ⟨lpath, rpath, 0, mode, 0, false⟩

def isDotOrDotDot (name : Bytes) : Bool := name = ascii "." || name = ascii ".."

/-- The size of `syncmsg.dent`, and the longest name that `sync_ls` takes. -/
def dentSize : Nat := 20

def maxNameLength : Nat := 256

variable {m : Type → Type} [Monad m]

/-! ## Pushing a directory -/

/-- The loop over the directories of `local_build_list`, which goes on when one
of them cannot be opened. -/
def buildLocalDirs (build : Bytes → Bytes → m (Option (List CopyInfo))) :
    List CopyInfo → m (List CopyInfo)
  | [] => pure []
  | ci :: dirs => do
      let found ← build ci.lpath ci.rpath
      let rest ← buildLocalDirs build dirs
      pure (found.getD [] ++ rest)

section Local

variable (c : LocalMachine m)

/-- The entries of one local directory: the files, and the directories to go
into. -/
def lstatEach (lpath rpath : Bytes) : List Bytes → m (List CopyInfo × List CopyInfo)
  | [] => pure ([], [])
  | name :: names => do
      let st ← c.ask fun n => c.world.lstat n (lpath ++ name)
      let rest ← lstatEach lpath rpath names
      match st with
      | none => pure rest
      | some info =>
          let ci := copyInfo lpath rpath name info.mode
          if sIsDir info.mode then pure (rest.1, ci :: rest.2)
          else
            pure ({ ci with
              skip := !shouldPushFile info.mode
              time := info.mtime
              size := info.size } :: rest.1, rest.2)

/-- `local_build_list`, for directories that are nested at most `depth` deep. -/
def localBuildList : Nat → Bytes → Bytes → m (Option (List CopyInfo))
  | 0, _, _ => c.outOfDepth
  | depth + 1, lpath, rpath => do
      let names ← c.ask fun n => c.world.readdir n lpath
      match names with
      | none => pure none
      | some names =>
          let names := names.filter fun name => !isDotOrDotDot name
          if names = [] then
            pure (some [{ copyInfo (c.world.dirname lpath) (c.world.dirname rpath)
              (c.world.basename lpath) directoryMode with skip := true }])
          else
            let entries ← lstatEach c lpath rpath names
            let rest ← buildLocalDirs (localBuildList depth) entries.2
            pure (some (entries.1 ++ rest))

end Local

/-- Whether an answer says that the file is there already. -/
def answersUpToDate (ci : CopyInfo) : Except ClientErrno FileInfo → Bool
  | .error _ => false
  | .ok info => info.size = ci.size && upToDate ci.mode ci.time info

section Push

variable (c : SyncPush m)

/-- The `SendLstat` calls of `copy_local_dir_remote`. -/
def lstatBatch : Nat → List CopyInfo → m Bool
  | _, [] => pure true
  | earlier, ci :: cis => do
      let ok ← c.sendLstat earlier ci.rpath
      if ok then lstatBatch (earlier + 1) cis else pure false

/-- The `FinishStat` calls of `copy_local_dir_remote`. -/
def finishBatch : List CopyInfo → m (List CopyInfo)
  | [] => pure []
  | ci :: cis => do
      let st ← c.finishStat
      let rest ← finishBatch cis
      if answersUpToDate ci st then pure ({ ci with skip := true } :: rest)
      else pure (ci :: rest)

/-- The `sync_send` calls of `copy_local_dir_remote`. -/
def sendEach (listOnly : Bool) : List CopyInfo → m Bool
  | [] => pure true
  | ci :: cis => do
      if ci.skip || listOnly then sendEach listOnly cis
      else
        let ok ← c.syncSend ci.lpath ci.rpath (ci.time % 2 ^ 32) ci.mode false
        if ok then sendEach listOnly cis else pure false

def copyLocalDirRemote (depth : Nat) (lpath rpath : Bytes) (checkTimestamps listOnly : Bool) :
    m Bool := do
  let list ← localBuildList c.toLocalMachine depth (withSeparator lpath) (withSeparator rpath)
  match list with
  | none => pure false
  | some list =>
      if checkTimestamps then
        let ok ← lstatBatch c 0 list
        if ok then
          let list ← finishBatch c list
          sendEach c listOnly list
        else pure false
      else sendEach c listOnly list

end Push

/-! ## Listing a remote directory -/

/-- The fields of a `DENT` message, and its name as the callback gets it. -/
def dentOf (msg name : Bytes) : Dent :=
  ⟨cString name, wordOf msg 4 4, wordOf msg 8 4, wordOf msg 12 4⟩

/-- The entry for a directory itself, which makes it exist before its contents. -/
def selfEntry (dirname basename : Bytes → Bytes) (rpath lpath : Bytes) : CopyInfo :=
  copyInfo (dirname lpath) (dirname rpath) (basename lpath) directoryMode

/-- A file that the callback puts on the list. -/
def fileEntry (rpath lpath : Bytes) (entry : Dent) : CopyInfo :=
  { copyInfo lpath rpath entry.name entry.mode with
    skip := !shouldPullFile entry.mode
    time := entry.time
    size := entry.size }

/-- What `remote_build_list` needs: `sync_ls`, and `sync_stat_fallback`. -/
structure Lister (m : Type → Type) where
  dirname : Bytes → Bytes
  basename : Bytes → Bytes
  syncLs : Bytes → m (Option (List Dent))
  syncStatFallback : Bytes → m (Except ClientErrno FileInfo)
  outOfRounds : {α : Type} → m α

/-- The loop over the directories of `remote_build_list`. -/
def buildRemoteDirs (build : Bytes → Bytes → m (Option (List CopyInfo))) :
    List CopyInfo → m (Option (List CopyInfo))
  | [] => pure (some [])
  | ci :: dirs => do
      let found ← build ci.rpath ci.lpath
      match found with
      | none => pure none
      | some found =>
          let rest ← buildRemoteDirs build dirs
          pure (rest.map (found ++ ·))

section Remote

variable (c : Lister m)

/-- The links that a listing found: those to directories, and the others. -/
def checkLinks : List CopyInfo → m (List CopyInfo × List CopyInfo)
  | [] => pure ([], [])
  | ci :: cis => do
      let st ← c.syncStatFallback ci.rpath
      let rest ← checkLinks cis
      match st with
      | .error _ => pure rest
      | .ok info =>
          if sIsDir info.mode then pure (ci :: rest.1, rest.2) else pure (rest.1, ci :: rest.2)

/-- `remote_build_list`, for at most `fuel` calls inside each other.  The last
directory of the list comes first. -/
def remoteBuildList : Nat → Bytes → Bytes → m (Option (List CopyInfo))
  | 0, _, _ => c.outOfRounds
  | fuel + 1, rpath, lpath => do
      let entries ← c.syncLs rpath
      match entries with
      | none => pure none
      | some entries =>
          let entries := entries.filter fun entry => !isDotOrDotDot entry.name
          let info := fun entry : Dent => copyInfo lpath rpath entry.name entry.mode
          let dirs := (entries.filter fun entry => sIsDir entry.mode).map info
          let links := (entries.filter fun entry => sIsLnk entry.mode).map info
          let files := (entries.filter fun entry =>
            !sIsDir entry.mode && !sIsLnk entry.mode).map (fileEntry rpath lpath)
          let checked ← checkLinks c links
          let rest ← buildRemoteDirs (remoteBuildList fuel) (dirs ++ checked.1).reverse
          pure (rest.map fun rest =>
            selfEntry c.dirname c.basename rpath lpath :: files ++ checked.2 ++ rest)

end Remote

/-! ## Pulling -/

/-- What `sync_recv` needs: the socket, and the calls on its file.  `rounds`
bounds the rounds of a loop by what there is to be read, and `outOfRounds` is
where a loop of the model ends that has run out of them. -/
structure SyncRecv (m : Type → Type) extends Socket m where
  unlink : Bytes → m PUnit
  creat : Bytes → m Bool
  write : Bytes → m Bool
  rounds : m Nat
  outOfRounds : {α : Type} → m α

/-- What a pull needs.  `noteName` is told the names that a listing has. -/
structure SyncPull (m : Type → Type) extends SyncConnection m, SyncRecv m where
  dirname : Bytes → Bytes
  basename : Bytes → Bytes
  mkdirs : Bytes → m Bool
  setTimeAndMode : m Bool
  noteName : Bytes → m PUnit

namespace SyncRecv

variable (c : SyncRecv m)

/-- A round of the loop of `sync_recv` after a `DATA` header. -/
def recvData (lpath : Bytes) (size : Nat) (next : m Bool) : m Bool := do
  let data ← c.readFdExactly size
  match data with
  | none =>
      c.unlink lpath
      pure false
  | some data =>
      let written ← c.write data
      if written then next
      else
        c.unlink lpath
        pure false

/-- The loop of `sync_recv`.  Every failure removes the file. -/
def recvMessages (lpath : Bytes) : Nat → m Bool
  | 0 => c.outOfRounds
  | fuel + 1 => do
      let msg ← c.readFdExactly headerSize
      match msg with
      | none =>
          c.unlink lpath
          pure false
      | some msg =>
          if headerId msg = idDone then pure true
          else if headerId msg ≠ idData then
            c.unlink lpath
            c.reportCopyFailure msg
            pure false
          else if headerLength msg > syncDataMax then
            c.unlink lpath
            pure false
          else c.recvData lpath (headerLength msg) (recvMessages lpath fuel)

def syncRecv (rpath lpath : Bytes) : m Bool := do
  let ok ← c.sendRequest idRecv 0 rpath
  if ok then
    c.unlink lpath
    let created ← c.creat lpath
    if created then
      let rounds ← c.rounds
      c.recvMessages lpath rounds
    else pure false
  else pure false

end SyncRecv

namespace SyncPull

variable (c : SyncPull m)

/-- The loop of `sync_ls`. -/
def readDents : Nat → m (Option (List Dent))
  | 0 => c.outOfRounds
  | fuel + 1 => do
      let msg ← c.readFdExactly dentSize
      match msg with
      | none => pure none
      | some msg =>
          if wordOf msg 0 4 = idDone then pure (some [])
          else if wordOf msg 0 4 ≠ idDent then pure none
          else if wordOf msg 16 4 > maxNameLength then pure none
          else
            let name ← c.readFdExactly (wordOf msg 16 4)
            match name with
            | none => pure none
            | some name =>
                c.noteName (cString name)
                let rest ← readDents fuel
                pure (rest.map (dentOf msg name :: ·))

def syncLs (path : Bytes) : m (Option (List Dent)) := do
  let ok ← c.sendRequest idList 0 path
  if ok then
    let rounds ← c.rounds
    c.readDents rounds
  else pure none

def syncStatFallback (path : Bytes) : m (Except ClientErrno FileInfo) :=
  SyncClient.syncStatFallback c.syncStat c.syncLstat path

def lister : Lister m where
  dirname := c.dirname
  basename := c.basename
  syncLs := c.syncLs
  syncStatFallback := c.syncStatFallback
  outOfRounds := c.outOfRounds

/-- `set_time_and_mode`, if it is asked for. -/
def copyAttributes (copyAttrs : Bool) : m Bool :=
  if copyAttrs then c.setTimeAndMode else pure true

def pullFile (rpath lpath : Bytes) (copyAttrs : Bool) : m Bool := do
  let ok ← c.syncRecv rpath lpath
  if ok then c.copyAttributes copyAttrs else pure false

/-- One round of the loop of `copy_remote_dir_local`. -/
def pullEntry (copyAttrs : Bool) (ci : CopyInfo) : m Bool :=
  if ci.skip then pure true
  else if sIsDir ci.mode then c.mkdirs ci.lpath
  else c.pullFile ci.rpath ci.lpath copyAttrs

def pullEntries (copyAttrs : Bool) : List CopyInfo → m Bool
  | [] => pure true
  | ci :: cis => do
      let ok ← c.pullEntry copyAttrs ci
      if ok then pullEntries copyAttrs cis else pure false

/-- `copy_remote_dir_local`, for directories that are nested at most `depth` deep. -/
def copyRemoteDirLocal (depth : Nat) (rpath lpath : Bytes) (copyAttrs : Bool) : m Bool := do
  let list ← remoteBuildList c.lister depth (withSeparator rpath) (withSeparator lpath)
  match list with
  | none => pure false
  | some list => c.pullEntries copyAttrs list

end SyncPull

end Adb.SyncTransfers
