import Adb.ExactConsumers
import Adb.SyncMessages

/-!
The sync service of adbd, file_sync_service.cpp, as a program that reads exact
numbers of bytes from its socket: there is one phase for each call of
`ReadFdExactly`.  How the system calls of a command end is given from outside.
-/

namespace Adb.SyncService

open Adb.DescriptorIo
open Adb.ExactConsumers
open Adb.Numerals
open Adb.SyncMessages
open Adb.WirePackets

/-- The error numbers that the service distinguishes. -/
inductive Errno where
  | enoent
  | eexist
  | other
  deriving DecidableEq, Repr

structure RegularFile where
  content : Bytes
  mode : Nat
  mtime : Nat
  uid : Nat
  gid : Nat
  capabilities : Nat
  deriving DecidableEq, Repr

/-- What a path leads to; a directory or a device is `other`. -/
inductive Node where
  | regular (file : RegularFile)
  | symlink (target : Bytes)
  | other
  deriving DecidableEq, Repr

abbrev Files := Bytes → Option Node

/-- The fields of a `struct stat` that travel in an answer. -/
structure Stat where
  dev : Nat
  ino : Nat
  mode : Nat
  nlink : Nat
  uid : Nat
  gid : Nat
  size : Nat
  atime : Nat
  mtime : Nat
  ctime : Nat
  deriving DecidableEq, Repr

/-- A directory entry whose `lstat` succeeds. -/
structure Dent where
  name : Bytes
  mode : Nat
  size : Nat
  time : Nat
  deriving DecidableEq, Repr

/-- What `fs_config` answers for a path. -/
structure FsConfig where
  uid : Nat
  gid : Nat
  mode : Nat
  capabilities : Nat
  deriving DecidableEq, Repr

/-- How the system calls of one command end.  An open or a symlink that is not
given an error succeeds, unless the path exists.  `chunkWritten` is about the
n-th `DATA` message, and `reads` are the results of `adb_read` up to the end of
the file. -/
structure Answers where
  strerror : Bytes
  stat : Except Nat Stat
  entries : List Dent
  fileOpened : Bool
  reads : List ReadResult
  unlinked : Bool
  fsConfig : FsConfig
  created : Option Errno
  madeDirs : Bool
  createdAgain : Option Errno
  openedExisting : Option Errno
  chowned : Bool
  chmoded : Bool
  chunkWritten : Nat → Bool
  cappedOk : Bool
  timed : Bool
  linked : Option Errno
  linkedAgain : Option Errno

/-- A file that is being received. -/
structure Sending where
  path : Bytes
  doUnlink : Bool
  capabilities : Nat
  offset : Nat
  chunks : Nat
  deriving DecidableEq, Repr

/-- The call of `ReadFdExactly` that the service is in. -/
inductive Phase where
  | request
  | name (id length : Nat)
  | data (sending : Sending)
  | chunk (sending : Sending) (size : Nat)
  | discard (path : Bytes) (doUnlink : Bool)
  | discardChunk (path : Bytes) (doUnlink : Bool) (size : Nat)
  | linkData (path : Bytes)
  | linkChunk (path : Bytes) (size : Nat)
  | linkDone
  | ended
  deriving DecidableEq, Repr

/-- `out` is what the service has written and the client has not read yet. -/
structure Service where
  files : Files
  phase : Phase
  commands : Nat
  out : Bytes

def initialService (files : Files) : Service := ⟨files, .request, 0, []⟩

namespace Service

def write (d : Service) (bytes : Bytes) : Service := { d with out := d.out ++ bytes }

def setNode (d : Service) (path : Bytes) (node : Option Node) : Service :=
  { d with files := Function.update d.files path node }

def goto (d : Service) (phase : Phase) : Service := { d with phase := phase }

/-- `handle_sync_command` returns true: the loop waits for the next request. -/
def again (d : Service) : Service :=
  { d with phase := .request, commands := d.commands + 1 }

/-- `handle_sync_command` returns false: the service closes its socket. -/
def finish (d : Service) : Service := { d with phase := .ended, commands := d.commands + 1 }

end Service

def sendSyncFail (d : Service) (reason : Bytes) : Service := d.write (frame idFail reason)

def sendSyncFailErrno (answers : Answers) (d : Service) (reason : String) : Service :=
  sendSyncFail d (ascii reason ++ ascii ": " ++ answers.strerror)

def shouldUseFsConfig (path : Bytes) : Bool :=
  (ascii "/system/").isPrefixOf path || (ascii "/vendor/").isPrefixOf path ||
    (ascii "/oem/").isPrefixOf path

def statV1 (answers : Answers) : Bytes :=
  match answers.stat with
  | .ok st => word idLstatV1 ++ word st.mode ++ word st.size ++ word st.mtime
  | .error _ => word idLstatV1 ++ word 0 ++ word 0 ++ word 0

/-- `stat_v2`, with the wire number of the error. -/
def statV2 (answers : Answers) (id : Nat) : Bytes :=
  match answers.stat with
  | .ok st =>
      word id ++ word 0 ++ word64 st.dev ++ word64 st.ino ++ word st.mode ++ word st.nlink ++
        word st.uid ++ word st.gid ++ word64 st.size ++ word64 st.atime ++
        word64 st.mtime ++ word64 st.ctime
  | .error error =>
      word id ++ word error ++ word64 0 ++ word64 0 ++ word 0 ++ word 0 ++ word 0 ++ word 0 ++
        word64 0 ++ word64 0 ++ word64 0 ++ word64 0

def doLstatV1 (answers : Answers) (d : Service) : Service := (d.write (statV1 answers)).again

def doStatV2 (answers : Answers) (d : Service) (id : Nat) : Service :=
  (d.write (statV2 answers id)).again

def dent (entry : Dent) : Bytes :=
  word idDent ++ word entry.mode ++ word entry.size ++ word entry.time ++
    word entry.name.length ++ entry.name

def dentDone : Bytes := word idDone ++ word 0 ++ word 0 ++ word 0 ++ word 0

def doList (answers : Answers) (d : Service) : Service :=
  (d.write (answers.entries.flatMap dent ++ dentDone)).again

/-- The loop of `do_recv`: what it sends and whether it reaches the end. -/
def recvLoop (answers : Answers) : List ReadResult → Bytes × Bool
  | [] => ([], true)
  | .data [] :: _ => ([], true)
  | .data (b :: bs) :: reads =>
      let (rest, ok) := recvLoop answers reads
      (frame idData ((b :: bs).take syncDataMax) ++ rest, ok)
  | _ :: _ => (frame idFail (ascii "read failed: " ++ answers.strerror), false)

def doRecv (answers : Answers) (d : Service) : Service :=
  if !answers.fileOpened then (sendSyncFailErrno answers d "open failed").finish
  else
    let (sent, ok) := recvLoop answers answers.reads
    if ok then ((d.write sent).write (header idDone 0)).again else (d.write sent).finish

/-- The label `abort` of `handle_send_file`. -/
def sendAbort (answers : Answers) (d : Service) (path : Bytes) (doUnlink : Bool) : Service :=
  (if doUnlink && answers.unlinked then d.setNode path none else d).finish

/-- `adb_open_mode` with `O_CREAT | O_EXCL`. -/
def openExclusive (d : Service) (path : Bytes) (error : Option Errno) (file : RegularFile) :
    Except Errno Service :=
  if (d.files path).isSome then .error .eexist
  else
    match error with
    | some e => .error e
    | none => .ok (d.setNode path (some (.regular file)))

/-- `adb_open_mode` without `O_CREAT`; the content stays. -/
def openExisting (d : Service) (error : Option Errno) : Except Errno Service :=
  match error with
  | some e => .error e
  | none => .ok d

/-- The calls of `adb_open_mode` at the start of `handle_send_file`; `none` is
a failure of `secure_mkdirs`. -/
def openTarget (answers : Answers) (d : Service) (path : Bytes) (file : RegularFile) :
    Option (Except Errno Service) :=
  let first := openExclusive d path answers.created file
  let second :=
    match first with
    | .error .enoent =>
        if answers.madeDirs then some (openExclusive d path answers.createdAgain file)
        else none
    | result => some result
  match second with
  | some (.error .eexist) => some (openExisting d answers.openedExisting)
  | result => result

/-- An id of `-1` leaves the owner as it is. -/
def noId : Nat := 2 ^ 32 - 1

/-- The owner and the mode of an open file, `fchown` and `fchmod`. -/
def setOwner (answers : Answers) (d : Service) (path : Bytes) (config : FsConfig) : Service :=
  match d.files path with
  | some (.regular file) =>
      d.setNode path (some (.regular
        { file with
          uid := if config.uid = noId then file.uid else config.uid
          gid := if config.gid = noId then file.gid else config.gid
          mode := if answers.chmoded then config.mode else file.mode }))
  | _ => d

/-- `handle_send_file` up to its first `ReadFdExactly`. -/
def handleSendFile (answers : Answers) (d : Service) (path : Bytes) (config : FsConfig)
    (doUnlink : Bool) : Service :=
  match openTarget answers d path ⟨[], config.mode, 0, 0, 0, 0⟩ with
  | none => (sendSyncFailErrno answers d "secure_mkdirs failed").goto (.discard path doUnlink)
  | some (.error _) =>
      (sendSyncFailErrno answers d "couldn't create file").goto (.discard path doUnlink)
  | some (.ok d) =>
      if answers.chowned then
        (setOwner answers d path config).goto
          (.data ⟨path, doUnlink, config.capabilities, 0, 0⟩)
      else (sendSyncFailErrno answers d "fchown failed").goto (.discard path doUnlink)

/-- Copy the user's permission bits to the group and the others. -/
def sharedMode (mode : Nat) : Nat :=
  let mode := mode % 512
  let mode := mode ||| (mode / 8 &&& 56)
  mode ||| (mode / 8 &&& 7)

def isUnlinkable : Option Node → Bool
  | none => true
  | some (.regular _) => true
  | some (.symlink _) => true
  | some .other => false

/-- `do_send` up to the first `ReadFdExactly` of the function it calls. -/
def doSend (answers : Answers) (d : Service) (spec : Bytes) : Service :=
  match splitLastComma spec with
  | none => (sendSyncFail d (ascii "missing , in ID_SEND")).finish
  | some (path, text) =>
      let (value, erange) := strtoul 0 text
      if erange then (sendSyncFail d (ascii "bad mode")).finish
      else
        let mode := value % 2 ^ 32
        let doUnlink := isUnlinkable (d.files path)
        let d := if doUnlink && answers.unlinked then d.setNode path none else d
        if sIsLnk mode then d.goto (.linkData path)
        else
          let plain : FsConfig := ⟨noId, noId, sharedMode mode, 0⟩
          let config := if shouldUseFsConfig path then answers.fsConfig else plain
          handleSendFile answers d path config doUnlink

/-- The conversion `%08x`. -/
def hex08 (n : Nat) : Bytes :=
  List.replicate (8 - (print 16 n).length) 48 ++ print 16 n

/-- `handle_sync_command` once the name has come. -/
def handleName (answers : Answers) (d : Service) (id : Nat) (name : Bytes) : Service :=
  let name := cString name
  if id = idLstatV1 then doLstatV1 answers d
  else if id = idLstatV2 ∨ id = idStatV2 then doStatV2 answers d id
  else if id = idList then doList answers d
  else if id = idSend then doSend answers d name
  else if id = idRecv then doRecv answers d
  else if id = idQuit then d.finish
  else (sendSyncFail d (ascii "unknown command " ++ hex08 id)).finish

/-- `handle_sync_command` once the request has come. -/
def handleRequest (answers : Answers) (d : Service) (request : Bytes) : Service :=
  let length := headerLength request
  if length > maxPathLength then (sendSyncFail d (ascii "path too long")).finish
  else if length = 0 then handleName answers d (headerId request) []
  else d.goto (.name (headerId request) length)

/-- Write into a file that is open at an offset. -/
def writeNode (offset : Nat) (bytes : Bytes) : Option Node → Option Node
  | some (.regular file) =>
      some (.regular { file with
        content := file.content.take offset ++ bytes ++
          file.content.drop (offset + bytes.length) })
  | node => node

/-- A `DATA` message is complete. -/
def handleChunk (answers : Answers) (d : Service) (sending : Sending) (bytes : Bytes) :
    Service :=
  if answers.chunkWritten sending.chunks then
    (d.setNode sending.path (writeNode sending.offset bytes (d.files sending.path))).goto
      (.data { sending with
        offset := sending.offset + bytes.length
        chunks := sending.chunks + 1 })
  else
    (sendSyncFailErrno answers d "write failed").goto (.discard sending.path sending.doUnlink)

def setCapabilities (capabilities : Nat) : Option Node → Option Node
  | some (.regular file) => some (.regular { file with capabilities := capabilities })
  | node => node

def setTime (mtime : Nat) : Option Node → Option Node
  | some (.regular file) => some (.regular { file with mtime := mtime })
  | node => node

/-- The end of `handle_send_file` after the `DONE` message.  Without
capabilities `update_capabilities` always succeeds. -/
def handleDone (answers : Answers) (d : Service) (sending : Sending) (timestamp : Nat) :
    Service :=
  if sending.capabilities = 0 ∨ answers.cappedOk = true then
    let node := setCapabilities sending.capabilities (d.files sending.path)
    let node := if answers.timed then setTime timestamp node else node
    ((d.setNode sending.path node).write (header idOkay 0)).again
  else
    (sendSyncFailErrno answers d "update_capabilities failed").goto
      (.discard sending.path sending.doUnlink)

/-- The header of a message in the loop of `handle_send_file`. -/
def handleData (answers : Answers) (d : Service) (sending : Sending) (msg : Bytes) : Service :=
  let size := headerLength msg
  if headerId msg = idDone then handleDone answers d sending size
  else if headerId msg ≠ idData then
    sendAbort answers (sendSyncFail d (ascii "invalid data message")) sending.path
      sending.doUnlink
  else if size > syncDataMax then
    sendAbort answers (sendSyncFail d (ascii "oversize data message")) sending.path
      sending.doUnlink
  else if size = 0 then handleChunk answers d sending []
  else d.goto (.chunk sending size)

/-- The header of a message in the loop after the label `fail`. -/
def handleDiscard (answers : Answers) (d : Service) (path : Bytes) (doUnlink : Bool)
    (msg : Bytes) : Service :=
  let size := headerLength msg
  if headerId msg ≠ idData ∨ size > syncDataMax then sendAbort answers d path doUnlink
  else if size = 0 then d.goto (.discard path doUnlink)
  else d.goto (.discardChunk path doUnlink size)

/-- `handle_send_link` once the target has come. -/
def handleLinkChunk (answers : Answers) (d : Service) (path : Bytes) (bytes : Bytes) : Service :=
  let node := some (Node.symlink (cString bytes))
  let attempt := fun error =>
    if (d.files path).isSome then some Errno.eexist else error
  match attempt answers.linked with
  | none => (d.setNode path node).goto .linkDone
  | some .enoent =>
      if !answers.madeDirs then (sendSyncFailErrno answers d "secure_mkdirs failed").finish
      else
        match attempt answers.linkedAgain with
        | none => (d.setNode path node).goto .linkDone
        | some _ => (sendSyncFailErrno answers d "symlink failed").finish
  | some _ => (sendSyncFailErrno answers d "symlink failed").finish

def handleLinkData (answers : Answers) (d : Service) (path : Bytes) (msg : Bytes) : Service :=
  let size := headerLength msg
  if headerId msg ≠ idData then
    (sendSyncFail d (ascii "invalid data message: expected ID_DATA")).finish
  else if size > syncDataMax then (sendSyncFail d (ascii "oversize data message")).finish
  else if size = 0 then handleLinkChunk answers d path []
  else d.goto (.linkChunk path size)

def handleLinkDone (d : Service) (msg : Bytes) : Service :=
  if headerId msg = idDone then (d.write (header idOkay 0)).again
  else (sendSyncFail d (ascii "invalid data message: expected ID_DONE")).finish

/-- How many bytes a phase waits for. -/
def Phase.need : Phase → Nat
  | .request => headerSize
  | .name _ length => length
  | .data _ => headerSize
  | .chunk _ size => size
  | .discard _ _ => headerSize
  | .discardChunk _ _ size => size
  | .linkData _ => headerSize
  | .linkChunk _ size => size
  | .linkDone => headerSize
  | .ended => 0

/-- A phase has got its bytes. -/
def advance (env : Nat → Answers) (d : Service) (bytes : Bytes) : Service :=
  let answers := env d.commands
  match d.phase with
  | .request => handleRequest answers d bytes
  | .name id _ => handleName answers d id bytes
  | .data sending => handleData answers d sending bytes
  | .chunk sending _ => handleChunk answers d sending bytes
  | .discard path doUnlink => handleDiscard answers d path doUnlink bytes
  | .discardChunk path doUnlink _ => d.goto (.discard path doUnlink)
  | .linkData path => handleLinkData answers d path bytes
  | .linkChunk path _ => handleLinkChunk answers d path bytes
  | .linkDone => handleLinkDone d bytes
  | .ended => d

def fileSyncService (env : Nat → Answers) : Consumer Service UInt8 where
  need d := d.phase.need
  next := advance env

end Adb.SyncService
