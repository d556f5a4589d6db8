import Adb.SyncMessages

/-!
The sync commands of the client, file_sync_client.cpp, over any connection.
What the client finds on its own machine is given from outside and may differ
from call to call.
-/

namespace Adb.SyncClient

open Adb.DescriptorIo
open Adb.SyncMessages
open Adb.WirePackets

/-- The fields of a `struct stat` that the client looks at. -/
structure FileInfo where
  mode : Nat
  size : Nat
  mtime : Nat
  deriving DecidableEq, Repr

/-- The error numbers that the client distinguishes. -/
inductive ClientErrno where
  | enotsup
  | enoent
  | enoprotoopt
  | other
  deriving DecidableEq, Repr

/-- What `adb_poll` with a timeout of zero does: it fails, it reports what there
is to report, or it is called before anything has arrived. -/
inductive PollAnswer where
  | failed
  | seen
  | quiet
  deriving DecidableEq, Repr

/-- The client's machine: the answer to its n-th call.  The calls of
`SendLargeFile` have answers of their own, `largeReads` are the results of
`adb_read` up to the end of the file.  `readdir` lists a whole directory, and
`sent` says whether a write to the socket succeeds. -/
structure World where
  stat : Nat → Bytes → Except ClientErrno FileInfo
  lstat : Nat → Bytes → Option FileInfo
  readdir : Nat → Bytes → Option (List Bytes)
  readFileToString : Nat → Bytes → Option Bytes
  largeStat : Nat → Bytes → Except ClientErrno FileInfo
  largeOpened : Nat → Bool
  largeReads : Nat → List ReadResult
  polled : Nat → PollAnswer
  readlink : Nat → Bytes → Option Bytes
  created : Nat → Bool
  written : Nat → Bool
  madeDirs : Nat → Bool
  setTimeAndMode : Nat → Bool
  sent : Nat → Bool
  errnoFromWire : Nat → ClientErrno
  basename : Bytes → Bytes
  dirname : Bytes → Bytes

/-- The socket of the sync commands, as computations of the two ends.
`writeRequest` is a `WriteFdExactly` that starts with a request of this id;
`earlier` counts the requests of the same batch that were written before. -/
structure Socket (m : Type → Type) where
  readFdExactly : Nat → m (Option Bytes)
  writeRequest : Nat → Nat → Bytes → m Bool

/-- A `SyncConnection`.  `exit` is where the client ends. -/
structure SyncConnection (m : Type → Type) extends Socket m where
  haveStatV2 : m Bool
  errnoFromWire : Nat → ClientErrno
  exit : {α : Type} → m α

/-- The client's machine, asked with the number of the call.  `outOfDepth` is
where a recursion of the model ends that goes deeper than it may. -/
structure LocalMachine (m : Type → Type) where
  world : World
  ask : {α : Type} → (Nat → α) → m α
  outOfDepth : {α : Type} → m α

/-- What a push needs besides. -/
structure SyncPush (m : Type → Type) extends SyncConnection m, LocalMachine m where
  writeFdExactly : Bytes → m Bool
  receivedError : m Bool
  expectDone : m Bool
  setExpectDone : Bool → m PUnit

variable {m : Type → Type} [Monad m]

/-! ## The fields of an answer -/

def wordOf (bytes : Bytes) (offset width : Nat) : Nat :=
  LittleEndian.decode ((bytes.drop offset).take width)

/-- The fields of `stat_v2` and their sizes. -/
def statV2Size : Nat := 72

def statV1Size : Nat := 16

/-- The id of an `lstat` request and of its answer. -/
abbrev lstatId (haveStatV2 : Bool) : Nat := if haveStatV2 then idLstatV2 else idLstatV1

/-- The answer that `FinishStat` makes of a message, none for one with a wrong id. -/
def statAnswer (errnoFromWire : Nat → ClientErrno) (haveStatV2 : Bool) (msg : Bytes) :
    Option (Except ClientErrno FileInfo) :=
  if haveStatV2 then
    if wordOf msg 0 4 ≠ idLstatV2 ∧ wordOf msg 0 4 ≠ idStatV2 then none
    else if wordOf msg 4 4 ≠ 0 then some (.error (errnoFromWire (wordOf msg 4 4)))
    else some (.ok ⟨wordOf msg 24 4, wordOf msg 40 8, wordOf msg 56 8⟩)
  else if wordOf msg 0 4 ≠ idLstatV1 then none
  else if wordOf msg 4 4 = 0 ∧ wordOf msg 8 4 = 0 ∧ wordOf msg 12 4 = 0 then
    some (.error .enoprotoopt)
  else some (.ok ⟨wordOf msg 4 4, wordOf msg 8 4, wordOf msg 12 4⟩)

/-- `st->st_mode &= ~S_IFMT`, and a new type. -/
def withType (mode type : Nat) : Nat := mode / 2 ^ 16 * 2 ^ 16 + type * 2 ^ 12 + mode % 2 ^ 12

/-- `sync_stat_fallback`, for any way to ask for the two kinds of `stat`. -/
def syncStatFallback (syncStat syncLstat : Bytes → m (Except ClientErrno FileInfo))
    (path : Bytes) : m (Except ClientErrno FileInfo) := do
  let first ← syncStat path
  match first with
  | .ok info => pure (.ok info)
  | .error .enotsup =>
      let second ← syncLstat path
      match second with
      | .error e => pure (.error e)
      | .ok info =>
          if sIsLnk info.mode then
            let target ← syncLstat (path ++ [47])
            match target with
            | .ok _ => pure (.ok ⟨withType info.mode 4, 0, info.mtime⟩)
            | .error _ => pure (.ok ⟨withType info.mode 8, 0, info.mtime⟩)
          else pure (.ok info)
  | .error e => pure (.error e)

namespace Socket

variable (c : Socket m)

def sendRequest (id : Nat) (earlier : Nat) (pathAndMode : Bytes) : m Bool :=
  let path := cString pathAndMode
  if path.length > maxPathLength then pure false
  else c.writeRequest id earlier (frame id path)

/-- `ReportCopyFailure` reads the text of a `FAIL` message. -/
def reportCopyFailure (msg : Bytes) : m PUnit := do
  let _ ← c.readFdExactly (headerLength msg)
  pure ⟨⟩

end Socket

namespace SyncConnection

variable (c : SyncConnection m)

/-- `SendLstat`, and `SendStat` when the service knows it. -/
def sendLstat (earlier : Nat) (path : Bytes) : m Bool := do
  let v2 ← c.haveStatV2
  c.sendRequest (lstatId v2) earlier path

/-- `FinishStat`; a missing or a wrong answer is fatal. -/
def finishStat : m (Except ClientErrno FileInfo) := do
  let v2 ← c.haveStatV2
  let msg ← c.readFdExactly (if v2 then statV2Size else statV1Size)
  match msg.bind (statAnswer c.errnoFromWire v2) with
  | none => c.exit
  | some answer => pure answer

def syncLstat (path : Bytes) : m (Except ClientErrno FileInfo) := do
  let ok ← c.sendLstat 0 path
  if ok then c.finishStat else pure (.error .other)

def syncStat (path : Bytes) : m (Except ClientErrno FileInfo) := do
  let v2 ← c.haveStatV2
  if !v2 then pure (.error .enotsup)
  else
    let ok ← c.sendRequest idStatV2 0 path
    if ok then c.finishStat else pure (.error .other)

end SyncConnection

/-! ## Sending a file -/

def pathMax : Nat := 4096

/-- The time that a 64-bit word stands for: `time_t` is signed. -/
def signedTime (time : Nat) : Int := if time < 2 ^ 63 then time else time - 2 ^ 64

/-- Whether `adb push --sync` leaves a file alone. -/
def upToDate (mode mtime : Nat) (info : FileInfo) : Bool :=
  (sIsReg (mode &&& info.mode) && info.mtime = mtime) ||
    (sIsLnk (mode &&& info.mode) && signedTime info.mtime ≥ signedTime mtime)

namespace SyncPush

variable (c : SyncPush m)

def writeOrDie (bytes : Bytes) : m PUnit := do
  let ok ← c.writeFdExactly bytes
  if ok then pure ⟨⟩ else c.exit

/-- `SendSmallFile`: one write holds the request, the data and the end. -/
def sendSmallFile (pathAndMode : Bytes) (mtime : Nat) (data : Bytes) : m Bool := do
  let path := cString pathAndMode
  if path.length > maxPathLength then pure false
  else
    let ok ← c.writeRequest idSend 0
      (frame idSend path ++ frame idData data ++ header idDone mtime)
    if ok then
      c.setExpectDone true
      pure true
    else c.exit

/-- The loop of `SendLargeFile`, false after a failed read. -/
def sendChunks : List ReadResult → m Bool
  | [] => pure true
  | .data [] :: _ => pure true
  | .data (b :: bs) :: reads => do
      c.writeOrDie (frame idData ((b :: bs).take syncDataMax))
      let failed ← c.receivedError
      if failed then pure true else sendChunks reads
  | _ :: _ => pure false

def sendLargeFile (lpath pathAndMode : Bytes) (mtime : Nat) : m Bool := do
  let ok ← c.sendRequest idSend 0 pathAndMode
  if !ok then pure false
  else
    let st ← c.ask fun n => c.world.largeStat n lpath
    match st with
    | .error _ => pure false
    | .ok _ =>
        let opened ← c.ask c.world.largeOpened
        if !opened then pure false
        else
          let reads ← c.ask c.world.largeReads
          let done ← c.sendChunks reads
          if !done then pure false
          else
            c.setExpectDone true
            c.writeOrDie (header idDone mtime)
            pure true

/-- `CopyDone`.  A success that comes too early is reported and is a success. -/
def copyDone : m Bool := do
  let msg ← c.readFdExactly headerSize
  match msg with
  | none => pure false
  | some msg =>
      if headerId msg = idOkay then
        let expected ← c.expectDone
        if expected then
          c.setExpectDone false
          pure true
        else pure true
      else if headerId msg ≠ idFail then pure false
      else
        c.reportCopyFailure msg
        pure false

/-- `sync_send` without the check of the remote file. -/
def syncSendFile (lpath rpath : Bytes) (mtime mode : Nat) : m Bool := do
  let pathAndMode := pathAndMode rpath mode
  if sIsLnk mode then
    let target ← c.ask fun n => c.world.readlink n lpath
    match target with
    | none => pure false
    | some target =>
        let ok ← c.sendSmallFile pathAndMode mtime (target.take (pathMax - 1) ++ [0])
        if ok then c.copyDone else pure false
  else
    let st ← c.ask fun n => c.world.stat n lpath
    match st with
    | .error _ => pure false
    | .ok info =>
        if info.size < syncDataMax then
          let data ← c.ask fun n => c.world.readFileToString n lpath
          match data with
          | none => pure false
          | some data =>
              let ok ← c.sendSmallFile pathAndMode mtime data
              if ok then c.copyDone else pure false
        else
          let ok ← c.sendLargeFile lpath pathAndMode mtime
          if ok then c.copyDone else pure false

def syncSend (lpath rpath : Bytes) (mtime mode : Nat) (sync : Bool) : m Bool := do
  if sync then
    let st ← c.syncLstat rpath
    match st with
    | .ok info =>
        if upToDate mode mtime info then pure true
        else c.syncSendFile lpath rpath mtime mode
    | .error _ => c.syncSendFile lpath rpath mtime mode
  else c.syncSendFile lpath rpath mtime mode

end SyncPush

end Adb.SyncClient
