import Mathlib.Logic.Function.Basic
import Adb.ShellProtocol
import Adb.ShellServices
import Adb.TransitionSystems

/-!
The loop of a shell subprocess with the shell protocol, shell_service.cpp: the
streams of the child are packed for the client and the packets of the client
are unpacked into the child's stdin, between calls of `select`.
-/

namespace Adb.ShellSubprocess

open Adb.DescriptorIo
open Adb.ShellProtocol
open Adb.TransitionSystems
open Adb.ShellServices (SubprocessType)

/-- The descriptors `protocol_sfd_`, `stdinout_sfd_` and `stderr_sfd_`. -/
inductive Sfd where
  | protocol
  | stdinout
  | stderr
  deriving DecidableEq, Repr

abbrev FdSet := Sfd → Bool

/-- `data_capacity()` of the two `ShellProtocol`s. -/
def dataCapacity : Nat := bufferSize - headerSize

/-- A `Subprocess` while `PassDataStreams` runs, with the two master sets of
`PassDataStreams`.  The last fields record what goes in and out: what the
protocol descriptor still delivers, what the child's stdin has accepted, what
was read from each of the child's pipes, the packets given to `Write` with the
bytes that went out, and whether a `Write` has failed. -/
structure Subprocess where
  type : SubprocessType
  isOpen : Sfd → Bool
  readSet : FdSet
  writeSet : FdSet
  input : Receiver
  inputBytesLeft : Nat
  hangup : Bool
  incoming : List Bytes
  childInput : Bytes
  childOutput : Sfd → Bytes
  packets : List Packet
  outgoing : Bytes
  broken : Bool

/-- The subprocess that `ForkAndExec` leaves, and the sets at the start of
`PassDataStreams`.  Only a raw subprocess has its stderr on a pipe of its own. -/
def start (char : CharKind) (type : SubprocessType) (incoming : List Bytes) : Subprocess :=
  let isOpen : Sfd → Bool := fun sfd => sfd != .stderr || type == .raw
  { type := type
    isOpen := isOpen
    readSet := isOpen
    writeSet := fun _ => false
    input := Receiver.create char dataCapacity
    inputBytesLeft := 0
    hangup := false
    incoming := incoming
    childInput := []
    childOutput := fun _ => []
    packets := []
    outgoing := []
    broken := false }

/-- A stream handler returns the descriptor that died, if one did. -/
abbrev Handler := Subprocess → Subprocess × Option Sfd

/-- The second handler runs if nothing died in the first one. -/
def andThen (first second : Handler) : Handler := fun s =>
  match first s with
  | (s, none) => second s
  | (s, some dead) => (s, some dead)

def onlyIf (condition : Subprocess → Bool) (handler : Handler) : Handler := fun s =>
  if condition s then handler s else (s, none)

/-- What `adb_read` stores in a buffer of `data_capacity()` bytes. -/
def chunkOf : ReadResult → Bytes
  | .data bytes => bytes.take dataCapacity
  | _ => []

/-- The result is `0`, or an error other than `EAGAIN`. -/
def isEnd : ReadResult → Bool
  | .data bytes => bytes.isEmpty
  | .eagain => false
  | .error => true

/-- `PassOutput`.  A `Write` whose script runs out has failed. -/
def passOutput (sfd : Sfd) (id : Id) (result : ReadResult) (script : List WriteResult) :
    Handler := fun s =>
  if isEnd result then (s, some sfd)
  else if chunkOf result = [] then (s, none)
  else
    let packet : Packet := ⟨id, chunkOf result⟩
    let written := write script packet
    let s := { s with
      childOutput := Function.update s.childOutput sfd (s.childOutput sfd ++ packet.payload)
      packets := s.packets ++ [packet]
      outgoing := s.outgoing ++ written.bytes }
    if written.status = .done then (s, none)
    else ({ s with broken := true }, some .protocol)

/-- The bytes of the current packet that stdin has not accepted yet. -/
def Subprocess.residue (s : Subprocess) : Bytes :=
  s.input.data.drop (s.input.data.length - s.inputBytesLeft)

/-- The end of `PassInput`: one `adb_write` of the residue. -/
def writeInput (result : WriteResult) : Handler := fun s =>
  if s.inputBytesLeft = 0 then (s, none)
  else
    match result with
    | .eagain => (s, none)
    | .error => ({ s with inputBytesLeft := 0 }, some .stdinout)
    | .wrote n =>
        let bytes := s.residue.take n
        if bytes = [] then ({ s with inputBytesLeft := 0 }, some .stdinout)
        else
          ({ s with
              childInput := s.childInput ++ bytes
              inputBytesLeft := s.inputBytesLeft - bytes.length }, none)

/-- The switch of `PassInput` over the id of a packet, and what follows it.
`shutdown` tells whether `adb_shutdown` succeeds.  A change of the window size
is passed on to the terminal and changes nothing here. -/
def takePacket (shutdown : Bool) (result : WriteResult) : Handler := fun s =>
  if s.input.id = Id.stdin.value then
    writeInput result { s with inputBytesLeft := s.input.data.length }
  else if s.input.id = Id.closeStdin.value then
    match s.type with
    | .raw => (s, if shutdown then none else some .stdinout)
    | .pty => (s, none)
  else (s, none)

def passInput (shutdown : Bool) (result : WriteResult) : Handler := fun s =>
  if s.inputBytesLeft = 0 then
    match s.input.read.run s.incoming with
    | none => (s, some .protocol)
    | some (input, incoming) =>
        let s := { s with input := input, incoming := incoming }
        -- Without a stdin the packets of the client are dropped.
        if s.isOpen .stdinout then takePacket shutdown result s else (s, none)
  else writeInput result s

/-- If `PassInput` did not finish writing, block on stdin. -/
def Subprocess.blockOnStdin (s : Subprocess) : Subprocess :=
  if s.inputBytesLeft = 0 then s
  else { s with
    readSet := Function.update s.readSet .protocol false
    writeSet := Function.update s.writeSet .stdinout true }

/-- If `PassInput` finished writing, block on the protocol again. -/
def Subprocess.blockOnProtocol (s : Subprocess) : Subprocess :=
  if s.inputBytesLeft = 0 then { s with
    readSet := Function.update s.readSet .protocol true
    writeSet := Function.update s.writeSet .stdinout false }
  else s

/-- A handler, and a change of the master sets after it. -/
def followedBy (handler : Handler) (change : Subprocess → Subprocess) : Handler := fun s =>
  (change (handler s).1, (handler s).2)

/-- How `select` returns.  The descriptors that are ready count where they are
in the set that was passed to it. -/
inductive Selected where
  | interrupted
  | failed
  | ready (readable writable : FdSet)

/-- The descriptors that can be read when `select` returns. -/
def Selected.readable : Selected → FdSet
  | .ready readable _ => readable
  | _ => fun _ => false

/-- What the environment does from one `select` to the next: the result of
`select`, of reading the two pipes of the child, of writing to the client, of
`adb_shutdown` and of writing to the child's stdin. -/
structure Round where
  selected : Selected
  stdout : ReadResult
  stdoutScript : List WriteResult
  stderr : ReadResult
  stderrScript : List WriteResult
  shutdown : Bool
  stdin : WriteResult
  resumed : WriteResult

def validAndInSet (sfd : Sfd) (set : FdSet) (s : Subprocess) : Bool :=
  s.isOpen sfd && set sfd

/-- The body of the loop of `SelectLoop` after a `select` that returned these
two sets. -/
def serve (r : Round) (readSet writeSet : FdSet) : Handler :=
  andThen
    (onlyIf (validAndInSet .stdinout readSet)
      (passOutput .stdinout .stdout r.stdout r.stdoutScript)) <|
  andThen
    (onlyIf (validAndInSet .stderr readSet)
      (passOutput .stderr .stderr r.stderr r.stderrScript)) <|
  andThen
    (onlyIf (validAndInSet .protocol readSet)
      (followedBy (passInput r.shutdown r.stdin) Subprocess.blockOnStdin))
    (onlyIf (validAndInSet .stdinout writeSet)
      (followedBy (passInput r.shutdown r.resumed) Subprocess.blockOnProtocol))

/-- What `PassDataStreams` does about a descriptor that died. -/
def Subprocess.bury (s : Subprocess) (dead : Sfd) : Subprocess :=
  let s := { s with
    readSet := Function.update s.readSet dead false
    writeSet := Function.update s.writeSet dead false }
  if dead = .protocol then { s with hangup := true, isOpen := fun _ => false }
  else { s with isOpen := Function.update s.isOpen dead false }

def settle : Subprocess × Option Sfd → Subprocess
  | (s, none) => s
  | (s, some dead) => s.bury dead

/-- From one `select` to the next one, or to the end of `PassDataStreams`. -/
def Subprocess.round (s : Subprocess) (r : Round) : Subprocess :=
  match r.selected with
  | .interrupted => s
  | .failed => { s with isOpen := fun sfd => sfd == .protocol && s.isOpen sfd }
  | .ready readable writable =>
      settle (serve r (fun sfd => s.readSet sfd && readable sfd)
        (fun sfd => s.writeSet sfd && writable sfd) s)

/-- The condition of the loop of `PassDataStreams`: `select` is called. -/
def Subprocess.running (s : Subprocess) : Bool :=
  s.isOpen .protocol && (s.isOpen .stdinout || s.isOpen .stderr)

/-- The states are those at the calls of `select` and after the last one. -/
def system (char : CharKind) (type : SubprocessType) (incoming : List Bytes) :
    System Subprocess Round where
  initial s := s = start char type incoming
  enabled s _ := s.running = true
  next := Subprocess.round

/-! ## What a handler keeps -/

/-- The property is kept, the burial of a dead descriptor included. -/
def Keeps (I : Subprocess → Prop) (handler : Handler) : Prop :=
  ∀ s, I s → I (settle (handler s))

section Handlers

variable {I : Subprocess → Prop} {first second handler : Handler} {s : Subprocess}

theorem Keeps.andThen (hfirst : Keeps I first) (hsecond : Keeps I second) :
    Keeps I (andThen first second) := by
  intro s hs
  have hmiddle := hfirst s hs
  rw [ShellSubprocess.andThen]
  rcases hcase : first s with ⟨s', _ | dead⟩
  · rw [hcase] at hmiddle
    exact hsecond s' hmiddle
  · rw [hcase] at hmiddle
    exact hmiddle

theorem Keeps.onlyIf {condition : Subprocess → Bool}
    (h : ∀ s, condition s = true → I s → I (settle (handler s))) :
    Keeps I (onlyIf condition handler) := by
  intro s hs
  rw [ShellSubprocess.onlyIf]
  split
  · exact h s ‹_› hs
  · exact hs

@[simp] theorem validAndInSet_eq {sfd : Sfd} {set : FdSet} :
    validAndInSet sfd set s = true ↔ s.isOpen sfd = true ∧ set sfd = true := by
  rw [validAndInSet, Bool.and_eq_true]

theorem keeps_serve {r : Round} {readSet writeSet : FdSet}
    (hstdout : ∀ s, s.isOpen .stdinout = true → readSet .stdinout = true → I s →
      I (settle (passOutput .stdinout .stdout r.stdout r.stdoutScript s)))
    (hstderr : ∀ s, s.isOpen .stderr = true → readSet .stderr = true → I s →
      I (settle (passOutput .stderr .stderr r.stderr r.stderrScript s)))
    (hprotocol : ∀ s, s.isOpen .protocol = true → readSet .protocol = true → I s →
      I (settle (followedBy (passInput r.shutdown r.stdin) Subprocess.blockOnStdin s)))
    (hstdin : ∀ s, s.isOpen .stdinout = true → writeSet .stdinout = true → I s →
      I (settle (followedBy (passInput r.shutdown r.resumed) Subprocess.blockOnProtocol s))) :
    Keeps I (serve r readSet writeSet) := by
  refine Keeps.andThen ?_ (Keeps.andThen ?_ (Keeps.andThen ?_ ?_))
  all_goals
    apply Keeps.onlyIf
    intro s hcondition
    obtain ⟨hopen, hset⟩ := validAndInSet_eq.mp hcondition
  · exact hstdout s hopen hset
  · exact hstderr s hopen hset
  · exact hprotocol s hopen hset
  · exact hstdin s hopen hset

end Handlers

/-! ## The descriptors and the master sets -/

section Descriptors

variable (s : Subprocess)

theorem passOutput_frame (sfd : Sfd) (id : Id) (result : ReadResult)
    (script : List WriteResult) :
    ∃ childOutput packets outgoing broken,
      (passOutput sfd id result script s).1 = { s with
        childOutput := childOutput, packets := packets, outgoing := outgoing,
        broken := broken } := by
  simp only [passOutput]
  split
  · exact ⟨_, _, _, _, rfl⟩
  split
  · exact ⟨_, _, _, _, rfl⟩
  split
  · exact ⟨_, _, _, _, rfl⟩
  · exact ⟨_, _, _, _, rfl⟩

theorem passOutput_dead (sfd : Sfd) (id : Id) (result : ReadResult)
    (script : List WriteResult) :
    (passOutput sfd id result script s).2 = none ∨
      (passOutput sfd id result script s).2 = some .protocol ∨
      isEnd result = true ∧ (passOutput sfd id result script s).2 = some sfd := by
  simp only [passOutput]
  split
  · exact .inr (.inr ⟨‹_›, rfl⟩)
  split
  · exact .inl rfl
  split
  · exact .inl rfl
  · exact .inr (.inl rfl)

theorem writeInput_cases (result : WriteResult) :
    (∃ n, (s.residue.take n = [] → n = 0) ∧ writeInput result s =
      ({ s with
        childInput := s.childInput ++ s.residue.take n
        inputBytesLeft := s.inputBytesLeft - (s.residue.take n).length }, none)) ∨
    writeInput result s = ({ s with inputBytesLeft := 0 }, some .stdinout) := by
  simp only [writeInput]
  split
  · refine .inl ⟨0, fun _ => rfl, ?_⟩
    simp
  cases result with
  | eagain => exact .inl ⟨0, fun _ => rfl, by simp⟩
  | error => exact .inr rfl
  | wrote n =>
      simp only
      split
      · exact .inr rfl
      · rename_i hsome
        exact .inl ⟨n, fun hnone => absurd hnone hsome, rfl⟩

theorem takePacket_cases (shutdown : Bool) (result : WriteResult) :
    (s.input.id ≠ Id.stdin.value ∧
      (takePacket shutdown result s = (s, none) ∨
        takePacket shutdown result s = (s, some .stdinout))) ∨
    (s.input.id = Id.stdin.value ∧ takePacket shutdown result s =
      writeInput result { s with inputBytesLeft := s.input.data.length }) := by
  rw [takePacket]
  split
  · exact .inr ⟨‹_›, rfl⟩
  · refine .inl ⟨‹_›, ?_⟩
    split
    · cases s.type with
      | pty => exact .inl rfl
      | raw =>
          cases shutdown with
          | true => exact .inl rfl
          | false => exact .inr rfl
    · exact .inl rfl

theorem passInput_cases (shutdown : Bool) (result : WriteResult) :
    (s.inputBytesLeft = 0 ∧ s.input.read.run s.incoming = none ∧
      passInput shutdown result s = (s, some .protocol)) ∨
    (∃ input incoming, s.inputBytesLeft = 0 ∧
      s.input.read.run s.incoming = some (input, incoming) ∧
      ((s.isOpen .stdinout = false ∧
          passInput shutdown result s =
            ({ s with input := input, incoming := incoming }, none)) ∨
        (s.isOpen .stdinout = true ∧
          passInput shutdown result s =
            takePacket shutdown result { s with input := input, incoming := incoming }))) ∨
    (s.inputBytesLeft ≠ 0 ∧ passInput shutdown result s = writeInput result s) := by
  rw [passInput]
  split
  · rename_i hdone
    rcases hread : s.input.read.run s.incoming with _ | ⟨input, incoming⟩
    · exact .inl ⟨hdone, rfl, rfl⟩
    · refine .inr (.inl ⟨input, incoming, hdone, rfl, ?_⟩)
      cases hopen : s.isOpen .stdinout with
      | false => exact .inl ⟨rfl, by simp [hopen]⟩
      | true => exact .inr ⟨rfl, by simp [hopen]⟩
  · exact .inr (.inr ⟨‹_›, rfl⟩)

theorem passInput_frame (shutdown : Bool) (result : WriteResult) :
    ∃ input inputBytesLeft incoming childInput,
      (passInput shutdown result s).1 = { s with
        input := input, inputBytesLeft := inputBytesLeft, incoming := incoming,
        childInput := childInput } := by
  have hwrite : ∀ t : Subprocess, ∃ inputBytesLeft childInput,
      (writeInput result t).1 = { t with
        inputBytesLeft := inputBytesLeft, childInput := childInput } := by
    intro t
    rcases writeInput_cases t result with ⟨n, _, heq⟩ | heq
    · exact ⟨_, _, by rw [heq]⟩
    · exact ⟨_, _, by rw [heq]⟩
  rcases passInput_cases s shutdown result with ⟨_, _, heq⟩ |
    ⟨input, incoming, _, _, ⟨_, heq⟩ | ⟨_, heq⟩⟩ | ⟨_, heq⟩
  · exact ⟨_, _, _, _, by rw [heq]⟩
  · exact ⟨_, _, _, _, by rw [heq]⟩
  · rw [heq]
    rcases takePacket_cases { s with input := input, incoming := incoming } shutdown result with
      ⟨_, htake | htake⟩ | ⟨_, htake⟩
    · exact ⟨_, _, _, _, by rw [htake]⟩
    · exact ⟨_, _, _, _, by rw [htake]⟩
    · obtain ⟨_, _, heq'⟩ := hwrite { s with
        input := input, incoming := incoming, inputBytesLeft := input.data.length }
      exact ⟨_, _, _, _, by rw [htake, heq']⟩
  · obtain ⟨_, _, heq'⟩ := hwrite s
    exact ⟨_, _, _, _, by rw [heq, heq']⟩

end Descriptors

end Adb.ShellSubprocess
