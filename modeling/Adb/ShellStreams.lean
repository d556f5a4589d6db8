import Adb.SelectSets

/-!
What passes through a shell subprocess: the client's stdin packets to the
child, and the child's two streams and its exit code to the client.
-/

namespace Adb.ShellStreams

open Adb.DescriptorIo
open Adb.FragmentedStreams
open Adb.ShellProtocol
open Adb.ShellServices (SubprocessType)
open Adb.ShellSubprocess
open Adb.TransitionSystems

/-! ## The child's stdin -/

/-- A packet as a client may send it, of any id and any length that fits the
header. -/
structure Frame where
  id : UInt8
  payload : Bytes
  fits : payload.length < 2 ^ 32

def Frame.bytes (f : Frame) : Bytes :=
  (f.id :: LittleEndian.encode 4 f.payload.length) ++ f.payload

/-- Bytes of a packet that belong to the child's stdin. -/
def stdinPart (id : UInt8) (bytes : Bytes) : Bytes :=
  if id = Id.stdin.code then bytes else []

/-- The payloads of the stdin packets, in order. -/
def stdinOf (sent : List Frame) : Bytes :=
  sent.flatMap fun f => stdinPart f.id f.payload

theorem stdinOf_cons (f : Frame) (sent : List Frame) :
    stdinOf (f :: sent) = stdinPart f.id f.payload ++ stdinOf sent := rfl

theorem stdinPart_append (id : UInt8) (first second : Bytes) :
    stdinPart id (first ++ second) = stdinPart id first ++ stdinPart id second := by
  rw [stdinPart, stdinPart, stdinPart]
  split <;> rfl

theorem stdin_id {input : Receiver} :
    input.id = Id.stdin.value ↔ input.idByte = Id.stdin.code :=
  charToInt_eq_value (by decide)

/-- The input of the client, from where the reader stands in it: the bytes that
are missing from the current packet, and the packets after it. -/
structure Ahead (input : Receiver) (incoming : List Bytes) (missing : Bytes)
    (frames : List Frame) : Prop where
  current : missing.length = input.bytesLeft
  stream : incoming.flatten <+: missing ++ frames.flatMap Frame.bytes

theorem prefix_split {α : Type} {first second left right : List α}
    (h : first ++ second <+: left ++ right) (hlen : first.length ≤ left.length) :
    ∃ rest, left = first ++ rest ∧ second <+: rest ++ right := by
  obtain ⟨tail, htail⟩ := h
  rw [List.append_assoc] at htail
  rcases List.append_eq_append_iff.mp htail with ⟨rest, hleft, hrest⟩ | ⟨rest, hfirst, hrest⟩
  · exact ⟨rest, hleft, tail, hrest⟩
  · have hnil : rest = [] := by
      have := congrArg List.length hfirst
      rw [List.length_append] at this
      exact List.length_eq_zero_iff.mp (by omega)
    subst hnil
    refine ⟨[], by simpa using hfirst.symm, tail, ?_⟩
    simpa using hrest.symm

theorem Ahead.read {input input' : Receiver} {incoming incoming' : List Bytes}
    {missing : Bytes} {frames : List Frame} (h : Ahead input incoming missing frames)
    (hread : input.read.run incoming = some (input', incoming')) :
    ∃ missing' frames', Ahead input' incoming' missing' frames' ∧
      stdinPart input'.idByte input'.data ++
          (stdinPart input'.idByte missing' ++ stdinOf frames') =
        stdinPart input.idByte missing ++ stdinOf frames := by
  have hcome := h.stream
  rcases read_eq_some hread with ⟨_, chunk, hlen, hflat, rfl⟩ |
    ⟨hidle, header, chunk, hsize, hlen, hflat, rfl⟩
  · rw [hflat] at hcome
    obtain ⟨rest, rfl, hrest⟩ := prefix_split hcome (by
      rw [hlen, h.current]
      exact Nat.min_le_left _ _)
    refine ⟨rest, frames, ⟨?_, hrest⟩, ?_⟩
    · have hmissing := h.current
      rw [List.length_append] at hmissing
      simp only
      omega
    · rw [stdinPart_append, List.append_assoc]
  · obtain rfl : missing = [] := List.length_eq_zero_iff.mp (h.current.trans hidle)
    rw [hflat, List.nil_append] at hcome
    cases frames with
    | nil =>
        have hnil := List.prefix_nil.mp hcome
        rw [List.append_eq_nil_iff] at hnil
        rw [hnil.1] at hsize
        cases hsize
    | cons f frames =>
        rw [List.flatMap_cons, Frame.bytes, List.append_assoc] at hcome
        obtain ⟨rest, hheader, hbody⟩ := prefix_split hcome (by
          rw [hsize, List.length_cons, LittleEndian.length_encode]
          exact Nat.le_refl _)
        have hrest : rest = [] := by
          have := congrArg List.length hheader
          rw [List.length_append, hsize, List.length_cons, LittleEndian.length_encode] at this
          exact List.length_eq_zero_iff.mp (by rw [headerSize] at this; omega)
        rw [hrest, List.append_nil] at hheader
        rw [hrest, List.nil_append] at hbody
        subst hheader
        have hvalue : LittleEndian.decode
            ((f.id :: LittleEndian.encode 4 f.payload.length).drop 1) = f.payload.length :=
          LittleEndian.decode_encode_of_lt f.fits
        rw [hvalue] at hlen
        obtain ⟨missing, hpayload, hlater⟩ := prefix_split hbody (by
          rw [hlen]
          exact Nat.min_le_left _ _)
        refine ⟨missing, frames, ⟨?_, hlater⟩, ?_⟩
        · simp only [hvalue]
          rw [hpayload, List.length_append, Nat.add_sub_cancel_left]
        · have hnone : stdinPart input.idByte [] = [] := by
            rw [stdinPart]
            split <;> rfl
          rw [hnone, List.nil_append, stdinOf_cons, hpayload, stdinPart_append,
            List.append_assoc]
          rfl

/-- The child's stdin has got a part of the stdin payloads from their start, and
while it is open nothing has been lost. -/
structure Fed (sent : List Frame) (s : Subprocess) : Prop where
  first : s.childInput <+: stdinOf sent
  left : s.inputBytesLeft ≤ s.input.data.length
  whole : s.isOpen .stdinout = true → ∃ missing frames,
    Ahead s.input s.incoming missing frames ∧
      s.childInput ++ (s.residue ++ (stdinPart s.input.idByte missing ++ stdinOf frames)) =
        stdinOf sent

theorem residue_of_done {s : Subprocess} (h : s.inputBytesLeft = 0) : s.residue = [] := by
  rw [Subprocess.residue, h, Nat.sub_zero, List.drop_length]

theorem residue_of_wrote {s : Subprocess} (h : s.inputBytesLeft ≤ s.input.data.length)
    (n : Nat) (childInput : Bytes) :
    ({ s with
      childInput := childInput
      inputBytesLeft := s.inputBytesLeft - (s.residue.take n).length } : Subprocess).residue =
        s.residue.drop n := by
  have hlen : s.residue.length = s.inputBytesLeft := by
    rw [Subprocess.residue, List.length_drop]
    omega
  rw [Subprocess.residue, List.length_take, hlen]
  rcases Nat.le_total n s.inputBytesLeft with hle | hle
  · rw [Nat.min_eq_left hle, Subprocess.residue, List.drop_drop]
    congr 1
    simp only
    omega
  · rw [Nat.min_eq_right hle, Nat.sub_self, Nat.sub_zero, List.drop_length,
      List.drop_of_length_le (by omega)]

theorem Fed.bury {sent : List Frame} {s : Subprocess} (h : Fed sent s) (dead : Sfd) :
    Fed sent (s.bury dead) := by
  have hfields : (s.bury dead).childInput = s.childInput ∧ (s.bury dead).input = s.input ∧
      (s.bury dead).incoming = s.incoming ∧
      (s.bury dead).inputBytesLeft = s.inputBytesLeft := by
    rw [Subprocess.bury]
    split <;> exact ⟨rfl, rfl, rfl, rfl⟩
  obtain ⟨hchild, hinput, hincoming, hleft⟩ := hfields
  refine ⟨?_, ?_, ?_⟩
  · rw [hchild]
    exact h.first
  · rw [hinput, hleft]
    exact h.left
  · intro hopen
    rw [Subprocess.residue, hchild, hinput, hincoming, hleft]
    exact h.whole (SelectSets.bury_isOpen hopen).1

theorem Fed.bury_stdin {sent : List Frame} {s t : Subprocess} (h : Fed sent s)
    (hchild : t.childInput = s.childInput)
    (hleft : t.inputBytesLeft ≤ t.input.data.length) : Fed sent (t.bury .stdinout) := by
  refine ⟨?_, hleft, ?_⟩
  · show t.childInput <+: _
    rw [hchild]
    exact h.first
  · intro hopen
    exact absurd rfl (SelectSets.bury_isOpen hopen).2.2

/-- The two states agree on the input and on the open descriptors. -/
structure SameInput (s s' : Subprocess) : Prop where
  isOpen : s'.isOpen = s.isOpen
  left : s'.inputBytesLeft = s.inputBytesLeft
  input : s'.input = s.input
  incoming : s'.incoming = s.incoming
  child : s'.childInput = s.childInput

theorem Fed.congr {sent : List Frame} {s s' : Subprocess} (h : Fed sent s)
    (hsame : SameInput s s') : Fed sent s' := by
  refine ⟨?_, ?_, ?_⟩
  · rw [hsame.child]
    exact h.first
  · rw [hsame.input, hsame.left]
    exact h.left
  · rw [Subprocess.residue, hsame.child, hsame.input, hsame.incoming, hsame.left, hsame.isOpen]
    exact h.whole

section PassInput

variable {sent : List Frame} {s : Subprocess} {change : Subprocess → Subprocess}

theorem Fed.settle_writeInput (h : Fed sent s) (hopen : s.isOpen .stdinout = true)
    (result : WriteResult) (hchange : ∀ s, SameInput s (change s)) :
    Fed sent (settle (change (writeInput result s).1, (writeInput result s).2)) := by
  rcases writeInput_cases s result with ⟨n, _, heq⟩ | heq
  · rw [heq]
    refine Fed.congr ?_ (hchange _)
    obtain ⟨missing, frames, hahead, hwhole⟩ := h.whole hopen
    have hwhole' : (s.childInput ++ s.residue.take n) ++ (s.residue.drop n ++
        (stdinPart s.input.idByte missing ++ stdinOf frames)) = stdinOf sent := by
      rw [← hwhole, List.append_assoc, ← List.append_assoc (s.residue.take n),
        List.take_append_drop]
    refine ⟨⟨_, hwhole'⟩, Nat.le_trans (Nat.sub_le _ _) h.left, fun _ => ?_⟩
    refine ⟨missing, frames, hahead, ?_⟩
    rw [← residue_of_wrote h.left n (s.childInput ++ s.residue.take n)] at hwhole'
    exact hwhole'
  · rw [heq]
    refine Fed.bury_stdin (t := change { s with inputBytesLeft := 0 }) h ?_ ?_
    · exact (hchange _).child
    · rw [(hchange _).left]
      exact Nat.zero_le _

theorem Fed.settle_takePacket (h : Fed sent s) (hopen : s.isOpen .stdinout = true)
    {input : Receiver} {incoming : List Bytes} (hidle : s.inputBytesLeft = 0)
    (hread : s.input.read.run s.incoming = some (input, incoming)) (shutdown : Bool)
    (result : WriteResult) (hchange : ∀ s, SameInput s (change s)) :
    Fed sent (settle (followedBy (takePacket shutdown result) change
      { s with input := input, incoming := incoming })) := by
  obtain ⟨missing, frames, hahead, hwhole⟩ := h.whole hopen
  obtain ⟨missing', frames', hahead', hmoved⟩ := hahead.read hread
  rw [residue_of_done hidle, List.nil_append, ← hmoved] at hwhole
  have hleft : s.inputBytesLeft ≤ input.data.length := by
    rw [hidle]
    exact Nat.zero_le _
  rcases takePacket_cases { s with input := input, incoming := incoming } shutdown result with
    ⟨hother, htake | htake⟩ | ⟨hstdin, htake⟩
  · -- The packet is dropped: it is not for stdin.
    rw [followedBy, htake]
    have hnone : stdinPart input.idByte input.data = [] :=
      if_neg fun hbyte => hother (stdin_id.mpr hbyte)
    have hfed : Fed sent { s with input := input, incoming := incoming } := by
      refine ⟨h.first, hleft, fun _ => ⟨missing', frames', hahead', ?_⟩⟩
      rw [residue_of_done (s := { s with input := input, incoming := incoming }) hidle,
        List.nil_append]
      rw [hnone, List.nil_append] at hwhole
      exact hwhole
    exact hfed.congr (hchange _)
  · rw [followedBy, htake]
    refine Fed.bury_stdin (t := change { s with input := input, incoming := incoming }) h ?_ ?_
    · exact (hchange _).child
    · rw [(hchange _).left, (hchange _).input]
      exact hleft
  · rw [followedBy, htake]
    have hall : stdinPart input.idByte input.data = input.data := if_pos (stdin_id.mp hstdin)
    have hfed : Fed sent { s with
        input := input, incoming := incoming, inputBytesLeft := input.data.length } := by
      refine ⟨h.first, Nat.le_refl _, fun _ => ⟨missing', frames', hahead', ?_⟩⟩
      rw [Subprocess.residue, Nat.sub_self, List.drop_zero]
      rw [hall] at hwhole
      exact hwhole
    exact hfed.settle_writeInput hopen result hchange

theorem Fed.settle_passInput (h : Fed sent s) (hvalid : s.inputBytesLeft ≠ 0 →
    s.isOpen .stdinout = true) (shutdown : Bool) (result : WriteResult)
    (hchange : ∀ s, SameInput s (change s)) :
    Fed sent (settle (followedBy (passInput shutdown result) change s)) := by
  rcases passInput_cases s shutdown result with ⟨_, _, heq⟩ |
    ⟨input, incoming, hidle, hread, ⟨hclosed, heq⟩ | ⟨hopen, heq⟩⟩ | ⟨hbusy, heq⟩
  · rw [followedBy, heq]
    exact (h.congr (hchange s)).bury .protocol
  · rw [followedBy, heq]
    have hfed : Fed sent { s with input := input, incoming := incoming } := by
      refine ⟨h.first, ?_, ?_⟩
      · rw [hidle]
        exact Nat.zero_le _
      · intro hopen
        rw [hclosed] at hopen
        cases hopen
    exact hfed.congr (hchange _)
  · rw [followedBy, heq]
    exact h.settle_takePacket hopen hidle hread shutdown result hchange
  · rw [followedBy, heq]
    exact h.settle_writeInput (hvalid hbusy) result hchange

end PassInput

theorem sameInput_blockOnStdin (s : Subprocess) : SameInput s s.blockOnStdin := by
  rw [Subprocess.blockOnStdin]
  split <;> exact ⟨rfl, rfl, rfl, rfl, rfl⟩

theorem sameInput_blockOnProtocol (s : Subprocess) : SameInput s s.blockOnProtocol := by
  rw [Subprocess.blockOnProtocol]
  split <;> exact ⟨rfl, rfl, rfl, rfl, rfl⟩

theorem Fed.round {sent : List Frame} {s : Subprocess} (h : Fed sent s)
    (hidle : s.readSet .protocol = true → s.inputBytesLeft = 0) (r : Round) :
    Fed sent (s.round r) := by
  have hcongr : ∀ s', SelectSets.SameControl s s' → Fed sent s' := fun s' hsame => h.congr
    ⟨hsame.isOpen, hsame.inputBytesLeft, hsame.input, hsame.incoming, hsame.childInput⟩
  rcases hselected : r.selected with _ | _ | ⟨readable, writable⟩
  · simp only [Subprocess.round, hselected]
    exact h
  · simp only [Subprocess.round, hselected]
    exact ⟨h.first, h.left, by simp⟩
  · simp only [Subprocess.round, hselected]
    apply SelectSets.settle_outputs (P := Fed sent)
    · exact fun s' hsame => (hcongr s' hsame).bury .protocol
    · exact fun s' hsame _ _ _ => (hcongr s' hsame).bury .stdinout
    · exact fun s' hsame _ => (hcongr s' hsame).bury .stderr
    · intro s' hsame
      have hprotocol : Fed sent (settle (onlyIf
          (validAndInSet .protocol fun sfd => s.readSet sfd && readable sfd)
          (followedBy (passInput r.shutdown r.stdin) Subprocess.blockOnStdin) s')) := by
        rw [onlyIf]
        split
        · rename_i hready
          have hset := (validAndInSet_eq.mp hready).2
          rw [Bool.and_eq_true] at hset
          refine (hcongr s' hsame).settle_passInput ?_ _ _ sameInput_blockOnStdin
          rw [hsame.inputBytesLeft]
          exact fun hbusy => absurd (hidle hset.1) hbusy
        · exact hcongr s' hsame
      apply SelectSets.settle_andThen
      · intro s'' dead hserve
        rw [hserve] at hprotocol
        exact hprotocol
      · intro s'' hserve
        rw [hserve] at hprotocol
        apply Keeps.onlyIf _ s'' hprotocol
        intro t hready ht
        exact ht.settle_passInput (fun _ => (validAndInSet_eq.mp hready).1) _ _
          sameInput_blockOnProtocol

/-! ## The packets to the client -/

/-- The payloads of the packets with an id, in order. -/
def payloadsOf (id : Id) (packets : List Packet) : Bytes :=
  packets.flatMap fun p => if p.id = id then p.payload else []

/-- Everything that was read from the child is in a packet of its stream, and
the packets are what went out, up to a `Write` that failed. -/
structure Packed (s : Subprocess) : Prop where
  ids : ∀ p ∈ s.packets, p.id = .stdout ∨ p.id = .stderr
  fits : ∀ p ∈ s.packets, p.payload.length ≤ dataCapacity
  stdout : payloadsOf .stdout s.packets = s.childOutput .stdinout
  stderr : payloadsOf .stderr s.packets = s.childOutput .stderr
  outgoing : s.broken = false → s.outgoing = s.packets.flatMap Packet.bytes
  whole : s.isOpen .protocol = true → s.broken = false

theorem payloadsOf_concat (id : Id) (packets : List Packet) (p : Packet) :
    payloadsOf id (packets ++ [p]) =
      payloadsOf id packets ++ (if p.id = id then p.payload else []) := by
  rw [payloadsOf, List.flatMap_append]
  simp [payloadsOf]

theorem length_chunkOf_le (result : ReadResult) : (chunkOf result).length ≤ dataCapacity := by
  cases result with
  | data bytes =>
      rw [chunkOf, List.length_take]
      exact Nat.min_le_left _ _
  | eagain => exact Nat.zero_le _
  | error => exact Nat.zero_le _

theorem Packed.congr {s s' : Subprocess} (h : Packed s) (hpackets : s'.packets = s.packets)
    (hchild : s'.childOutput = s.childOutput) (hout : s'.outgoing = s.outgoing)
    (hbroken : s'.broken = s.broken)
    (hopen : s'.isOpen .protocol = true → s.isOpen .protocol = true) : Packed s' := by
  constructor
  · rw [hpackets]
    exact h.ids
  · rw [hpackets]
    exact h.fits
  · rw [hpackets, hchild]
    exact h.stdout
  · rw [hpackets, hchild]
    exact h.stderr
  · rw [hpackets, hbroken, hout]
    exact h.outgoing
  · rw [hbroken]
    exact fun hprotocol => h.whole (hopen hprotocol)

theorem Packed.bury {s : Subprocess} (h : Packed s) (dead : Sfd) : Packed (s.bury dead) := by
  have hfields : (s.bury dead).packets = s.packets ∧
      (s.bury dead).childOutput = s.childOutput ∧ (s.bury dead).outgoing = s.outgoing ∧
      (s.bury dead).broken = s.broken := by
    rw [Subprocess.bury]
    split <;> exact ⟨rfl, rfl, rfl, rfl⟩
  obtain ⟨hpackets, hchild, hout, hbroken⟩ := hfields
  exact h.congr hpackets hchild hout hbroken fun hopen => (SelectSets.bury_isOpen hopen).1

/-- The stream of the child that a descriptor carries. -/
def streamOf : Sfd → Id
  | .stderr => .stderr
  | _ => .stdout

theorem Packed.record {s t : Subprocess} {sfd : Sfd} {chunk : Bytes} (h : Packed s)
    (hsfd : sfd ≠ .protocol) (hlen : chunk.length ≤ dataCapacity)
    (hchild : t.childOutput =
      Function.update s.childOutput sfd (s.childOutput sfd ++ chunk))
    (hpackets : t.packets = s.packets ++ [⟨streamOf sfd, chunk⟩])
    (hout : t.broken = false → t.outgoing = t.packets.flatMap Packet.bytes)
    (hwhole : t.isOpen .protocol = true → t.broken = false) : Packed t := by
  constructor
  · intro p hp
    rw [hpackets] at hp
    rcases List.mem_append.mp hp with hp | hp
    · exact h.ids p hp
    · rw [List.mem_singleton.mp hp]
      cases sfd with
      | stderr => exact .inr rfl
      | _ => exact .inl rfl
  · intro p hp
    rw [hpackets] at hp
    rcases List.mem_append.mp hp with hp | hp
    · exact h.fits p hp
    · rw [List.mem_singleton.mp hp]
      exact hlen
  · rw [hpackets, hchild, payloadsOf_concat, h.stdout]
    cases sfd with
    | protocol => exact absurd rfl hsfd
    | stdinout => simp [streamOf]
    | stderr => simp [streamOf]
  · rw [hpackets, hchild, payloadsOf_concat, h.stderr]
    cases sfd with
    | protocol => exact absurd rfl hsfd
    | stdinout => simp [streamOf]
    | stderr => simp [streamOf]
  · exact hout
  · exact hwhole

theorem Packed.settle_passOutput {s : Subprocess} (h : Packed s) {sfd : Sfd}
    (hsfd : sfd ≠ .protocol) (result : ReadResult) (script : List WriteResult) :
    Packed (settle (passOutput sfd (streamOf sfd) result script s)) := by
  simp only [passOutput]
  split
  · exact h.bury sfd
  split
  · exact h
  split
  · rename_i hdone
    refine h.record hsfd (length_chunkOf_le result) rfl rfl ?_ h.whole
    intro hbroken
    rw [settle, List.flatMap_append, List.flatMap_singleton, ← h.outgoing hbroken, write,
      ExactIo.writeFdExactly_bytes hdone]
  · refine h.record hsfd (length_chunkOf_le result) rfl rfl ?_ ?_
    · simp [settle, Subprocess.bury]
    · simp [settle, Subprocess.bury]

theorem Packed.settle_passInput {s : Subprocess} (h : Packed s) (shutdown : Bool)
    (result : WriteResult) {change : Subprocess → Subprocess}
    (hchange : ∀ s, Packed s → Packed (change s)) :
    Packed (settle (followedBy (passInput shutdown result) change s)) := by
  obtain ⟨_, _, _, _, hframe⟩ := passInput_frame s shutdown result
  have hpacked : Packed (change (passInput shutdown result s).1) := by
    rw [hframe]
    apply hchange
    exact ⟨h.ids, h.fits, h.stdout, h.stderr, h.outgoing, h.whole⟩
  rw [followedBy]
  rcases (passInput shutdown result s).2 with _ | dead
  · exact hpacked
  · exact hpacked.bury dead

theorem Packed.round {s : Subprocess} (h : Packed s) (r : Round) : Packed (s.round r) := by
  rcases hselected : r.selected with _ | _ | ⟨readable, writable⟩
  · simp only [Subprocess.round, hselected]
    exact h
  · simp only [Subprocess.round, hselected]
    exact h.congr rfl rfl rfl rfl (by simp)
  · simp only [Subprocess.round, hselected]
    refine keeps_serve ?_ ?_ ?_ ?_ s h
    · exact fun s _ _ hs => hs.settle_passOutput (by decide) _ _
    · exact fun s _ _ hs => hs.settle_passOutput (by decide) _ _
    · refine fun s _ _ hs => hs.settle_passInput _ _ fun s hs => ?_
      rw [Subprocess.blockOnStdin]
      split
      · exact hs
      · exact ⟨hs.ids, hs.fits, hs.stdout, hs.stderr, hs.outgoing, hs.whole⟩
    · refine fun s _ _ hs => hs.settle_passInput _ _ fun s hs => ?_
      rw [Subprocess.blockOnProtocol]
      split
      · exact ⟨hs.ids, hs.fits, hs.stdout, hs.stderr, hs.outgoing, hs.whole⟩
      · exact hs

/-! ## The exit code -/

/-- One return of `waitpid`: the child was killed by a signal, has exited, or
has stopped otherwise; or `waitpid` did not return its pid. -/
inductive WaitResult where
  | signaled (signal : UInt8)
  | exited (status : UInt8)
  | otherwise
  | failed
  deriving DecidableEq, Repr

/-- The loop of `WaitForExit`; nothing is returned while the child goes on. -/
def exitCode : List WaitResult → Option UInt8
  | [] => none
  | .signaled signal :: _ => some (0x80 ||| signal)
  | .otherwise :: _ => some 1
  | .exited status :: _ => some status
  | .failed :: waits => exitCode waits

/-- `WaitForExit`, up to the end of the protocol. -/
def waitForExit (waits : List WaitResult) (script : List WriteResult) (s : Subprocess) :
    Option Subprocess :=
  match exitCode waits with
  | none => none
  | some code =>
      if s.isOpen .protocol then
        let packet : Packet := ⟨.exit, [code]⟩
        let written := write script packet
        some { s with
          isOpen := Function.update s.isOpen .protocol false
          packets := s.packets ++ [packet]
          outgoing := s.outgoing ++ written.bytes
          broken := s.broken || written.status != .done }
      else some s

/-! ## What the client reads -/

/-- The data that a reader reports for an id, in order. -/
def dataOf (id : Id) (chunks : List (Int × Bytes)) : Bytes :=
  chunks.flatMap fun chunk => if chunk.1 = id.value then chunk.2 else []

/-- However the stream arrives and however large the buffer is, a reader reports
first the two streams and then what is at the end, and nothing else. -/
def Decodes (stream stdout stderr : Bytes) (last : List (Int × Bytes)) : Prop :=
  ∀ char capacity, 0 < capacity → ∀ pieces, Fragments pieces stream →
    ∃ chunks reader,
      ((Receiver.create char capacity).reads (chunks ++ last).length).run pieces =
        some ((chunks ++ last, reader), []) ∧
      reader.read.run [] = none ∧
      (∀ chunk ∈ chunks, chunk.1 = Id.stdout.value ∨ chunk.1 = Id.stderr.value) ∧
      dataOf .stdout chunks = stdout ∧ dataOf .stderr chunks = stderr

theorem value_injective {id id' : Id} (h : id.value = id'.value) : id = id' := by
  revert h
  cases id <;> cases id' <;> decide

theorem dataOf_of_ids {id : Id} {id' : Int} {chunks : List (Int × Bytes)}
    (h : ∀ chunk ∈ chunks, chunk.1 = id') :
    dataOf id chunks = if id' = id.value then (chunks.map Prod.snd).flatten else [] := by
  induction chunks with
  | nil => exact (ite_self _).symm
  | cons chunk chunks ih =>
      rw [dataOf, List.flatMap_cons, h chunk (by simp)]
      have hrest := ih fun other hother => h other (by simp [hother])
      rw [dataOf] at hrest
      rw [hrest]
      split
      · rw [List.map_cons, List.flatten_cons]
      · rfl

section Cuts

variable {capacity : Nat} {packets : List Packet} {groups : List (List (Int × Bytes))}

theorem dataOf_cut {p : Packet} {chunks : List (Int × Bytes)}
    (h : Cut capacity p.id.value p.payload chunks) (id : Id) :
    dataOf id chunks = if p.id = id then p.payload else [] := by
  rw [dataOf_of_ids h.ids, h.whole]
  rcases Decidable.em (p.id = id) with heq | hne
  · rw [if_pos heq, if_pos (congrArg Id.value heq)]
  · rw [if_neg hne, if_neg fun hvalue => hne (value_injective hvalue)]

theorem dataOf_cuts
    (h : List.Forall₂ (fun p group => Cut capacity p.id.value p.payload group) packets groups)
    (id : Id) : dataOf id groups.flatten = payloadsOf id packets := by
  induction h with
  | nil => rfl
  | cons hcut _ ih =>
      rw [List.flatten_cons, dataOf, List.flatMap_append]
      exact congrArg₂ (· ++ ·) (dataOf_cut hcut id) ih

theorem id_of_cuts
    (h : List.Forall₂ (fun p group => Cut capacity p.id.value p.payload group) packets groups)
    {chunk : Int × Bytes} (hchunk : chunk ∈ groups.flatten) :
    ∃ p ∈ packets, chunk.1 = p.id.value := by
  induction h with
  | nil => cases hchunk
  | @cons p group packets groups hcut _ ih =>
      rw [List.flatten_cons, List.mem_append] at hchunk
      rcases hchunk with hchunk | hchunk
      · exact ⟨p, by simp, hcut.ids chunk hchunk⟩
      · obtain ⟨p', hp', hid⟩ := ih hchunk
        exact ⟨p', by simp [hp'], hid⟩

end Cuts

/-- The packets of the two streams, read with a buffer of any size. -/
theorem Packed.yields {s : Subprocess} (h : Packed s) (hbroken : s.broken = false)
    (char : CharKind) {capacity : Nat} (hcapacity : 0 < capacity) :
    ∃ chunks reader,
      Yields ((Receiver.create char capacity).reads chunks.length) s.outgoing (chunks, reader) ∧
      reader.bytesLeft = 0 ∧ reader.char = char ∧ reader.capacity = capacity ∧
      (∀ chunk ∈ chunks, chunk.1 = Id.stdout.value ∨ chunk.1 = Id.stderr.value) ∧
      dataOf .stdout chunks = s.childOutput .stdinout ∧
      dataOf .stderr chunks = s.childOutput .stderr := by
  have hshort : ∀ p ∈ s.packets, p.payload.length < 2 ^ 32 := by
    intro p hp
    have hfits := h.fits p hp
    simp only [dataCapacity, bufferSize, headerSize, WirePackets.maxPayloadConst] at hfits
    omega
  have hsmall : ∀ p ∈ s.packets, char = .unsigned ∨ p.id.value < 128 := by
    intro p hp
    rcases h.ids p hp with hid | hid <;> exact .inr (by rw [hid]; decide)
  obtain ⟨groups, reader, hcuts, hread, hidle, hchar, hcap⟩ :=
    yields_reads_packets (Receiver.create char capacity) hcapacity rfl s.packets hshort
  replace hcuts := cuts_value hsmall hcuts
  rw [← h.outgoing hbroken] at hread
  refine ⟨groups.flatten, reader, hread, hidle, hchar, hcap, ?_, ?_, ?_⟩
  · intro chunk hchunk
    obtain ⟨p, hp, hid⟩ := id_of_cuts hcuts hchunk
    rw [hid]
    exact (h.ids p hp).imp (congrArg Id.value) (congrArg Id.value)
  · rw [dataOf_cuts hcuts, h.stdout]
  · rw [dataOf_cuts hcuts, h.stderr]

theorem Packed.decodes {s : Subprocess} (h : Packed s) (hbroken : s.broken = false) :
    Decodes s.outgoing (s.childOutput .stdinout) (s.childOutput .stderr) [] := by
  intro char capacity hcapacity pieces hpieces
  obtain ⟨chunks, reader, hread, hidle, _, _, hids, hstdout, hstderr⟩ :=
    h.yields hbroken char hcapacity
  refine ⟨chunks, reader, ?_, read_nil hidle, hids, hstdout, hstderr⟩
  rw [List.append_nil]
  exact hread.run_of_fragments hpieces

theorem Packed.decodes_exit {s : Subprocess} (h : Packed s) (hbroken : s.broken = false)
    (code : UInt8) :
    Decodes (s.outgoing ++ (⟨.exit, [code]⟩ : Packet).bytes) (s.childOutput .stdinout)
      (s.childOutput .stderr) [(Id.exit.value, [code])] := by
  intro char capacity hcapacity pieces hpieces
  obtain ⟨chunks, reader, hread, hidle, hchar, hcap, hids, hstdout, hstderr⟩ :=
    h.yields hbroken char hcapacity
  have hone : [code].length = min 1 reader.capacity := by
    rw [hcap, List.length_singleton]
    omega
  have hexit := yields_reads_one
    (yields_read_of_idle hidle Id.exit.code (by decide : 1 < 2 ^ 32) hone)
  have hid : charToInt reader.char Id.exit.code = Id.exit.value :=
    charToInt_code.mpr (.inr (by decide))
  rw [Receiver.id, hid] at hexit
  have hwhole := yields_reads_append hread hexit
  refine ⟨chunks, { reader with idByte := Id.exit.code, bytesLeft := 0, data := [code] }, ?_,
    read_nil rfl, hids, hstdout, hstderr⟩
  rw [List.length_append]
  exact hwhole.run_of_fragments hpieces

/-! ## Every run -/

theorem fed_start {sent : List Frame} {incoming : List Bytes}
    (h : incoming.flatten <+: sent.flatMap Frame.bytes) (char : CharKind)
    (type : SubprocessType) : Fed sent (start char type incoming) := by
  refine ⟨List.nil_prefix, Nat.le_refl _, fun _ => ⟨[], sent, ⟨rfl, h⟩, ?_⟩⟩
  rfl

theorem packed_start (char : CharKind) (type : SubprocessType) (incoming : List Bytes) :
    Packed (start char type incoming) :=
  ⟨nofun, nofun, rfl, rfl, fun _ => rfl, fun _ => rfl⟩

/-- What holds at every `select` and after the last one. -/
structure Faithful (sent : List Frame) (s : Subprocess) : Prop where
  fed : Fed sent s
  packed : Packed s
  sets : s.running = true → SelectSets.InStep s ∨ SelectSets.Orphaned s

theorem faithful_of_reachable {char : CharKind} {type : SubprocessType} {sent : List Frame}
    {incoming : List Bytes} (hincoming : incoming.flatten <+: sent.flatMap Frame.bytes)
    {s : Subprocess} (h : (system char type incoming).Reachable s) : Faithful sent s := by
  apply System.ReachableWhen.invariant h
  · rintro _ rfl
    exact ⟨fed_start hincoming char type, packed_start char type incoming,
      fun _ => .inl (SelectSets.inStep_start char type incoming)⟩
  · intro s r hs hrunning _
    have hidle : s.readSet .protocol = true → s.inputBytesLeft = 0 := by
      intro hset
      rcases hs.sets hrunning with hstep | horphaned
      · exact hstep.protocol.mp hset
      · rw [horphaned.protocol] at hset
        cases hset
    exact ⟨hs.fed.round hidle r, hs.packed.round r,
      SelectSets.inStep_or_orphaned_round (hs.sets hrunning)⟩

/-- `WaitForExit` with an open protocol: one packet more, and the client can read
it if the last `Write` does not fail. -/
theorem Packed.waitForExit {s : Subprocess} (h : Packed s) (hopen : s.isOpen .protocol = true)
    {waits : List WaitResult} {code : UInt8} (hcode : exitCode waits = some code)
    (script : List WriteResult) :
    ∃ s', waitForExit waits script s = some s' ∧
      s'.packets = s.packets ++ [⟨.exit, [code]⟩] ∧ s'.isOpen .protocol = false ∧
      ((write script ⟨.exit, [code]⟩).status = .done →
        Decodes s'.outgoing (s.childOutput .stdinout) (s.childOutput .stderr)
          [(Id.exit.value, [code])]) := by
  simp only [ShellStreams.waitForExit, hcode, hopen, if_true]
  refine ⟨_, rfl, rfl, by simp, fun hdone => ?_⟩
  have hdecodes := h.decodes_exit (h.whole hopen) code
  rw [← ExactIo.writeFdExactly_bytes hdone] at hdecodes
  exact hdecodes

/-- Whatever the client sends, the child writes and the descriptors do: the
child's stdin gets the stdin payloads in order; as long as no `Write` has failed
the client can read exactly the child's two streams; and once the child has
ended `WaitForExit` adds the one exit packet if the protocol is open. -/
theorem shell_streams_faithful (char : CharKind) (type : SubprocessType) (sent : List Frame)
    (incoming : List Bytes) (hincoming : incoming.flatten <+: sent.flatMap Frame.bytes)
    (s : Subprocess) (h : (system char type incoming).Reachable s) :
    s.childInput <+: stdinOf sent ∧
    (s.broken = false →
      Decodes s.outgoing (s.childOutput .stdinout) (s.childOutput .stderr) []) ∧
    ∀ waits code script, exitCode waits = some code → s.isOpen .protocol = true →
      s.broken = false ∧ (∀ p ∈ s.packets, p.id ≠ .exit) ∧
      ∃ s', waitForExit waits script s = some s' ∧
        s'.packets = s.packets ++ [⟨.exit, [code]⟩] ∧ s'.isOpen .protocol = false ∧
        ((write script ⟨.exit, [code]⟩).status = .done →
          Decodes s'.outgoing (s.childOutput .stdinout) (s.childOutput .stderr)
            [(Id.exit.value, [code])]) := by
  have hs := faithful_of_reachable hincoming h
  refine ⟨hs.fed.first, hs.packed.decodes, ?_⟩
  intro waits code script hcode hopen
  refine ⟨hs.packed.whole hopen, ?_, hs.packed.waitForExit hopen hcode script⟩
  intro p hp
  rcases hs.packed.ids p hp with hid | hid <;> simp [hid]

/-- The child writes a line. -/
def outputRound : Round where
  selected := .ready (· == .stdinout) (fun _ => false)
  stdout := .data (WirePackets.ascii "ok")
  stdoutScript := [.wrote 4, .wrote 100]
  stderr := .eagain
  stderrScript := []
  shutdown := true
  stdin := .eagain
  resumed := .eagain

/-- A packet of three bytes blocks, the child answers, and the rest is taken. -/
def answeredRun : List Round :=
  [SelectSets.blockedRound, outputRound, SelectSets.resumedRound]

/-- The state after that run. -/
def answered : Subprocess :=
  SelectSets.after .signed .raw SelectSets.threeBytes answeredRun

/-- `waitpid` is interrupted once, and then the child has exited with 7. -/
theorem shell_streams_faithful_answered :
    answered.childInput <+: WirePackets.ascii "abc" ∧
      Decodes answered.outgoing (WirePackets.ascii "ok") [] [] ∧
      ∃ s', waitForExit [.failed, .exited 7] [.eagain, .wrote 6] answered = some s' ∧
        s'.packets = [⟨.stdout, WirePackets.ascii "ok"⟩, ⟨.exit, [7]⟩] ∧
        s'.isOpen .protocol = false ∧
        Decodes s'.outgoing (WirePackets.ascii "ok") [] [(3, [7])] := by
  have hreach : (system .signed .raw SelectSets.threeBytes).Reachable answered :=
    System.reachableWhen_execute ⟨_, rfl, .refl⟩ (by decide)
  have hfaithful := shell_streams_faithful .signed .raw
    [⟨0, WirePackets.ascii "abc", by decide⟩] SelectSets.threeBytes (by decide) _ hreach
  obtain ⟨_, _, s', hwait, hpackets, hclosed, hdecodes⟩ :=
    hfaithful.2.2 [.failed, .exited 7] 7 [.eagain, .wrote 6] rfl (by decide)
  exact ⟨hfaithful.1, hfaithful.2.1 (by decide), s', hwait, hpackets, hclosed,
    hdecodes (by decide)⟩

end Adb.ShellStreams
