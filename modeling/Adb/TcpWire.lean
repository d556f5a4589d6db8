import Adb.ConnectionLimits
import Adb.ExactIo
import Adb.LittleEndian
import Mathlib.Algebra.Ring.Nat

/-! The packets of transport_local.cpp on a TCP connection. -/

namespace Adb.TcpWire

open Adb.ConnectionLimits
open Adb.DescriptorIo
open Adb.ExactIo
open Adb.FragmentedStreams

/-- The six words of an `amessage`. -/
structure Amessage where
  command : UInt32
  arg0 : UInt32
  arg1 : UInt32
  dataLength : UInt32
  dataCheck : UInt32
  magic : UInt32
  deriving DecidableEq, Repr

/-- A header and a buffer that holds at least the payload it announces. -/
structure Packet where
  msg : Amessage
  data : Bytes
  fits : msg.dataLength.toNat ≤ data.length
  deriving DecidableEq, Repr

def Packet.payload (p : Packet) : Bytes := p.data.take p.msg.dataLength.toNat

def word (n : UInt32) : Bytes := LittleEndian.encode 4 n.toNat

/-- The words in memory order, on a little-endian machine. -/
def Amessage.bytes (msg : Amessage) : Bytes :=
  word msg.command ++ word msg.arg0 ++ word msg.arg1 ++ word msg.dataLength ++
    word msg.dataCheck ++ word msg.magic

def wordAt (bytes : Bytes) (i : Nat) : UInt32 :=
  UInt32.ofNat (LittleEndian.decode ((bytes.drop (4 * i)).take 4))

def Amessage.ofBytes (bytes : Bytes) : Amessage where
  command := wordAt bytes 0
  arg0 := wordAt bytes 1
  arg1 := wordAt bytes 2
  dataLength := wordAt bytes 3
  dataCheck := wordAt bytes 4
  magic := wordAt bytes 5

/-- `calculate_apacket_checksum`, a sum modulo `2 ^ 32`. -/
def checksum (payload : Bytes) : UInt32 :=
  payload.foldl (fun sum x => sum + x.toUInt32) 0

/-- What `send_packet` fills in. -/
def sendPacket (p : Packet) : Packet where
  msg :=
    { p.msg with
      magic := p.msg.command ^^^ 0xffffffff
      dataCheck := checksum p.payload }
  data := p.data
  fits := p.fits

variable {build : Build}

def checkHeader (t : Limits build) (msg : Amessage) : Bool :=
  msg.magic = msg.command ^^^ 0xffffffff && msg.dataLength.toNat ≤ t.maxPayload

def checkData (p : Packet) : Bool := checksum p.payload = p.msg.dataCheck

def remoteRead (t : Limits build) : Reader UInt8 Packet := do
  let header ← readFdExactly 24
  let msg := Amessage.ofBytes header
  if checkHeader t msg then
    let data ← readFdExactly msg.dataLength.toNat
    if fits : msg.dataLength.toNat ≤ data.length then
      let p : Packet := ⟨msg, data, fits⟩
      if checkData p then pure p else failure
    else failure
  else failure

/-- `sizeof(amessage) + length` as a `size_t`, with `length` an `int`. -/
def writeLength (p : Packet) : Nat :=
  (p.msg.dataLength.toBitVec.signExtend 64 + 24).toNat

/-- The bytes that `remote_write` takes from a packet. -/
def remoteBytes (p : Packet) : Bytes := (p.msg.bytes ++ p.data).take (writeLength p)

def remoteWrite (script : List WriteResult) (p : Packet) : Written Bytes :=
  writeFdExactly script (remoteBytes p)

/-- The packets that the write thread takes one after the other. -/
def remoteWrites (script : List WriteResult) (packets : List Packet) :
    Written (List Packet) :=
  writeEach remoteWrite script packets

/-- What the receiver is told about a packet. -/
def Packet.content (p : Packet) : UInt32 × UInt32 × UInt32 × UInt32 × Bytes :=
  (p.msg.command, p.msg.arg0, p.msg.arg1, p.msg.dataLength, p.payload)

theorem length_bytes (msg : Amessage) : msg.bytes.length = 24 := by
  simp [Amessage.bytes, word]

theorem ofNat_decode_word (n : UInt32) :
    UInt32.ofNat (LittleEndian.decode (word n)) = n := by
  rw [word, LittleEndian.decode_encode_of_lt n.toNat_lt, UInt32.ofNat_toNat]

theorem word_ofNat_decode {bytes : Bytes} (h : bytes.length = 4) :
    word (UInt32.ofNat (LittleEndian.decode bytes)) = bytes := by
  have hlt := LittleEndian.decode_lt bytes
  rw [h] at hlt
  rw [word, UInt32.toNat_ofNat_of_lt' hlt, ← h, LittleEndian.encode_decode]

theorem ofBytes_bytes (msg : Amessage) : Amessage.ofBytes msg.bytes = msg := by
  have hwords : Amessage.ofBytes msg.bytes =
      ⟨UInt32.ofNat (LittleEndian.decode (word msg.command)),
        UInt32.ofNat (LittleEndian.decode (word msg.arg0)),
        UInt32.ofNat (LittleEndian.decode (word msg.arg1)),
        UInt32.ofNat (LittleEndian.decode (word msg.dataLength)),
        UInt32.ofNat (LittleEndian.decode (word msg.dataCheck)),
        UInt32.ofNat (LittleEndian.decode (word msg.magic))⟩ := rfl
  rw [hwords]
  simp only [ofNat_decode_word]

theorem bytes_ofBytes {bytes : Bytes} (h : bytes.length = 24) :
    (Amessage.ofBytes bytes).bytes = bytes := by
  have hword : ∀ i < 6, word (wordAt bytes i) = (bytes.drop (4 * i)).take 4 := by
    intro i hi
    apply word_ofNat_decode
    rw [List.length_take, List.length_drop, h]
    omega
  have hsplit : ∀ i, (bytes.drop (4 * i)).take 4 ++ bytes.drop (4 * (i + 1)) =
      bytes.drop (4 * i) := by
    intro i
    rw [Nat.mul_succ, ← List.drop_drop, List.take_append_drop]
  have hlast : bytes.drop (4 * 6) = [] := List.drop_of_length_le (by omega)
  simp only [Amessage.bytes, Amessage.ofBytes, List.append_assoc]
  rw [hword 0 (by omega), hword 1 (by omega), hword 2 (by omega),
    hword 3 (by omega), hword 4 (by omega), hword 5 (by omega),
    ← List.append_nil ((bytes.drop (4 * 5)).take 4), ← hlast,
    hsplit 5, hsplit 4, hsplit 3, hsplit 2, hsplit 1, hsplit 0]
  rfl

theorem toNat_foldl_checksum (payload : Bytes) (start : UInt32) :
    (payload.foldl (fun sum x => sum + x.toUInt32) start).toNat =
      (start.toNat + (payload.map UInt8.toNat).sum) % 2 ^ 32 := by
  induction payload generalizing start with
  | nil => simp [Nat.mod_eq_of_lt start.toNat_lt]
  | cons x payload ih =>
      rw [List.foldl_cons, ih, UInt32.toNat_add, UInt8.toNat_toUInt32,
        List.map_cons, List.sum_cons]
      omega

theorem sum_toNat_le (payload : Bytes) :
    (payload.map UInt8.toNat).sum ≤ 255 * payload.length := by
  induction payload with
  | nil => simp
  | cons x payload ih =>
      have hx : x.toNat < 256 := x.toNat_lt
      rw [List.map_cons, List.sum_cons, List.length_cons]
      omega

/-- No admitted payload is long enough for the sum to wrap. -/
theorem toNat_checksum {payload : Bytes} (t : Limits adbBuild)
    (h : payload.length ≤ t.maxPayload) :
    (checksum payload).toNat = (payload.map UInt8.toNat).sum := by
  have hlimit := t.payload_le
  have hsum := sum_toNat_le payload
  rw [checksum, toNat_foldl_checksum, UInt32.toNat_zero, Nat.zero_add]
  simp only [adbBuild, WirePackets.maxPayloadConst] at hlimit
  apply Nat.mod_eq_of_lt
  omega

theorem length_payload (p : Packet) : p.payload.length = p.msg.dataLength.toNat := by
  rw [Packet.payload, List.length_take]
  exact Nat.min_eq_left p.fits

/-- What a packet looks like on the wire. -/
def Packet.wire (p : Packet) : Bytes := p.msg.bytes ++ p.payload

/-- What the receiver holds of a packet: its buffer ends with the payload. -/
def Packet.received (p : Packet) : Packet where
  msg := p.msg
  data := p.payload
  fits := Nat.le_of_eq (length_payload p).symm

theorem payload_received (p : Packet) : p.received.payload = p.payload := by
  rw [Packet.payload, Packet.received, List.take_of_length_le]
  exact Nat.le_of_eq (length_payload p)

theorem writeLength_eq {p : Packet} (h : p.msg.dataLength.toNat < 2 ^ 31) :
    writeLength p = 24 + p.msg.dataLength.toNat := by
  have hword : p.msg.dataLength.toBitVec.toNat = p.msg.dataLength.toNat := rfl
  have hheader : (24 : BitVec 64).toNat = 24 := rfl
  have hmsb : p.msg.dataLength.toBitVec.msb = false := by
    rw [BitVec.msb_eq_false_iff_two_mul_lt]
    omega
  rw [writeLength, BitVec.signExtend_eq_setWidth_of_msb_false hmsb, BitVec.toNat_add,
    BitVec.toNat_setWidth, hword, hheader]
  omega

theorem remoteBytes_eq {p : Packet} (hlen : p.msg.dataLength.toNat < 2 ^ 31) :
    remoteBytes p = p.wire := by
  rw [remoteBytes, writeLength_eq hlen, List.take_append, length_bytes,
    List.take_of_length_le (by rw [length_bytes]; omega)]
  congr 2
  omega

theorem remoteWrites_bytes {script : List WriteResult} {packets : List Packet}
    (hlen : ∀ p ∈ packets, p.msg.dataLength.toNat < 2 ^ 31)
    (h : (remoteWrites script packets).status = .done) :
    (remoteWrites script packets).bytes = packets.flatMap Packet.wire := by
  rw [remoteWrites, @writeEach_bytes _ remoteWrite remoteBytes (fun _ _ => rfl) _ _ h]
  exact List.flatMap_congr fun p hp => remoteBytes_eq (hlen p hp)

theorem checkHeader_sendPacket {t : Limits build} {p : Packet}
    (h : p.msg.dataLength.toNat ≤ t.maxPayload) :
    checkHeader t (sendPacket p).msg = true := by
  simp [checkHeader, sendPacket, h]

theorem checkData_received (p : Packet) : checkData (sendPacket p).received = true := by
  rw [checkData, payload_received]
  simp [sendPacket, Packet.received, Packet.payload]

theorem yields_remoteRead {t : Limits build} {p : Packet}
    (h : p.msg.dataLength.toNat ≤ t.maxPayload) :
    Yields (remoteRead t) (sendPacket p).wire (sendPacket p).received := by
  have hheader := yields_readFdExactly (sendPacket p).msg.bytes
  rw [length_bytes] at hheader
  apply hheader.bind
  simp only [ofBytes_bytes, checkHeader_sendPacket h, if_true]
  have hdata := yields_readFdExactly (sendPacket p).payload
  rw [length_payload] at hdata
  apply hdata.finish
  rw [dif_pos (Nat.le_of_eq (length_payload _).symm)]
  have hcheck := checkData_received p
  rw [Packet.received] at hcheck
  rw [if_pos hcheck]
  exact Yields.pure _

theorem remoteRead_accepts {t : Limits build} {pieces rest : List Bytes} {p : Packet}
    (h : (remoteRead t).run pieces = some (p, rest)) :
    pieces.flatten = p.wire ++ rest.flatten ∧
      checkHeader t p.msg = true ∧ checkData p = true := by
  simp only [remoteRead, StateT.run_bind] at h
  obtain ⟨⟨header, middle⟩, hheader, h⟩ := Option.bind_eq_some_iff.mp h
  obtain ⟨hlen, hflat⟩ := readPieces_eq_some hheader
  dsimp only at h
  split at h
  · rename_i hcheck
    rw [StateT.run_bind] at h
    obtain ⟨⟨data, last⟩, hdata, h⟩ := Option.bind_eq_some_iff.mp h
    obtain ⟨hsize, hrest⟩ := readPieces_eq_some hdata
    dsimp only at h
    split at h
    · split at h
      · rename_i hok
        cases h
        refine ⟨?_, hcheck, hok⟩
        simp only [Packet.wire, Packet.payload]
        rw [hflat, hrest, List.take_of_length_le (Nat.le_of_eq hsize),
          bytes_ofBytes hlen, List.append_assoc]
      · cases h
    · cases h
  · cases h

/-- Packets that were sent over a connection are read back as they were, and
then the connection ends; a byte string is accepted only with a consistent
header and checksum, and the checksum of an accepted length never wraps. -/
theorem tcp_wire_round_trip (t : Limits adbBuild) :
    (∀ (packets : List Packet) (script : List WriteResult) (pieces : List Bytes),
      (∀ p ∈ packets, p.msg.dataLength.toNat ≤ t.maxPayload) →
      (remoteWrites script (packets.map sendPacket)).status = .done →
      Fragments pieces (remoteWrites script (packets.map sendPacket)).bytes →
      ∃ received,
        (times (remoteRead t) packets.length).run pieces = some (received, []) ∧
        received.map Packet.content = packets.map Packet.content ∧
        (remoteRead t).run [] = none) ∧
    (∀ (pieces rest : List Bytes) (p : Packet),
      (remoteRead t).run pieces = some (p, rest) →
      pieces.flatten = p.msg.bytes ++ p.payload ++ rest.flatten ∧
        p.msg.magic = ~~~p.msg.command ∧
        p.msg.dataLength.toNat ≤ t.maxPayload ∧
        checksum p.payload = p.msg.dataCheck) ∧
    (∀ payload : Bytes, payload.length ≤ t.maxPayload →
      (checksum payload).toNat = (payload.map UInt8.toNat).sum) := by
  have hlimit := t.payload_le
  simp only [adbBuild, WirePackets.maxPayloadConst] at hlimit
  refine ⟨?_, ?_, fun payload h => toNat_checksum t h⟩
  · intro packets script pieces hlen hdone hpieces
    have hshort : ∀ p ∈ packets.map sendPacket, p.msg.dataLength.toNat < 2 ^ 31 := by
      intro p hp
      obtain ⟨q, hq, rfl⟩ := List.mem_map.mp hp
      have hq := hlen q hq
      simp only [sendPacket]
      omega
    rw [remoteWrites_bytes hshort hdone, List.flatMap_map] at hpieces
    have hread := Yields.times packets fun p hp => yields_remoteRead (hlen p hp)
    refine ⟨_, hread.run_of_fragments hpieces, ?_, rfl⟩
    rw [List.map_map]
    apply List.map_congr_left
    intro p _
    simp only [Function.comp_apply, Packet.content, payload_received]
    rfl
  · intro pieces rest p h
    obtain ⟨hflat, hheader, hdata⟩ := remoteRead_accepts h
    simp only [checkHeader, Bool.and_eq_true, decide_eq_true_eq] at hheader
    refine ⟨hflat, ?_, hheader.2, by simpa [checkData] using hdata⟩
    rw [hheader.1]
    exact UInt32.xor_neg_one

/-- A WRTE whose buffer is longer than its payload. -/
def samplePacket : Packet :=
  ⟨⟨0x45545257, 3, 5, 2, 0, 0⟩, [255, 1, 9], by decide⟩

theorem tcp_wire_round_trip_sample :
    ∃ received,
      (times (remoteRead (Limits.initial adbBuild)) 1).run
        [[87, 82, 84, 69, 3], [0, 0, 0, 5, 0, 0, 0, 2, 0, 0, 0, 0, 1, 0, 0, 168],
          [173, 171, 186, 255], [1]] = some (received, []) ∧
      received.map Packet.content = [samplePacket].map Packet.content ∧
      (remoteRead (Limits.initial adbBuild)).run [] = none :=
  (tcp_wire_round_trip (Limits.initial adbBuild)).1 [samplePacket]
    [.wrote 7, .eagain, .wrote 19] _ (by decide) (by decide)
    ⟨by decide, by decide⟩

end Adb.TcpWire
