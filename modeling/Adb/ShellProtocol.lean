import Mathlib.Data.List.Forall2
import Adb.ExactIo
import Adb.LittleEndian
import Adb.WirePackets

/-! The packets of the shell protocol, shell_service_protocol.cpp. -/

namespace Adb.ShellProtocol

open Adb.DescriptorIo
open Adb.ExactIo
open Adb.FragmentedStreams
open Adb.WirePackets

inductive Id where
  | stdin
  | stdout
  | stderr
  | exit
  | closeStdin
  | windowSizeChange
  | invalid
  deriving DecidableEq, Repr

def Id.code : Id → UInt8
  | stdin => 0
  | stdout => 1
  | stderr => 2
  | exit => 3
  | closeStdin => 4
  | windowSizeChange => 5
  | invalid => 255

/-- The value of the enumerator, as the `int` that an id is compared with. -/
def Id.value (id : Id) : Int := id.code.toNat

/-- Whether a plain `char` is signed is up to the platform. -/
inductive CharKind where
  | signed
  | unsigned
  deriving DecidableEq, Repr

/-- The conversion of a `char` with these bits to `int`. -/
def charToInt : CharKind → UInt8 → Int
  | .signed, c => c.toBitVec.toInt
  | .unsigned, c => c.toNat

theorem charToInt_signed_lt (c : UInt8) : charToInt .signed c < 128 := by
  have hlt := BitVec.two_mul_toInt_lt (x := c.toBitVec)
  rw [charToInt]
  omega

theorem charToInt_injective (char : CharKind) : Function.Injective (charToInt char) := by
  intro c c' h
  cases char with
  | signed => exact UInt8.toBitVec_inj.mp (BitVec.toInt_inj.mp h)
  | unsigned => exact UInt8.toNat_inj.mp (Int.ofNat.inj h)

theorem charToInt_code {char : CharKind} {id : Id} :
    charToInt char id.code = id.value ↔ char = .unsigned ∨ id.value < 128 := by
  cases char <;> cases id <;> decide

theorem charToInt_eq_value {id : Id} (hid : id.value < 128) {char : CharKind} {c : UInt8} :
    charToInt char c = id.value ↔ c = id.code := by
  rw [← charToInt_code.mpr (.inr hid)]
  exact (charToInt_injective char).eq_iff

/-- One byte of id and four bytes of length. -/
def headerSize : Nat := 5

def bufferSize : Nat := maxPayloadConst

/-- The reading side of a `ShellProtocol`: `data_capacity()`, `buffer_[0]`, the
first `data_length_` bytes of `data()`, and `bytes_left_`. -/
structure Receiver where
  char : CharKind
  capacity : Nat
  idByte : UInt8
  data : Bytes
  bytesLeft : Nat
  deriving DecidableEq, Repr

/-- The constructor, with a buffer that holds `capacity` bytes of data. -/
def Receiver.create (char : CharKind) (capacity : Nat) : Receiver where
  char := char
  capacity := capacity
  idByte := Id.invalid.code
  data := []
  bytesLeft := 0

/-- `id()`: the first `char` of the buffer, converted to `int`. -/
def Receiver.id (p : Receiver) : Int := charToInt p.char p.idByte

/-- The first part of `Read`: a new header once the last packet is finished. -/
def Receiver.readHeader (p : Receiver) : Reader UInt8 Receiver :=
  if p.bytesLeft = 0 then do
    let header ← readFdExactly headerSize
    pure { p with
      idByte := header.headD 0
      bytesLeft := LittleEndian.decode (header.drop 1)
      data := [] }
  else pure p

def readChunk (readLength : Nat) : Reader UInt8 Bytes :=
  if readLength = 0 then pure [] else readFdExactly readLength

/-- The second part of `Read`: as much of the packet as the buffer holds. -/
def Receiver.readData (p : Receiver) : Reader UInt8 Receiver := do
  let readLength := min p.bytesLeft p.capacity
  let data ← readChunk readLength
  pure { p with bytesLeft := p.bytesLeft - readLength, data := data }

def Receiver.read (p : Receiver) : Reader UInt8 Receiver := do
  let p ← p.readHeader
  p.readData

/-- The ids and data that a number of successful calls of `Read` report. -/
def Receiver.reads : Nat → Receiver → Reader UInt8 (List (Int × Bytes) × Receiver)
  | 0, p => pure ([], p)
  | n + 1, p => do
      let p ← p.read
      let (chunks, last) ← reads n p
      pure ((p.id, p.data) :: chunks, last)

/-- What `Write(id, length)` is called with: the buffer holds the payload. -/
structure Packet where
  id : Id
  payload : Bytes
  deriving DecidableEq, Repr

/-- The `kHeaderSize + length` bytes of the buffer that `Write` sends. -/
def Packet.bytes (p : Packet) : Bytes :=
  p.id.code :: LittleEndian.encode 4 p.payload.length ++ p.payload

def write (script : List WriteResult) (p : Packet) : Written Bytes :=
  writeFdExactly script p.bytes

def writes (script : List WriteResult) (packets : List Packet) : Written (List Packet) :=
  writeEach write script packets

theorem yields_readHeader {p : Receiver} (hidle : p.bytesLeft = 0) (id : UInt8) {n : Nat}
    (hn : n < 2 ^ 32) :
    Yields p.readHeader (id :: LittleEndian.encode 4 n)
      { p with idByte := id, bytesLeft := n, data := [] } := by
  have hheader := yields_readFdExactly (id :: LittleEndian.encode 4 n)
  rw [List.length_cons, LittleEndian.length_encode] at hheader
  rw [Receiver.readHeader, if_pos hidle]
  apply hheader.finish
  have hvalue : LittleEndian.decode ((id :: LittleEndian.encode 4 n).drop 1) = n :=
    LittleEndian.decode_encode_of_lt hn
  rw [hvalue]
  exact Yields.pure _

theorem yields_readChunk (chunk : Bytes) : Yields (readChunk chunk.length) chunk chunk := by
  rw [readChunk]
  split
  · rename_i hnil
    rw [List.length_eq_zero_iff.mp hnil]
    exact Yields.pure _
  · exact yields_readFdExactly chunk

theorem yields_readData (p : Receiver) {chunk : Bytes}
    (h : chunk.length = min p.bytesLeft p.capacity) :
    Yields p.readData chunk
      { p with bytesLeft := p.bytesLeft - chunk.length, data := chunk } := by
  have hchunk := yields_readChunk chunk
  rw [h] at hchunk
  apply hchunk.finish
  rw [h]
  exact Yields.pure _

theorem yields_read_of_busy {p : Receiver} (hbusy : p.bytesLeft ≠ 0) {chunk : Bytes}
    (h : chunk.length = min p.bytesLeft p.capacity) :
    Yields p.read chunk
      { p with bytesLeft := p.bytesLeft - chunk.length, data := chunk } := by
  have hheader : p.readHeader = pure p := by
    rw [Receiver.readHeader, if_neg hbusy]
  rw [Receiver.read, hheader, pure_bind]
  exact yields_readData p h

theorem yields_read_of_idle {p : Receiver} (hidle : p.bytesLeft = 0) (id : UInt8) {n : Nat}
    (hn : n < 2 ^ 32) {chunk : Bytes} (h : chunk.length = min n p.capacity) :
    Yields p.read ((id :: LittleEndian.encode 4 n) ++ chunk)
      { p with idByte := id, bytesLeft := n - chunk.length, data := chunk } := by
  apply (yields_readHeader hidle id hn).bind
  exact yields_readData _ h

theorem reads_add (m n : Nat) (p : Receiver) :
    p.reads (m + n) = (do
      let (chunks, q) ← p.reads m
      let (more, r) ← q.reads n
      pure (chunks ++ more, r)) := by
  induction m generalizing p with
  | zero => simp [Receiver.reads]
  | succ m ih =>
      rw [Nat.succ_add, Receiver.reads, Receiver.reads]
      simp [ih]

theorem yields_reads_append {m n : Nat} {p q r : Receiver} {first second : Bytes}
    {chunks more : List (Int × Bytes)}
    (hfirst : Yields (p.reads m) first (chunks, q))
    (hsecond : Yields (q.reads n) second (more, r)) :
    Yields (p.reads (m + n)) (first ++ second) (chunks ++ more, r) := by
  rw [reads_add]
  apply hfirst.bind
  exact hsecond.finish (Yields.pure _)

theorem yields_reads_one {p q : Receiver} {input : Bytes} (h : Yields p.read input q) :
    Yields (p.reads 1) input ([(q.id, q.data)], q) := by
  apply h.finish
  exact Yields.pure _

/-- The chunks of one packet: they have its id, fit the buffer and make up the
payload, and an empty payload is one empty chunk. -/
structure Cut (capacity : Nat) (id : Int) (payload : Bytes) (chunks : List (Int × Bytes)) :
    Prop where
  ids : ∀ chunk ∈ chunks, chunk.1 = id
  fits : ∀ chunk ∈ chunks, chunk.2.length ≤ capacity
  whole : (chunks.map Prod.snd).flatten = payload
  empty : payload = [] → chunks = [(id, [])]

theorem Cut.ne_nil {capacity : Nat} {id : Int} {payload : Bytes} {chunks : List (Int × Bytes)}
    (h : Cut capacity id payload chunks) : chunks ≠ [] := by
  rintro rfl
  cases h.empty h.whole.symm

theorem yields_reads_rest (p : Receiver) (hcapacity : 0 < p.capacity) (payload : Bytes)
    (hleft : p.bytesLeft = payload.length) :
    ∃ chunks q, Yields (p.reads chunks.length) payload (chunks, q) ∧
      (q.char = p.char ∧ q.capacity = p.capacity) ∧ q.bytesLeft = 0 ∧
      (∀ chunk ∈ chunks, chunk.1 = p.id ∧ chunk.2.length ≤ p.capacity) ∧
      (chunks.map Prod.snd).flatten = payload ∧ (payload = [] → chunks = []) := by
  induction hn : payload.length using Nat.strongRecOn generalizing p payload with
  | ind n ih =>
      rcases Nat.eq_zero_or_pos n with rfl | hpos
      · have hnil := List.length_eq_zero_iff.mp hn
        subst hnil
        exact ⟨[], p, Yields.pure _, ⟨rfl, rfl⟩, hleft, by simp, rfl, fun _ => rfl⟩
      · have hlen : (payload.take p.capacity).length = min p.bytesLeft p.capacity := by
          rw [List.length_take, hleft, Nat.min_comm]
        have hread := yields_reads_one (yields_read_of_busy (by omega) hlen)
        obtain ⟨chunks, q, hrest, hsame, hidle, hchunks, hpayload, _⟩ :=
          ih (payload.drop p.capacity).length (by rw [List.length_drop]; omega)
            { p with
              bytesLeft := p.bytesLeft - (payload.take p.capacity).length
              data := payload.take p.capacity }
            hcapacity (payload.drop p.capacity)
            (by
              rw [List.length_drop]
              simp only [hlen, hleft]
              omega) rfl
        refine ⟨(p.id, payload.take p.capacity) :: chunks, q, ?_, hsame, hidle, ?_, ?_, ?_⟩
        · have hwhole := yields_reads_append hread hrest
          rw [List.take_append_drop, Nat.add_comm] at hwhole
          exact hwhole
        · intro chunk hchunk
          rcases List.mem_cons.mp hchunk with rfl | hchunk
          · exact ⟨rfl, by rw [List.length_take]; omega⟩
          · exact hchunks chunk hchunk
        · rw [List.map_cons, List.flatten_cons, hpayload, List.take_append_drop]
        · intro hnil
          rw [hnil, List.length_nil] at hn
          omega

/-- One packet, read from its header to its end. -/
theorem yields_reads_packet (p : Receiver) (hcapacity : 0 < p.capacity)
    (hidle : p.bytesLeft = 0) (packet : Packet) (hlen : packet.payload.length < 2 ^ 32) :
    ∃ chunks q, Yields (p.reads chunks.length) packet.bytes (chunks, q) ∧
      (q.char = p.char ∧ q.capacity = p.capacity) ∧ q.bytesLeft = 0 ∧
      Cut p.capacity (charToInt p.char packet.id.code) packet.payload chunks := by
  have htake : (packet.payload.take p.capacity).length =
      min packet.payload.length p.capacity := by
    rw [List.length_take, Nat.min_comm]
  have hfirst := yields_reads_one
    (yields_read_of_idle hidle packet.id.code hlen htake)
  obtain ⟨chunks, q, hrest, hsame, hdone, hchunks, hpayload, hnone⟩ := yields_reads_rest
    { p with
      idByte := packet.id.code
      bytesLeft := packet.payload.length - (packet.payload.take p.capacity).length
      data := packet.payload.take p.capacity }
    hcapacity (packet.payload.drop p.capacity)
    (by
      rw [List.length_drop]
      simp only [htake]
      omega)
  refine ⟨(charToInt p.char packet.id.code, packet.payload.take p.capacity) :: chunks, q, ?_,
    hsame, hdone, ?_⟩
  · have hwhole := yields_reads_append hfirst hrest
    rw [List.append_assoc, List.take_append_drop, Nat.add_comm] at hwhole
    exact hwhole
  · constructor
    · intro chunk hchunk
      rcases List.mem_cons.mp hchunk with rfl | hchunk
      · rfl
      · exact (hchunks chunk hchunk).1
    · intro chunk hchunk
      rcases List.mem_cons.mp hchunk with rfl | hchunk
      · rw [htake]
        exact Nat.min_le_right _ _
      · exact (hchunks chunk hchunk).2
    · rw [List.map_cons, List.flatten_cons, hpayload, List.take_append_drop]
    · intro hempty
      have hdrop : packet.payload.drop p.capacity = [] := by
        rw [hempty, List.drop_nil]
      rw [hnone hdrop, hempty, List.take_nil]

theorem yields_reads_packets (p : Receiver) (hcapacity : 0 < p.capacity)
    (hidle : p.bytesLeft = 0) (packets : List Packet)
    (hlen : ∀ packet ∈ packets, packet.payload.length < 2 ^ 32) :
    ∃ groups q, List.Forall₂ (fun packet group =>
        Cut p.capacity (charToInt p.char packet.id.code) packet.payload group) packets groups ∧
      Yields (p.reads groups.flatten.length) (packets.flatMap Packet.bytes)
        (groups.flatten, q) ∧ q.bytesLeft = 0 ∧ q.char = p.char ∧ q.capacity = p.capacity := by
  induction packets generalizing p with
  | nil => exact ⟨[], p, List.Forall₂.nil, Yields.pure _, hidle, rfl, rfl⟩
  | cons packet packets ih =>
      obtain ⟨chunks, q, hfirst, ⟨hchar, hcap⟩, hdone, hcut⟩ :=
        yields_reads_packet p hcapacity hidle packet (hlen packet (by simp))
      obtain ⟨groups, r, hcuts, hrest, hlast, hchar', hcap'⟩ := ih q (by rwa [hcap]) hdone
        fun other hother => hlen other (by simp [hother])
      rw [hcap, hchar] at hcuts
      refine ⟨chunks :: groups, r, List.Forall₂.cons hcut hcuts, ?_, hlast,
        hchar'.trans hchar, hcap'.trans hcap⟩
      rw [List.flatten_cons, List.length_append, List.flatMap_cons]
      exact yields_reads_append hfirst hrest

theorem cuts_value {char : CharKind} {capacity : Nat} {packets : List Packet}
    {groups : List (List (Int × Bytes))}
    (hids : ∀ packet ∈ packets, char = .unsigned ∨ packet.id.value < 128)
    (hcuts : List.Forall₂ (fun packet group =>
      Cut capacity (charToInt char packet.id.code) packet.payload group) packets groups) :
    List.Forall₂ (fun packet group => Cut capacity packet.id.value packet.payload group)
      packets groups := by
  refine ((List.forall₂_and_left packets groups).mpr ⟨hids, hcuts⟩).imp ?_
  rintro packet group ⟨hid, hcut⟩
  rw [← charToInt_code.mpr hid]
  exact hcut

theorem readChunk_eq_some {n : Nat} {pieces rest : List Bytes} {chunk : Bytes}
    (h : (readChunk n).run pieces = some (chunk, rest)) :
    chunk.length = n ∧ pieces.flatten = chunk ++ rest.flatten := by
  rw [readChunk] at h
  split at h
  · rename_i hnone
    obtain ⟨rfl, rfl⟩ := Prod.mk.inj (Option.some.inj h)
    exact ⟨hnone.symm, rfl⟩
  · exact readPieces_eq_some h

theorem readData_eq_some {p q : Receiver} {pieces rest : List Bytes}
    (h : p.readData.run pieces = some (q, rest)) :
    ∃ chunk : Bytes, chunk.length = min p.bytesLeft p.capacity ∧
      pieces.flatten = chunk ++ rest.flatten ∧
      q = { p with bytesLeft := p.bytesLeft - chunk.length, data := chunk } := by
  rw [Receiver.readData, StateT.run_bind, Option.bind_eq_bind, Option.bind_eq_some_iff] at h
  obtain ⟨⟨chunk, middle⟩, hchunk, heq⟩ := h
  obtain ⟨rfl, rfl⟩ := Prod.mk.inj (Option.some.inj heq)
  obtain ⟨hlen, hflat⟩ := readChunk_eq_some hchunk
  exact ⟨chunk, hlen, hflat, by rw [hlen]⟩

/-- What a successful `Read` has taken from the stream, whatever it is. -/
theorem read_eq_some {p q : Receiver} {pieces rest : List Bytes}
    (h : p.read.run pieces = some (q, rest)) :
    (p.bytesLeft ≠ 0 ∧ ∃ chunk : Bytes, chunk.length = min p.bytesLeft p.capacity ∧
      pieces.flatten = chunk ++ rest.flatten ∧
      q = { p with bytesLeft := p.bytesLeft - chunk.length, data := chunk }) ∨
    (p.bytesLeft = 0 ∧ ∃ header chunk : Bytes, header.length = headerSize ∧
      chunk.length = min (LittleEndian.decode (header.drop 1)) p.capacity ∧
      pieces.flatten = header ++ (chunk ++ rest.flatten) ∧
      q = { p with
        idByte := header.headD 0
        bytesLeft := LittleEndian.decode (header.drop 1) - chunk.length
        data := chunk }) := by
  rw [Receiver.read, StateT.run_bind, Option.bind_eq_bind, Option.bind_eq_some_iff] at h
  obtain ⟨⟨p', middle⟩, hheader, hdata⟩ := h
  obtain ⟨chunk, hlen, hflat, hq⟩ := readData_eq_some hdata
  rcases Decidable.em (p.bytesLeft = 0) with hidle | hbusy
  · rw [Receiver.readHeader, if_pos hidle, StateT.run_bind, Option.bind_eq_bind,
      Option.bind_eq_some_iff] at hheader
    obtain ⟨⟨header, middle'⟩, hread, heq⟩ := hheader
    obtain ⟨rfl, rfl⟩ := Prod.mk.inj (Option.some.inj heq)
    obtain ⟨hsize, hfront⟩ := readPieces_eq_some hread
    exact .inr ⟨hidle, header, chunk, hsize, hlen, by rw [hfront, hflat], hq⟩
  · rw [Receiver.readHeader, if_neg hbusy] at hheader
    obtain ⟨rfl, rfl⟩ := Prod.mk.inj (Option.some.inj hheader)
    exact .inl ⟨hbusy, chunk, hlen, hflat, hq⟩

theorem read_char {p q : Receiver} {pieces rest : List Bytes}
    (h : p.read.run pieces = some (q, rest)) : q.char = p.char := by
  rcases read_eq_some h with ⟨_, _, _, _, rfl⟩ | ⟨_, _, _, _, _, _, rfl⟩
  · rfl
  · rfl

theorem reads_ids {n : Nat} {p q : Receiver} {chunks : List (Int × Bytes)}
    {pieces rest : List Bytes} (h : (p.reads n).run pieces = some ((chunks, q), rest)) :
    ∀ chunk ∈ chunks, ∃ c, chunk.1 = charToInt p.char c := by
  induction n generalizing p q chunks pieces rest with
  | zero =>
      obtain ⟨hnil, _⟩ := Prod.mk.inj (Option.some.inj h)
      obtain ⟨rfl, _⟩ := Prod.mk.inj hnil
      intro chunk hchunk
      cases hchunk
  | succ n ih =>
      rw [Receiver.reads, StateT.run_bind, Option.bind_eq_bind, Option.bind_eq_some_iff] at h
      obtain ⟨⟨p', middle⟩, hread, hmore⟩ := h
      rw [StateT.run_bind, Option.bind_eq_bind, Option.bind_eq_some_iff] at hmore
      obtain ⟨⟨⟨more, q'⟩, _⟩, hrest, heq⟩ := hmore
      obtain ⟨hchunks, _⟩ := Prod.mk.inj (Option.some.inj heq)
      obtain ⟨rfl, _⟩ := Prod.mk.inj hchunks
      intro chunk hchunk
      rcases List.mem_cons.mp hchunk with rfl | hchunk
      · exact ⟨p'.idByte, by rw [← read_char hread]; rfl⟩
      · obtain ⟨c, hc⟩ := ih hrest chunk hchunk
        exact ⟨c, by rw [hc, read_char hread]⟩

theorem read_nil {p : Receiver} (hidle : p.bytesLeft = 0) : p.read.run [] = none := by
  rw [Receiver.read, Receiver.readHeader, if_pos hidle]
  rfl

/-- The writing side of a `ShellProtocol`: the data fits its buffer. -/
structure Sender where
  capacity : Nat
  fits : capacity ≤ bufferSize - headerSize

/-- The successful reads are the chunks of one packet after the other, each with
the id of its packet, and then `Read` fails. -/
def RoundTrip (char : CharKind) (capacity : Nat) (packets : List Packet)
    (pieces : List Bytes) : Prop :=
  ∃ groups last,
    List.Forall₂ (fun packet group => Cut capacity packet.id.value packet.payload group)
      packets groups ∧
    ((Receiver.create char capacity).reads groups.flatten.length).run pieces =
      some ((groups.flatten, last), []) ∧
    last.read.run [] = none

theorem exists_related {α β : Type} {R : α → β → Prop} {as : List α} {bs : List β}
    (h : List.Forall₂ R as bs) {a : α} (ha : a ∈ as) : ∃ b ∈ bs, R a b := by
  induction h with
  | nil => cases ha
  | cons hfirst _ ih =>
      rcases List.mem_cons.mp ha with rfl | ha
      · exact ⟨_, List.mem_cons_self, hfirst⟩
      · obtain ⟨b, hb, hab⟩ := ih ha
        exact ⟨b, List.mem_cons_of_mem _ hb, hab⟩

theorem not_roundTrip_of_signed {capacity : Nat} {packets : List Packet} {packet : Packet}
    (hpacket : packet ∈ packets) (hcode : 128 ≤ packet.id.value) (pieces : List Bytes) :
    ¬ RoundTrip .signed capacity packets pieces := by
  rintro ⟨groups, last, hcuts, hread, _⟩
  obtain ⟨group, hgroup, hcut⟩ := exists_related hcuts hpacket
  obtain ⟨chunk, hchunk⟩ := List.exists_mem_of_ne_nil group hcut.ne_nil
  obtain ⟨c, hc⟩ := reads_ids hread chunk (List.mem_flatten_of_mem hgroup hchunk)
  have hlt := charToInt_signed_lt c
  rw [hcut.ids chunk hchunk] at hc
  rw [hc] at hcode
  exact absurd hlt (Int.not_lt.mpr hcode)

/-- Whatever packets are written and however the stream is cut, the packets are
read back if and only if `char` is unsigned or every id is below 128. -/
theorem shell_protocol_round_trip_iff (char : CharKind) (sender : Sender)
    (packets : List Packet) (hlen : ∀ packet ∈ packets, packet.payload.length ≤ sender.capacity)
    (script : List WriteResult) (hdone : (writes script packets).status = .done)
    (capacity : Nat) (hcapacity : 0 < capacity) (pieces : List Bytes)
    (hpieces : Fragments pieces (writes script packets).bytes) :
    RoundTrip char capacity packets pieces ↔
      char = .unsigned ∨ ∀ packet ∈ packets, packet.id.value < 128 := by
  constructor
  · intro htrip
    cases char with
    | unsigned => exact .inl rfl
    | signed =>
        refine .inr fun packet hpacket => Int.not_le.mp fun hcode => ?_
        exact not_roundTrip_of_signed hpacket hcode pieces htrip
  · intro hids
    have hshort : ∀ packet ∈ packets, packet.payload.length < 2 ^ 32 := by
      intro packet hpacket
      have hfits := sender.fits
      have hcap := hlen packet hpacket
      simp only [bufferSize, headerSize, maxPayloadConst] at hfits
      omega
    rw [writes, @writeEach_bytes _ write Packet.bytes (fun _ _ => rfl) _ _ hdone] at hpieces
    obtain ⟨groups, last, hcuts, hread, hidle, _⟩ :=
      yields_reads_packets (Receiver.create char capacity) hcapacity rfl packets hshort
    have hall : ∀ packet ∈ packets, char = .unsigned ∨ packet.id.value < 128 :=
      fun packet hpacket => hids.imp_right fun hsmall => hsmall packet hpacket
    exact ⟨groups, last, cuts_value hall hcuts, hread.run_of_fragments hpieces, read_nil hidle⟩

/-- Ten bytes through a buffer of four, as in the test `ReadBufferOverflow`,
followed by an empty packet. -/
theorem shell_protocol_round_trip_iff_sample :
    RoundTrip .signed 4 [⟨.stdin, ascii "1234567890"⟩, ⟨.stderr, []⟩]
        [[0, 10], [0, 0, 0, 49, 50, 51, 52, 53, 54, 55], [56, 57, 48, 2, 0, 0, 0, 0]] ↔
      CharKind.signed = .unsigned ∨
        ∀ packet ∈ [(⟨.stdin, ascii "1234567890"⟩ : Packet), ⟨.stderr, []⟩],
          packet.id.value < 128 :=
  shell_protocol_round_trip_iff .signed ⟨bufferSize - headerSize, Nat.le_refl _⟩
    [⟨.stdin, ascii "1234567890"⟩, ⟨.stderr, []⟩] (by decide)
    [.wrote 3, .eagain, .wrote 100, .wrote 5] (by decide) 4 (by decide) _
    ⟨by decide, by decide⟩

/-- One byte with the id `kIdInvalid`: where `char` is signed, `id()` is `-1`. -/
theorem shell_protocol_invalid_id :
    (writes [.wrote 100] [⟨.invalid, [7]⟩]).status = .done ∧
      (writes [.wrote 100] [⟨.invalid, [7]⟩]).bytes = [255, 1, 0, 0, 0, 7] ∧
      ((Receiver.create .signed 4).reads 1).run [[255, 1, 0, 0, 0, 7]] =
        some (([(-1, [7])], ⟨.signed, 4, 255, [7], 0⟩), []) ∧
      ¬ RoundTrip .signed 4 [⟨.invalid, [7]⟩] [[255, 1, 0, 0, 0, 7]] :=
  ⟨by decide, by decide, by decide,
    not_roundTrip_of_signed (List.mem_singleton_self _) (by decide) _⟩

end Adb.ShellProtocol
