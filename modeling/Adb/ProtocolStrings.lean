import Adb.ExactIo
import Adb.Numerals
import Adb.WirePackets
import Mathlib.Data.List.TakeWhile

/-! The strings with a four digit length that clients and servers exchange. -/

namespace Adb.ProtocolStrings

open Adb.DescriptorIo
open Adb.ExactIo
open Adb.FragmentedStreams
open Adb.Numerals
open Adb.WirePackets

/-- The conversion `%04x`: at least four digits. -/
def hex04 (n : Nat) : Bytes :=
  List.replicate (4 - (print 16 n).length) 48 ++ print 16 n

/-- `SendProtocolString` formats with `"%04x%.*s"`, so the text ends at its
first NUL; `none` is `EMSGSIZE`. -/
def sendProtocolString (s : Bytes) : Option Bytes :=
  let length := s.length % 2 ^ 32
  if length > maxPayloadConst - 4 then none
  else some (hex04 length ++ (cString s).take length)

/-- The packet of `device_tracker_send`: `snprintf` with a buffer of five
characters and a copy of the whole string. -/
def deviceTrackerSend (string : Bytes) : Bytes :=
  hexHeader (string.length % 2 ^ 32) ++ string

/-- `ReadProtocolString`, with the text that it gives to `perror_str`. -/
def readProtocolString (pieces : List Bytes) : Except String (Bytes × List Bytes) :=
  match readPieces 4 pieces with
  | none => .error "protocol fault (couldn't read status length)"
  | some (buf, pieces) =>
      let len := (strtoul 16 buf).1
      match readPieces len pieces with
      | none => .error "protocol fault (couldn't read status message)"
      | some (s, pieces) => .ok (s, pieces)

def protocolString : Reader UInt8 Bytes :=
  fun pieces => (readProtocolString pieces).toOption

/-- A string with a length in front, and the function that sends it. -/
inductive Message where
  | string (s : Bytes)
  | deviceList (s : Bytes)
  deriving DecidableEq, Repr

namespace Message

def text : Message → Bytes
  | string s => s
  | deviceList s => s

def emitted : Message → Option Bytes
  | string s => sendProtocolString s
  | deviceList s => some (deviceTrackerSend s)

def bytes (m : Message) : Bytes := m.emitted.getD []

/-- The length has four digits, and a formatted string has no NUL. -/
def Framed : Message → Prop
  | string s => s.length < 2 ^ 16 ∧ 0 ∉ s
  | deviceList s => s.length < 2 ^ 16

end Message

theorem isDigit_of_mem_hex04 {n : Nat} {b : UInt8} (h : b ∈ hex04 n) : IsDigit b := by
  rcases List.mem_append.mp h with hzero | hdigit
  · exact ⟨0, by omega, List.eq_of_mem_replicate hzero⟩
  · exact isDigit_of_mem_print (by omega) (by omega) hdigit

theorem four_le_length_hex04 (n : Nat) : 4 ≤ (hex04 n).length := by
  rw [hex04, List.length_append, List.length_replicate]
  omega

theorem length_hex04 {n : Nat} (h : n < 2 ^ 16) : (hex04 n).length = 4 := by
  have hle : (print 16 n).length ≤ 4 :=
    (length_print_le_iff (by omega) (by omega)).mpr h
  rw [hex04, List.length_append, List.length_replicate]
  omega

theorem hexHeader_eq (n : Nat) : hexHeader n = (hex04 n).take 4 := by
  simp only [hexHeader, hex04, print, List.length_map]
  rw [List.map_take, List.map_append, List.map_replicate]
  rfl

theorem digitsValue_replicate (k : Nat) (text : Bytes) :
    digitsValue 16 0 (List.replicate k 48 ++ text) = digitsValue 16 0 text := by
  induction k with
  | zero => rfl
  | succ k ih =>
      rw [List.replicate_succ, List.cons_append, digitsValue]
      exact ih

theorem strtoul_hex04 {n : Nat} (h : n < 2 ^ 16) : (strtoul 16 (hex04 n)).1 = n := by
  rw [strtoul_sixteen (fun b hb => isDigit_of_mem_hex04 hb)
    (by rw [length_hex04 h]; omega), hex04, digitsValue_replicate]
  have hread := digitsValue_print (show 1 < 16 by omega) (show 16 ≤ 16 by omega) n []
  rw [List.append_nil] at hread
  exact hread

theorem strtoul_take_hex04_lt (n : Nat) : (strtoul 16 ((hex04 n).take 4)).1 < 2 ^ 16 := by
  have hlen : ((hex04 n).take 4).length = 4 := by
    rw [List.length_take]
    exact Nat.min_eq_left (four_le_length_hex04 n)
  rw [strtoul_sixteen (fun b hb => isDigit_of_mem_hex04 (List.mem_of_mem_take hb))
    (by omega)]
  have hlt := digitsValue_lt ((hex04 n).take 4) 0 (show 0 < 16 by omega)
  rw [hlen] at hlt
  exact hlt

theorem cString_append (s : Bytes) (h : 0 ∈ s) :
    ∃ more, s = cString s ++ 0 :: more := by
  induction s with
  | nil => simp at h
  | cons b s ih =>
      rcases Decidable.em (b = 0) with rfl | hb
      · exact ⟨s, rfl⟩
      · have htail : (0 : UInt8) ∈ s := by
          rcases List.mem_cons.mp h with heq | htail
          · exact absurd heq.symm hb
          · exact htail
        obtain ⟨more, hmore⟩ := ih htail
        have hcons : cString (b :: s) = b :: cString s := by
          simp [cString, List.takeWhile, hb]
        exact ⟨more, by rw [hcons, List.cons_append, ← hmore]⟩

theorem cString_of_not_mem {s : Bytes} (h : 0 ∉ s) : cString s = s := by
  rw [cString, List.takeWhile_eq_self_iff]
  intro b hb
  have hne : b ≠ 0 := fun heq => h (heq ▸ hb)
  simpa using hne

theorem nul_not_mem_cString (s : Bytes) : 0 ∉ cString s := by
  intro hmem
  exact absurd (List.mem_takeWhile_imp hmem) (by decide)

theorem length_cString_le (s : Bytes) : (cString s).length ≤ s.length :=
  (List.takeWhile_prefix _).length_le

namespace Message

/-- What follows the length digits of a message. -/
def body : Message → Bytes
  | string s => (cString s).take (s.length % 2 ^ 32)
  | deviceList s => s

/-- The length digits of a message. -/
def header : Message → Bytes
  | string s => hex04 (s.length % 2 ^ 32)
  | deviceList s => (hex04 (s.length % 2 ^ 32)).take 4

theorem bytes_eq {m : Message} (h : m.emitted.isSome) : m.bytes = m.header ++ m.body := by
  cases m with
  | string s =>
      obtain ⟨stream, hstream⟩ := Option.isSome_iff_exists.mp h
      rw [bytes, hstream]
      simp only [emitted, sendProtocolString] at hstream
      split at hstream
      · cases hstream
      · cases hstream
        rfl
  | deviceList s =>
      rw [bytes, emitted, Option.getD_some, deviceTrackerSend, hexHeader_eq]
      rfl

theorem take_header (m : Message) :
    m.header.take 4 = (hex04 (m.text.length % 2 ^ 32)).take 4 := by
  cases m with
  | string s => rfl
  | deviceList s =>
      simp only [header, List.take_take]
      rfl

theorem four_le_length_header (m : Message) : 4 ≤ m.header.length := by
  cases m with
  | string s => exact four_le_length_hex04 _
  | deviceList s =>
      have h := four_le_length_hex04 (s.length % 2 ^ 32)
      rw [header, List.length_take]
      omega

theorem header_eq {m : Message} (h : m.text.length < 2 ^ 16) :
    m.header = hex04 m.text.length := by
  have hmod : m.text.length % 2 ^ 32 = m.text.length := Nat.mod_eq_of_lt (by omega)
  cases m with
  | string s =>
      rw [header]
      exact congrArg hex04 hmod
  | deviceList s =>
      have hlen := length_hex04 h
      rw [header]
      simp only [text] at hmod hlen ⊢
      rw [hmod, List.take_of_length_le (by omega)]

theorem body_eq {m : Message} (h : m.Framed) : m.body = m.text := by
  cases m with
  | string s =>
      obtain ⟨hlen, hzero⟩ := h
      rw [body, Nat.mod_eq_of_lt (by omega), cString_of_not_mem hzero, List.take_length]
      rfl
  | deviceList s => rfl

theorem Framed.length {m : Message} (h : m.Framed) : m.text.length < 2 ^ 16 := by
  cases m with
  | string s => exact h.1
  | deviceList s => exact h

theorem head_bytes {m : Message} (h : m.emitted.isSome) :
    ∃ b tail, m.bytes = b :: tail ∧ b ≠ 0 := by
  have hlen := four_le_length_header m
  rw [bytes_eq h]
  cases hheader : m.header with
  | nil =>
      rw [hheader] at hlen
      simp at hlen
  | cons b tail =>
      refine ⟨b, tail ++ m.body, rfl, ?_⟩
      have hmem : b ∈ m.header.take 4 := by
        rw [hheader]
        simp
      rw [take_header] at hmem
      exact (isDigit_of_mem_hex04 (List.mem_of_mem_take hmem)).plain.1

/-- A framed message is read back, whatever follows it. -/
theorem yields_bytes {m : Message} (hsent : m.emitted.isSome) (h : m.Framed) :
    Yields protocolString m.bytes m.text := by
  intro pieces rest hpieces
  have hlen := h.length
  rw [bytes_eq hsent, header_eq hlen, body_eq h, List.append_assoc] at hpieces
  have hheader := yields_readFdExactly (hex04 m.text.length)
  rw [length_hex04 hlen] at hheader
  obtain ⟨middle, hfirst, hmiddle⟩ := hheader pieces (m.text ++ rest) hpieces
  obtain ⟨last, hsecond, hlast⟩ := yields_readFdExactly m.text middle rest hmiddle
  have hread : readProtocolString pieces = .ok (m.text, last) := by
    unfold readProtocolString
    have hfirst : readPieces 4 pieces = some (hex04 m.text.length, middle) := hfirst
    have hsecond : readPieces m.text.length middle = some (m.text, last) := hsecond
    rw [hfirst]
    simp only [strtoul_hex04 hlen, hsecond]
  refine ⟨last, ?_, hlast⟩
  have hrun : protocolString.run pieces = (readProtocolString pieces).toOption := rfl
  rw [hrun, hread]
  rfl

theorem framed_of_readProtocolString {m : Message} (hsent : m.emitted.isSome)
    {pieces last : List Bytes} {rest : Bytes}
    (hpieces : pieces.flatten = m.bytes ++ rest) (hrest : rest.head? ≠ some 0)
    (h : readProtocolString pieces = .ok (m.text, last)) : m.Framed := by
  unfold readProtocolString at h
  cases hfirst : readPieces 4 pieces with
  | none =>
      rw [hfirst] at h
      cases h
  | some first =>
      obtain ⟨buf, middle⟩ := first
      rw [hfirst] at h
      obtain ⟨hbuf, hflat⟩ := readPieces_eq_some hfirst
      dsimp only at h
      cases hsecond : readPieces (strtoul 16 buf).1 middle with
      | none =>
          rw [hsecond] at h
          cases h
      | some second =>
          rw [hsecond] at h
          obtain ⟨hlen, hmiddle⟩ := readPieces_eq_some hsecond
          obtain ⟨htext, _⟩ := Prod.mk.inj (Except.ok.inj h)
          rw [htext] at hlen hmiddle
          rw [bytes_eq hsent, hflat, List.append_assoc] at hpieces
          have hheader := four_le_length_header m
          have hdigits : buf = m.header.take 4 := by
            have htake := congrArg (List.take 4) hpieces
            rw [List.take_append_of_le_length hheader, ← hbuf, List.take_left] at htake
            rw [htake, hbuf]
          rw [hdigits, take_header] at hlen
          have hshort : m.text.length < 2 ^ 16 := by
            rw [hlen]
            exact strtoul_take_hex04_lt _
          have hwhole := length_hex04 hshort
          rw [hdigits, header_eq hshort, List.take_of_length_le (by omega)] at hpieces
          have hbody := List.append_cancel_left hpieces
          rw [hmiddle] at hbody
          cases m with
          | deviceList s => exact hshort
          | string s =>
              refine ⟨hshort, ?_⟩
              intro hzero
              obtain ⟨more, hmore⟩ := cString_append s hzero
              have hle := length_cString_le s
              simp only [text, body] at hbody hshort
              rw [Nat.mod_eq_of_lt (by omega), List.take_of_length_le hle, hmore,
                List.append_assoc, ← hmore] at hbody
              have hnext := List.append_cancel_left hbody
              exact hrest (by rw [← hnext]; rfl)

end Message

theorem readProtocolString_of_run {pieces last : List Bytes} {s : Bytes}
    (h : protocolString.run pieces = some (s, last)) :
    readProtocolString pieces = .ok (s, last) := by
  have hrun : (readProtocolString pieces).toOption = some (s, last) := h
  cases hread : readProtocolString pieces with
  | error fault =>
      rw [hread] at hrun
      cases hrun
  | ok result =>
      rw [hread] at hrun
      cases hrun
      rfl

theorem head_flatMap_bytes {messages : List Message}
    (hsent : ∀ m ∈ messages, m.emitted.isSome) :
    (messages.flatMap Message.bytes).head? ≠ some 0 := by
  cases messages with
  | nil => simp
  | cons m messages =>
      obtain ⟨b, tail, hbytes, hb⟩ := Message.head_bytes (hsent m (by simp))
      rw [List.flatMap_cons, hbytes]
      simpa using hb

theorem framed_of_readBack (messages : List Message)
    (hsent : ∀ m ∈ messages, m.emitted.isSome) (pieces : List Bytes)
    (hpieces : Fragments pieces (messages.flatMap Message.bytes))
    (h : (times protocolString messages.length).run pieces =
      some (messages.map Message.text, [])) :
    ∀ m ∈ messages, m.Framed := by
  induction messages generalizing pieces with
  | nil => simp
  | cons m messages ih =>
      have hm := hsent m (by simp)
      have htail : ∀ m' ∈ messages, m'.emitted.isSome :=
        fun m' hm' => hsent m' (by simp [hm'])
      rw [List.length_cons, times, StateT.run_bind] at h
      obtain ⟨⟨s, middle⟩, hfirst, h⟩ := Option.bind_eq_some_iff.mp h
      rw [StateT.run_bind] at h
      obtain ⟨⟨rest, last⟩, hrest, h⟩ := Option.bind_eq_some_iff.mp h
      simp only [StateT.run_pure, List.map_cons] at h
      cases h
      rw [List.flatMap_cons] at hpieces
      have hframed : m.Framed := Message.framed_of_readProtocolString hm hpieces.2
        (head_flatMap_bytes htail) (readProtocolString_of_run hfirst)
      obtain ⟨middle', hread, hmiddle⟩ := Message.yields_bytes hm hframed pieces _ hpieces
      rw [hread] at hfirst
      cases hfirst
      intro m' hm'
      rcases List.mem_cons.mp hm' with rfl | hm'
      · exact hframed
      · exact ih htail _ hmiddle hrest m' hm'

/-- Messages that follow each other on a connection are read back as the same
strings, with nothing left over, exactly when each of them is framed. -/
theorem readBack_iff_framed (messages : List Message)
    (hsent : ∀ m ∈ messages, m.emitted.isSome) (pieces : List Bytes)
    (hpieces : Fragments pieces (messages.flatMap Message.bytes)) :
    (times protocolString messages.length).run pieces =
        some (messages.map Message.text, []) ↔
      ∀ m ∈ messages, m.Framed := by
  constructor
  · exact framed_of_readBack messages hsent pieces hpieces
  · intro hframed
    have hread := Yields.times messages
      fun m hm => Message.yields_bytes (hsent m hm) (hframed m hm)
    exact hread.run_of_fragments hpieces

/-- Two strings of both kinds, cut in the middle of the second length. -/
theorem readBack_iff_framed_sample :
    (times protocolString 2).run
        [[48, 48, 48, 50, 104, 105, 48, 48], [48, 49, 0]] =
        some ([[104, 105], [0]], []) ↔
      ∀ m ∈ [Message.string [104, 105], Message.deviceList [0]], m.Framed :=
  readBack_iff_framed [.string [104, 105], .deviceList [0]] (by decide) _
    ⟨by decide, by decide⟩

/-- `SendProtocolString` accepts a string with a NUL and sends too few bytes. -/
theorem sendProtocolString_nul :
    sendProtocolString [97, 0, 98] = some [48, 48, 48, 51, 97] ∧
      Fragments [[48, 48, 48, 51, 97]] (Message.string [97, 0, 98]).bytes ∧
      protocolString.run [[48, 48, 48, 51, 97]] = none :=
  ⟨by decide, ⟨by decide, by decide⟩, by decide⟩

end Adb.ProtocolStrings
