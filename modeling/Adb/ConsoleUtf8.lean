import Adb.DescriptorIo
import Adb.LeadCodes

/-!
`_console_write_utf8` of sysdeps_win32.cpp: what is written to a console is
converted to UTF-16 call by call, and a sequence that a call does not complete
waits for the next one.
-/

namespace Adb.ConsoleUtf8

open Adb.DescriptorIo
open Adb.LeadCodes

/-- `utf8_codepoint_len`. -/
def utf8CodepointLen (ch : UInt8) : Nat :=
  ((0xe5000000 >>> ((ch.toNat >>> 3) &&& 0x1e)) &&& 3) + 1

/-- The loop of `ParseCompleteUTF8` over the bytes before `current_after`, the last one
first, in a buffer of `total` bytes: where an incomplete sequence starts. -/
def parseLoop (total : Nat) : Bytes → Option Nat
  | [] => none
  | ch :: before =>
      if ch &&& 0x80 = 0 then none
      else if ch &&& 0xC0 = 0xC0 then
        let bytesAvailable := total - before.length
        if bytesAvailable < utf8CodepointLen ch then some before.length else none
      else parseLoop total before

/-- The number of bytes in complete sequences, and `remaining_bytes` with the others. -/
def parseCompleteUtf8 (bytes remaining : Bytes) : Nat × Bytes :=
  match parseLoop bytes.length bytes.reverse with
  | some n => (n, remaining ++ bytes.drop n)
  | none => (bytes.length, remaining)

/-- `console_output_buffer`, what `UTF8ToWide` was called with, and what the console shows. -/
structure Console where
  outputBuffer : Bytes
  converted : List Bytes
  shown : List UInt16
  deriving DecidableEq, Repr

def Console.initial : Console := ⟨[], [], []⟩

/-- One call; `writes` is whether `WriteConsoleW` succeeds. -/
def consoleWriteUtf8 (utf8ToWide : Bytes → List UInt16) (st : Console) (buf : Bytes)
    (writes : Bool) : Int × Console :=
  let parsed :=
    if st.outputBuffer.isEmpty then
      let complete := parseCompleteUtf8 buf []
      (buf.take complete.1, complete.2)
    else
      let combinedBuffer := st.outputBuffer ++ buf
      let complete := parseCompleteUtf8 combinedBuffer []
      (combinedBuffer.take complete.1, complete.2)
  let st := { st with outputBuffer := parsed.2, converted := st.converted ++ [parsed.1] }
  if writes then (buf.length, { st with shown := st.shown ++ utf8ToWide parsed.1 })
  else (-1, st)

def writeEach (utf8ToWide : Bytes → List UInt16) (st : Console) (calls : List (Bytes × Bool)) :
    Console :=
  calls.foldl (fun st call => (consoleWriteUtf8 utf8ToWide st call.1 call.2).2) st

/-- The encoding of some Unicode scalar values. -/
def ValidUtf8 (bytes : Bytes) : Prop :=
  ∃ text : List Char, bytes = text.flatMap String.utf8EncodeChar

/-- How long the sequence is that a byte starts. -/
def utf8Code : Code UInt8 := fun ch =>
  if ch &&& 0x80 = 0 then some 1
  else if ch &&& 0xC0 = 0xC0 then some (utf8CodepointLen ch)
  else none

theorem utf8CodepointLen_le (ch : UInt8) : utf8CodepointLen ch ≤ 4 := by
  have hand := Nat.and_le_right (n := 0xe5000000 >>> ((ch.toNat >>> 3) &&& 0x1e)) (m := 3)
  rw [utf8CodepointLen]
  omega

theorem length_lt_of_incomplete {part : Bytes} (h : utf8Code.Incomplete part) :
    part.length < 4 := by
  obtain ⟨lead, rest, length, -, hlead, hlt, -⟩ := h
  have hlen := utf8CodepointLen_le lead
  rw [utf8Code] at hlead
  split at hlead
  · cases hlead
    omega
  split at hlead
  · cases hlead
    omega
  · cases hlead

theorem utf8Code_ascii : ∀ k < 128, utf8Code (UInt8.ofNat k) = some 1 := by decide +kernel

theorem utf8Code_trailing : ∀ k < 64, utf8Code (UInt8.ofNat (k + 0x80)) = none := by
  decide +kernel

theorem utf8Code_two : ∀ k < 32, utf8Code (UInt8.ofNat (k + 0xc0)) = some 2 := by decide +kernel

theorem utf8Code_three : ∀ k < 16, utf8Code (UInt8.ofNat (k + 0xe0)) = some 3 := by decide +kernel

theorem utf8Code_four : ∀ k < 8, utf8Code (UInt8.ofNat (k + 0xf0)) = some 4 := by decide +kernel

theorem isWord_utf8EncodeChar (c : Char) : utf8Code.IsWord (String.utf8EncodeChar c) := by
  have htrailing : ∀ n, utf8Code (UInt8.ofNat (n % 0x40 + 0x80)) = none :=
    fun n => utf8Code_trailing _ (Nat.mod_lt _ (by omega))
  rw [String.utf8EncodeChar]
  split
  · exact ⟨_, [], rfl, utf8Code_ascii _ (by omega), by simp⟩
  split
  · refine ⟨_, _, rfl, utf8Code_two _ (Nat.mod_lt _ (by omega)), ?_⟩
    simp only [List.forall_mem_cons, List.not_mem_nil, false_implies, implies_true, and_true,
      htrailing]
  split
  · refine ⟨_, _, rfl, utf8Code_three _ (Nat.mod_lt _ (by omega)), ?_⟩
    simp only [List.forall_mem_cons, List.not_mem_nil, false_implies, implies_true, and_true,
      htrailing]
  · refine ⟨_, _, rfl, utf8Code_four _ (Nat.mod_lt _ (by omega)), ?_⟩
    simp only [List.forall_mem_cons, List.not_mem_nil, false_implies, implies_true, and_true,
      htrailing]

theorem validUtf8_flatten {text : List Char} {words : List Bytes}
    (h : ∀ word ∈ words, ∃ c ∈ text, String.utf8EncodeChar c = word) : ValidUtf8 words.flatten := by
  induction words with
  | nil => exact ⟨[], rfl⟩
  | cons word words ih =>
      obtain ⟨c, -, rfl⟩ := h word (by simp)
      obtain ⟨chars, hchars⟩ := ih fun word hword => h word (List.mem_cons_of_mem _ hword)
      exact ⟨c :: chars, by rw [List.flatten_cons, hchars, List.flatMap_cons]⟩

theorem parseLoop_eq {total : Nat} {before : Bytes} (h : before.length ≤ total) :
    parseLoop total before = utf8Code.incompleteAt total before := by
  induction before with
  | nil => rfl
  | cons ch before ih =>
      rw [List.length_cons] at h
      rw [parseLoop, Code.incompleteAt, utf8Code]
      split
      · dsimp only
        rw [if_neg (by omega)]
      split
      · rfl
      · exact ih (by omega)

theorem take_parseCompleteUtf8 (bytes : Bytes) :
    (bytes.take (parseCompleteUtf8 bytes []).1, (parseCompleteUtf8 bytes []).2) =
      utf8Code.cut bytes := by
  rw [parseCompleteUtf8, parseLoop_eq (by simp), Code.cut]
  cases utf8Code.incompleteAt bytes.length bytes.reverse with
  | none => simp
  | some n => rfl

/-- What one call converts and keeps. -/
theorem consoleWriteUtf8_eq (utf8ToWide : Bytes → List UInt16) (st : Console) (buf : Bytes)
    (writes : Bool) :
    let next := (consoleWriteUtf8 utf8ToWide st buf writes).2
    next.converted = st.converted ++ [(utf8Code.cut (st.outputBuffer ++ buf)).1] ∧
      next.outputBuffer = (utf8Code.cut (st.outputBuffer ++ buf)).2 := by
  have hparsed : (if st.outputBuffer.isEmpty then
      (buf.take (parseCompleteUtf8 buf []).1, (parseCompleteUtf8 buf []).2)
      else ((st.outputBuffer ++ buf).take (parseCompleteUtf8 (st.outputBuffer ++ buf) []).1,
        (parseCompleteUtf8 (st.outputBuffer ++ buf) []).2)) =
      utf8Code.cut (st.outputBuffer ++ buf) := by
    split
    · next hempty =>
        rw [List.isEmpty_iff.mp hempty, List.nil_append]
        exact take_parseCompleteUtf8 buf
    · exact take_parseCompleteUtf8 _
  simp only [consoleWriteUtf8, hparsed]
  split
  · exact ⟨rfl, rfl⟩
  · exact ⟨rfl, rfl⟩

theorem writeEach_eq (utf8ToWide : Bytes → List UInt16) (st : Console)
    (calls : List (Bytes × Bool)) :
    (writeEach utf8ToWide st calls).converted =
        st.converted ++ (utf8Code.stream st.outputBuffer (calls.map Prod.fst)).1 ∧
      (writeEach utf8ToWide st calls).outputBuffer =
        (utf8Code.stream st.outputBuffer (calls.map Prod.fst)).2 := by
  induction calls generalizing st with
  | nil => exact ⟨(List.append_nil _).symm, rfl⟩
  | cons call calls ih =>
      obtain ⟨hconverted, hbuffer⟩ := consoleWriteUtf8_eq utf8ToWide st call.1 call.2
      obtain ⟨ihconverted, ihbuffer⟩ := ih (consoleWriteUtf8 utf8ToWide st call.1 call.2).2
      rw [hconverted, hbuffer, List.append_assoc] at ihconverted
      rw [hbuffer] at ihbuffer
      exact ⟨ihconverted, ihbuffer⟩

/-- Whatever is written in whatever chunks, what was converted and what is kept are the bytes
that were passed, and at most three are kept; and of valid UTF-8 only valid UTF-8 is converted
and nothing is kept at the end. -/
theorem console_converts_sequences (utf8ToWide : Bytes → List UInt16)
    (calls : List (Bytes × Bool)) :
    let st := writeEach utf8ToWide .initial calls
    let input := (calls.map Prod.fst).flatten
    st.converted.flatten ++ st.outputBuffer = input ∧ st.outputBuffer.length ≤ 3 ∧
      (ValidUtf8 input → (∀ piece ∈ st.converted, ValidUtf8 piece) ∧
        st.converted.flatten = input ∧ st.outputBuffer = []) := by
  have hconverted : (writeEach utf8ToWide .initial calls).converted =
      (utf8Code.stream [] (calls.map Prod.fst)).1 := (writeEach_eq utf8ToWide .initial calls).1
  have hbuffer : (writeEach utf8ToWide .initial calls).outputBuffer =
      (utf8Code.stream [] (calls.map Prod.fst)).2 := (writeEach_eq utf8ToWide .initial calls).2
  dsimp only
  rw [hconverted, hbuffer]
  refine ⟨Code.stream_append utf8Code [] _, ?_, ?_⟩
  · rcases Code.stream_incomplete (C := utf8Code) (.inl rfl) with hnil | hincomplete
    · rw [hnil]
      exact Nat.zero_le 3
    · exact Nat.le_of_lt_succ (length_lt_of_incomplete hincomplete)
  · rintro ⟨text, htext⟩
    have hwords : ∀ word ∈ text.map String.utf8EncodeChar, utf8Code.IsWord word :=
      List.forall_mem_map.mpr fun c _ => isWord_utf8EncodeChar c
    obtain ⟨groups, hgroups, hstream⟩ := Code.stream_words hwords (.inl rfl) htext
    rw [hstream]
    refine ⟨?_, ?_, rfl⟩
    · intro piece hpiece
      obtain ⟨group, hgroup, rfl⟩ := List.mem_map.mp hpiece
      apply validUtf8_flatten
      intro word hword
      rw [← List.mem_map, ← hgroups]
      exact List.mem_flatten_of_mem hgroup hword
    · rw [← List.flatten_flatten, hgroups]
      exact htext.symm

end Adb.ConsoleUtf8
