import Adb.DescriptorIo
import Adb.LittleEndian
import Adb.Numerals
import Adb.WirePackets

/-! The messages of the sync service, file_sync_service.h. -/

namespace Adb.SyncMessages

open Adb.DescriptorIo
open Adb.Numerals
open Adb.WirePackets

/-- `MKID`: four characters as a little-endian number. -/
def mkid (name : String) : Nat := LittleEndian.decode (ascii name)

def idLstatV1 : Nat := mkid "STAT"

def idStatV2 : Nat := mkid "STA2"

def idLstatV2 : Nat := mkid "LST2"

def idList : Nat := mkid "LIST"

def idSend : Nat := mkid "SEND"

def idRecv : Nat := mkid "RECV"

def idDent : Nat := mkid "DENT"

def idDone : Nat := mkid "DONE"

def idData : Nat := mkid "DATA"

def idOkay : Nat := mkid "OKAY"

def idFail : Nat := mkid "FAIL"

def idQuit : Nat := mkid "QUIT"

def syncDataMax : Nat := 64 * 1024

/-- The longest path of a request. -/
def maxPathLength : Nat := 1024

def word (n : Nat) : Bytes := LittleEndian.encode 4 n

def word64 (n : Nat) : Bytes := LittleEndian.encode 8 n

/-- A `SyncRequest`, and also `syncmsg.data` and `syncmsg.status`: an id and a
length or another number. -/
def header (id n : Nat) : Bytes := word id ++ word n

def headerSize : Nat := 8

def headerId (bytes : Bytes) : Nat := LittleEndian.decode (bytes.take 4)

def headerLength (bytes : Bytes) : Nat := LittleEndian.decode ((bytes.drop 4).take 4)

/-- A header with the bytes that its length announces. -/
def frame (id : Nat) (data : Bytes) : Bytes := header id data.length ++ data

/-- `S_IFMT` and the file types that the sync code distinguishes. -/
def fileType (mode : Nat) : Nat := mode / 2 ^ 12 % 16

def sIsReg (mode : Nat) : Bool := fileType mode = 8

def sIsLnk (mode : Nat) : Bool := fileType mode = 10

def sIsDir (mode : Nat) : Bool := fileType mode = 4

def sIsBlk (mode : Nat) : Bool := fileType mode = 6

def sIsChr (mode : Nat) : Bool := fileType mode = 2

/-- `%d` of a 32-bit number that is unsigned in the caller. -/
def printInt (n : Nat) : Bytes :=
  if n < 2 ^ 31 then print 10 n else 45 :: print 10 (2 ^ 32 - n)

/-- `StringPrintf("%s,%d", rpath, mode)`. -/
def pathAndMode (rpath : Bytes) (mode : Nat) : Bytes := rpath ++ 44 :: printInt mode

/-- The text before and after the last comma, `find_last_of(',')`. -/
def splitLastComma : Bytes → Option (Bytes × Bytes)
  | [] => none
  | b :: bs =>
      match splitLastComma bs with
      | some (path, mode) => some (b :: path, mode)
      | none => if b = 44 then some ([], bs) else none

@[simp] theorem length_header (id n : Nat) : (header id n).length = headerSize := by
  simp [header, word, headerSize]

@[simp] theorem header_ne_nil (id n : Nat) : header id n ≠ [] := by
  intro h
  have := congrArg List.length h
  simp [headerSize] at this

theorem headerId_header {id : Nat} (h : id < 2 ^ 32) (n : Nat) (rest : Bytes) :
    headerId (header id n ++ rest) = id := by
  have htake : (header id n ++ rest).take 4 = word id := by
    rw [header, List.append_assoc]
    exact List.take_left' (LittleEndian.length_encode 4 id)
  rw [headerId, htake]
  exact LittleEndian.decode_encode_of_lt h

theorem headerLength_header (id : Nat) {n : Nat} (h : n < 2 ^ 32) :
    headerLength (header id n) = n := by
  have hdrop : (header id n).drop 4 = word n :=
    List.drop_left' (LittleEndian.length_encode 4 id)
  have hlen : (word n).length = 4 := LittleEndian.length_encode 4 n
  rw [headerLength, hdrop, List.take_of_length_le (Nat.le_of_eq hlen)]
  exact LittleEndian.decode_encode_of_lt h

theorem length_frame (id : Nat) (data : Bytes) :
    (frame id data).length = headerSize + data.length := by
  simp [frame]

theorem splitLastComma_of_not_mem {text : Bytes} (h : 44 ∉ text) :
    splitLastComma text = none := by
  induction text with
  | nil => rfl
  | cons b text ih =>
      have hb : b ≠ 44 := fun heq => h (by simp [heq])
      rw [splitLastComma, ih fun hmem => h (by simp [hmem])]
      simp [hb]

theorem splitLastComma_append (path : Bytes) {mode : Bytes} (h : 44 ∉ mode) :
    splitLastComma (path ++ 44 :: mode) = some (path, mode) := by
  induction path with
  | nil =>
      rw [List.nil_append, splitLastComma, splitLastComma_of_not_mem h]
      simp
  | cons b path ih => rw [List.cons_append, splitLastComma, ih]

theorem not_mem_printInt {b : UInt8} (hminus : b ≠ 45) (hdigit : ∀ e < 10, b ≠ digitByte e)
    (n : Nat) : b ∉ printInt n := by
  have hdigits : ∀ m, b ∉ print 10 m := by
    intro m hmem
    obtain ⟨d, hd, heq⟩ := mem_print (by omega) hmem
    exact hdigit d hd heq
  unfold printInt
  split
  · exact hdigits n
  · intro hmem
    rcases List.mem_cons.mp hmem with heq | hmem
    · exact hminus heq
    · exact hdigits _ hmem

theorem comma_not_mem_printInt (n : Nat) : 44 ∉ printInt n :=
  not_mem_printInt (by decide) (by decide) n

theorem nul_not_mem_pathAndMode {rpath : Bytes} (h : 0 ∉ rpath) (mode : Nat) :
    0 ∉ pathAndMode rpath mode := by
  intro hmem
  rcases List.mem_append.mp hmem with hmem | hmem
  · exact h hmem
  · rcases List.mem_cons.mp hmem with heq | hmem
    · cases heq
    · exact not_mem_printInt (by decide) (by decide) mode hmem

/-- `do_send` reads every 32-bit mode back as it was printed, with a minus sign
when it does not fit an `int`. -/
theorem strtoul_printInt {n : Nat} (h : n < 2 ^ 32) :
    (strtoul 0 (printInt n)).1 % 2 ^ 32 = n ∧ (strtoul 0 (printInt n)).2 = false := by
  unfold printInt
  split
  · have hvalue := unsignedValue_zero_print n
    rw [strtoul_of_plain, hvalue]
    · exact ⟨Nat.mod_eq_of_lt h, rfl⟩
    · intro b hb
      have hplain := (isDigit_of_mem_print (by omega) (by omega)
        (List.mem_of_mem_head? hb)).plain
      exact ⟨hplain.2.1, hplain.2.2.1, hplain.2.2.2.1⟩
    · rw [hvalue]
      omega
  · have hvalue := unsignedValue_zero_print (2 ^ 32 - n)
    have hdrop : (45 :: print 10 (2 ^ 32 - n)).dropWhile isSpace =
        45 :: print 10 (2 ^ 32 - n) := rfl
    simp only [strtoul, hdrop, afterSign, hvalue, List.head?_cons]
    rw [if_neg (by omega), if_pos trivial]
    refine ⟨?_, rfl⟩
    simp only
    omega

end Adb.SyncMessages
