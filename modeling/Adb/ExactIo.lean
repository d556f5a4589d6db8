import Adb.DescriptorIo
import Adb.FragmentedStreams

/-!
The blocking reads and writes of adb_io.cpp.  What a descriptor delivers is
the list of pieces in which the bytes arrive, followed by its end; what it
accepts is a script with one entry for each call of `adb_write`.
-/

namespace Adb.ExactIo

open Adb.DescriptorIo
open Adb.FragmentedStreams

/-- The loop of `ReadFdExactly`: each call of `adb_read` returns the next
piece, or as much of it as fits.  An end of stream or an error is a failure. -/
def readPieces : Nat → List Bytes → Option (Bytes × List Bytes)
  | 0, pieces => some ([], pieces)
  | _ + 1, [] => none
  | _ + 1, [] :: _ => none
  | len + 1, (b :: bs) :: pieces =>
      if (b :: bs).length ≤ len + 1 then
        match readPieces (len + 1 - (b :: bs).length) pieces with
        | some (bytes, rest) => some ((b :: bs) ++ bytes, rest)
        | none => none
      else some ((b :: bs).take (len + 1), (b :: bs).drop (len + 1) :: pieces)

def readFdExactly (len : Nat) : Reader UInt8 Bytes :=
  fun pieces => readPieces len pieces

/-- `WriteFdExactly` tries again after `EAGAIN`.  A status `again` stands for a
call that has not returned when the script ends. -/
def writeFdExactly : List WriteResult → Bytes → Written Bytes
  | script, [] => ⟨.done, [], [], script⟩
  | [], data => ⟨.again, [], data, []⟩
  | .wrote n :: script, data =>
      let next := writeFdExactly script (data.drop n)
      { next with bytes := data.take n ++ next.bytes }
  | .eagain :: script, data => writeFdExactly script data
  | .error :: script, data => ⟨.failed, [], data, script⟩

/-- One write for each item of a list, up to the first one that does not succeed. -/
def writeEach {α : Type} (write : List WriteResult → α → Written Bytes) :
    List WriteResult → List α → Written (List α)
  | script, [] => ⟨.done, [], [], script⟩
  | script, item :: items =>
      let first := write script item
      match first.status with
      | .done =>
          let next := writeEach write first.script items
          { next with bytes := first.bytes ++ next.bytes }
      | status => ⟨status, first.bytes, item :: items, first.script⟩

theorem readPieces_of_le {len : Nat} {pieces : List Bytes} {stream : Bytes}
    (h : Fragments pieces stream) (hlen : len ≤ stream.length) :
    ∃ pieces', readPieces len pieces = some (stream.take len, pieces') ∧
      Fragments pieces' (stream.drop len) := by
  induction pieces generalizing len stream with
  | nil =>
      obtain rfl := h.2
      obtain rfl : len = 0 := by simpa using hlen
      exact ⟨[], by simp [readPieces], Fragments.nil⟩
  | cons piece pieces ih =>
      obtain ⟨hsolid, rfl⟩ := h
      have htail : Fragments pieces pieces.flatten :=
        ⟨fun p hp => hsolid p (by simp [hp]), rfl⟩
      cases len with
      | zero => exact ⟨piece :: pieces, by simp [readPieces], hsolid, by simp⟩
      | succ len =>
          cases piece with
          | nil => exact absurd rfl (hsolid [] (by simp))
          | cons b bs =>
              rw [List.flatten_cons, List.length_append] at hlen
              rw [readPieces, List.flatten_cons]
              split
              · rename_i hshort
                obtain ⟨rest, hread, hrest⟩ := ih htail
                  (show len + 1 - (b :: bs).length ≤ _ by omega)
                refine ⟨rest, ?_, ?_⟩
                · rw [hread, List.take_append, List.take_of_length_le hshort]
                · rwa [List.drop_append, List.drop_of_length_le hshort,
                    List.nil_append]
              · rename_i hlong
                have hle : len + 1 ≤ (b :: bs).length := by omega
                refine ⟨(b :: bs).drop (len + 1) :: pieces, ?_, ?_, ?_⟩
                · rw [List.take_append_of_le_length hle]
                · intro p hp
                  rcases List.mem_cons.mp hp with rfl | hp
                  · intro hnil
                    have := congrArg List.length hnil
                    rw [List.length_drop, List.length_nil] at this
                    omega
                  · exact htail.1 p hp
                · rw [List.flatten_cons, List.drop_append_of_le_length hle]

theorem readPieces_of_lt {len : Nat} {pieces : List Bytes}
    (h : pieces.flatten.length < len) : readPieces len pieces = none := by
  induction pieces generalizing len with
  | nil =>
      obtain ⟨n, rfl⟩ := Nat.exists_eq_succ_of_ne_zero (Nat.ne_of_gt h)
      rfl
  | cons piece pieces ih =>
      obtain ⟨n, rfl⟩ := Nat.exists_eq_succ_of_ne_zero (Nat.ne_of_gt (Nat.zero_lt_of_lt h))
      cases piece with
      | nil => rfl
      | cons b bs =>
          rw [List.flatten_cons, List.length_append] at h
          rw [readPieces, if_pos (by omega), ih (by omega)]

theorem readPieces_eq_some {len : Nat} {pieces rest : List Bytes} {bytes : Bytes}
    (h : readPieces len pieces = some (bytes, rest)) :
    bytes.length = len ∧ pieces.flatten = bytes ++ rest.flatten := by
  induction len, pieces using readPieces.induct generalizing bytes rest with
  | case1 pieces =>
      rw [readPieces] at h
      cases h
      exact ⟨rfl, rfl⟩
  | case2 len => cases h
  | case3 len pieces => cases h
  | case4 len b bs pieces hle tail last hread ih =>
      rw [readPieces, if_pos hle, hread] at h
      cases h
      obtain ⟨hlen, hflat⟩ := ih hread
      refine ⟨?_, ?_⟩
      · rw [List.length_append, hlen]
        omega
      · rw [List.flatten_cons, hflat, List.append_assoc]
  | case5 len b bs pieces hle hread ih =>
      rw [readPieces, if_pos hle, hread] at h
      cases h
  | case6 len b bs pieces hle =>
      rw [readPieces, if_neg hle] at h
      cases h
      refine ⟨?_, ?_⟩
      · rw [List.length_take]
        omega
      · rw [List.flatten_cons, List.flatten_cons, ← List.append_assoc,
          List.take_append_drop]

theorem yields_readFdExactly (bytes : Bytes) :
    Yields (readFdExactly bytes.length) bytes bytes := by
  intro pieces rest h
  obtain ⟨pieces', hread, hrest⟩ := readPieces_of_le h
    (show bytes.length ≤ (bytes ++ rest).length by simp)
  rw [List.take_left] at hread
  rw [List.drop_left] at hrest
  exact ⟨pieces', hread, hrest⟩

theorem writeFdExactly_bytes {script : List WriteResult} {data : Bytes}
    (h : (writeFdExactly script data).status = .done) :
    (writeFdExactly script data).bytes = data := by
  induction script, data using writeFdExactly.induct with
  | case3 n script data hdata ih =>
      rw [writeFdExactly] at h ⊢
      · simp only [ih h, List.take_append_drop]
      · exact hdata
      · exact hdata
  | _ => simp_all [writeFdExactly]

theorem writeEach_bytes {α : Type} {write : List WriteResult → α → Written Bytes}
    {encode : α → Bytes} (hwrite : ∀ script item, write script item =
      writeFdExactly script (encode item)) {script : List WriteResult} {items : List α}
    (h : (writeEach write script items).status = .done) :
    (writeEach write script items).bytes = items.flatMap encode := by
  induction items generalizing script with
  | nil => rfl
  | cons item items ih =>
      simp only [writeEach] at h ⊢
      split
      · rename_i hfirst
        rw [hfirst] at h
        rw [hwrite] at hfirst
        rw [List.flatMap_cons, hwrite, writeFdExactly_bytes hfirst, ← hwrite, ih h]
      · rename_i status hfirst
        split at h
        · exact absurd ‹_› hfirst
        · exact absurd h hfirst

end Adb.ExactIo
