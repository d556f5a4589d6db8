import Mathlib.Data.List.Basic

/-!
Non-blocking reads and writes against an arbitrary descriptor.  What the
descriptor does is a script: one entry for each call of `adb_read` or
`adb_write`, in the order of the calls.  A script that has run out stands for
a descriptor that answers `EAGAIN`.
-/

namespace Adb.DescriptorIo

abbrev Bytes := List UInt8

/-- One result of `adb_write`.  `wrote n` writes `n` bytes, or all of them when
fewer were offered; `wrote 0` is the result `0`. -/
inductive WriteResult where
  | wrote (n : Nat)
  | eagain
  | error
  deriving DecidableEq, Repr

/-- One result of `adb_read`.  `data []` is the result `0`, an end of file. -/
inductive ReadResult where
  | data (bytes : Bytes)
  | eagain
  | error
  deriving DecidableEq, Repr

/-- How a writing loop ended. -/
inductive WriteStatus where
  | done
  | again
  | failed
  deriving DecidableEq, Repr

/-- A writing loop's status, the bytes it wrote, what it left of its input,
and the unused rest of the script. -/
structure Written (α : Type) where
  status : WriteStatus
  bytes : Bytes
  rest : α
  script : List WriteResult

/-- Write a buffer until it is empty, the descriptor would block, or a write
returns `0` or an error. -/
def writeAll : List WriteResult → Bytes → Written Bytes
  | script, [] => ⟨.done, [], [], script⟩
  | [], data => ⟨.again, [], data, []⟩
  | .wrote 0 :: script, data => ⟨.failed, [], data, script⟩
  | .wrote (n + 1) :: script, data =>
      let next := writeAll script (data.drop (n + 1))
      { next with bytes := data.take (n + 1) ++ next.bytes }
  | .eagain :: script, data => ⟨.again, [], data, script⟩
  | .error :: script, data => ⟨.failed, [], data, script⟩

/-- Write the packets of a queue in order, dropping each one that is out. -/
def drain : List WriteResult → List Bytes → Written (List Bytes)
  | script, [] => ⟨.done, [], [], script⟩
  | script, packet :: packets =>
      let first := writeAll script packet
      match first.status with
      | .done =>
          let next := drain first.script packets
          { next with bytes := first.bytes ++ next.bytes }
      | status => ⟨status, first.bytes, first.rest :: packets, first.script⟩

/-- What a reading loop got: the bytes, whether it met an end of file or an
error, whether the last call returned `0`, and the rest of the script. -/
structure ReadOutcome where
  bytes : Bytes
  isEof : Bool
  lastZero : Bool
  script : List ReadResult
  deriving DecidableEq, Repr

/-- Read until the buffer of `avail` bytes is full, the descriptor would block,
or a read returns `0` or an error.  `lastZero` is the value of `!r` after the
loop, for a loop entered with it. -/
def readLoop : Bool → List ReadResult → Nat → ReadOutcome
  | lastZero, script, 0 => ⟨[], false, lastZero, script⟩
  | _, [], _ + 1 => ⟨[], false, false, []⟩
  | _, .data [] :: script, _ + 1 => ⟨[], true, true, script⟩
  | _, .data (b :: bs) :: script, avail + 1 =>
      let chunk := (b :: bs).take (avail + 1)
      let next := readLoop false script (avail + 1 - chunk.length)
      { next with bytes := chunk ++ next.bytes }
  | _, .eagain :: script, _ + 1 => ⟨[], false, false, script⟩
  | _, .error :: script, _ + 1 => ⟨[], true, false, script⟩

theorem writeAll_append (script : List WriteResult) (data : Bytes) :
    (writeAll script data).bytes ++ (writeAll script data).rest = data := by
  induction script, data using writeAll.induct with
  | case4 n script data hdata ih =>
      rw [writeAll]
      · simp only [List.append_assoc, ih, List.take_append_drop]
      · exact hdata
  | _ => simp [writeAll]

theorem writeAll_rest_of_done {script : List WriteResult} {data : Bytes}
    (h : (writeAll script data).status = .done) :
    (writeAll script data).rest = [] := by
  induction script, data using writeAll.induct with
  | case4 n script data hdata ih =>
      rw [writeAll] at h ⊢
      · exact ih h
      · exact hdata
      · exact hdata
  | _ => simp_all [writeAll]

theorem drain_append (script : List WriteResult) (packets : List Bytes) :
    (drain script packets).bytes ++ (drain script packets).rest.flatten =
      packets.flatten := by
  induction packets generalizing script with
  | nil => simp [drain]
  | cons packet packets ih =>
      have hfirst := writeAll_append script packet
      simp only [drain]
      split
      · rename_i hdone
        rw [writeAll_rest_of_done hdone, List.append_nil] at hfirst
        simp [hfirst, ih]
      · rw [List.flatten_cons, List.flatten_cons, ← List.append_assoc, hfirst]

theorem drain_rest_of_done {script : List WriteResult} {packets : List Bytes}
    (h : (drain script packets).status = .done) :
    (drain script packets).rest = [] := by
  induction packets generalizing script with
  | nil => rfl
  | cons packet packets ih =>
      simp only [drain] at h ⊢
      split
      · rename_i hdone
        rw [hdone] at h
        exact ih h
      · rename_i hnot
        split at h
        · exact absurd ‹_› (hnot ·)
        · exact absurd h hnot

theorem drain_rest_ne_nil {script : List WriteResult} {packets : List Bytes}
    (h : (drain script packets).status ≠ .done) :
    (drain script packets).rest ≠ [] := by
  induction packets generalizing script with
  | nil => exact absurd rfl h
  | cons packet packets ih =>
      simp only [drain] at h ⊢
      split
      · rename_i hdone
        rw [hdone] at h
        exact ih h
      · simp

end Adb.DescriptorIo
