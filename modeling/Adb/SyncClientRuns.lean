import Adb.ServiceConnection

/-! How the calls of the sync client run when what they read has come. -/

namespace Adb.SyncClientRuns

open Adb.DescriptorIo
open Adb.ServiceConnection
open Adb.StoppingPrograms
open Adb.SyncClient
open Adb.SyncMessages
open Adb.SyncService
open Adb.WirePackets

variable {s : Session}

theorem execute_ask {α : Type} (answer : Nat → α) (s : Session) :
    execute (ask answer) s = (.ok (answer s.calls), { s with calls := s.calls + 1 }) := rfl

theorem execute_haveStatV2 (s : Session) : execute haveStatV2 s = (.ok s.haveStatV2, s) := rfl

theorem execute_expectDone (s : Session) : execute expectDone s = (.ok s.expectDone, s) := rfl

theorem execute_rounds (s : Session) :
    execute rounds s = (.ok (s.service.state.out.length + 1), s) := rfl

theorem execute_readFdExactly {n : Nat} (hn : n ≤ s.service.state.out.length) :
    execute (readFdExactly n) s =
      (.ok (some (s.service.state.out.take n)), s.setOut (s.service.state.out.drop n)) := by
  rw [readFdExactly, execute_bind_of_ok (execute_get s)]
  simp only [if_pos hn]
  rw [execute_bind_of_ok (execute_modify _ s)]
  rfl

theorem execute_readFdExactly_all {msg : Bytes} (hout : s.service.state.out = msg) :
    execute (readFdExactly msg.length) s = (.ok (some msg), s.setOut []) := by
  rw [execute_readFdExactly (Nat.le_of_eq (congrArg List.length hout.symm)), hout,
    List.take_length, List.drop_length]

theorem length_statV1 (answers : Answers) : (statV1 answers).length = statV1Size := by
  unfold statV1
  split
  · simp [word, statV1Size]
  · simp [word, statV1Size]

theorem length_statV2 (answers : Answers) (id : Nat) :
    (statV2 answers id).length = statV2Size := by
  unfold statV2
  split
  · simp [word, word64, statV2Size]
  · simp [word, word64, statV2Size]

theorem wordOf_word (n : Nat) (h : n < 2 ^ 32) (rest : Bytes) : wordOf (word n ++ rest) 0 4 = n := by
  have htake : (word n ++ rest).take 4 = word n :=
    List.take_left' (LittleEndian.length_encode 4 n)
  rw [wordOf, List.drop_zero, htake]
  exact LittleEndian.decode_encode_of_lt h

theorem statAnswer_statV2 (errnoFromWire : Nat → ClientErrno) {id : Nat}
    (h : id = idLstatV2 ∨ id = idStatV2) (answers : Answers) :
    ∃ r, statAnswer errnoFromWire true (statV2 answers id) = some r := by
  have hlt : id < 2 ^ 32 := by
    rcases h with rfl | rfl
    · decide
    · decide
  have hid : wordOf (statV2 answers id) 0 4 = id := by
    unfold statV2
    split
    · simp only [List.append_assoc]
      exact wordOf_word id hlt _
    · simp only [List.append_assoc]
      exact wordOf_word id hlt _
  rw [statAnswer, if_pos rfl, hid, if_neg (fun hne => h.elim hne.1 hne.2)]
  split
  · exact ⟨_, rfl⟩
  · exact ⟨_, rfl⟩

theorem statAnswer_statV1 (errnoFromWire : Nat → ClientErrno) (answers : Answers) :
    ∃ r, statAnswer errnoFromWire false (statV1 answers) = some r := by
  have hid : wordOf (statV1 answers) 0 4 = idLstatV1 := by
    unfold statV1
    split
    · simp only [List.append_assoc]
      exact wordOf_word idLstatV1 (by decide) _
    · simp only [List.append_assoc]
      exact wordOf_word idLstatV1 (by decide) _
  rw [statAnswer, if_neg (by simp), hid, if_neg (by simp)]
  split
  · exact ⟨_, rfl⟩
  · exact ⟨_, rfl⟩

end Adb.SyncClientRuns
