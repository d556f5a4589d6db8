import Adb.ServiceConnection

/-!
When `adb push --sync` leaves a file alone.  The test is written twice: for a
single file in `sync_send` and for the files of a directory in
`copy_local_dir_remote`, and only the second one looks at the size.
-/

namespace Adb.UpToDate

open Adb.DescriptorIo
open Adb.ServiceConnection
open Adb.StoppingPrograms
open Adb.SyncClient
open Adb.SyncMessages
open Adb.SyncService
open Adb.SyncTransfers

/-- The test of `sync_send`, which gets the local time as an `unsigned`. -/
def sendSkips (file remote : FileInfo) : Bool :=
  upToDate file.mode (file.mtime % 2 ^ 32) remote

/-- The test of `copy_local_dir_remote`. -/
def batchSkips (file remote : FileInfo) : Bool :=
  remote.size = file.size && upToDate file.mode file.mtime remote

/-- Same type, same size, and a time that matches. -/
def SameFile (file remote : FileInfo) : Prop :=
  remote.size = file.size ∧
    (sIsReg file.mode = true ∧ sIsReg remote.mode = true ∧ remote.mtime = file.mtime ∨
      sIsLnk file.mode = true ∧ sIsLnk remote.mode = true ∧
        signedTime file.mtime ≤ signedTime remote.mtime)

/-- The times match for files of this type, `S_IFREG` or `S_IFLNK`. -/
def TimesMatch (type time remoteTime : Nat) : Prop :=
  type = 8 ∧ remoteTime = time ∨ type = 10 ∧ signedTime time ≤ signedTime remoteTime

/-- Where the two tests cannot go wrong: different types whose common bits look
like a type are told apart by their times, files of one type that match in their
times have one size, and for files of one type and size the time has no more
than 32 bits that matter. -/
structure Comparable (file remote : FileInfo) : Prop where
  types : fileType file.mode ≠ fileType remote.mode →
    ¬ TimesMatch (fileType file.mode &&& fileType remote.mode) (file.mtime % 2 ^ 32)
        remote.mtime ∧
      (remote.size = file.size →
        ¬ TimesMatch (fileType file.mode &&& fileType remote.mode) file.mtime remote.mtime)
  sizes : fileType file.mode = fileType remote.mode →
    TimesMatch (fileType file.mode) (file.mtime % 2 ^ 32) remote.mtime →
    remote.size = file.size
  times : fileType file.mode = fileType remote.mode → remote.size = file.size →
    (TimesMatch (fileType file.mode) (file.mtime % 2 ^ 32) remote.mtime ↔
      TimesMatch (fileType file.mode) file.mtime remote.mtime)

theorem fileType_and (mode mode' : Nat) :
    fileType (mode &&& mode') = fileType mode &&& fileType mode' := by
  rw [fileType, Nat.and_div_two_pow, fileType, fileType]
  exact Nat.and_mod_two_pow (n := 4)

theorem upToDate_iff (mode time : Nat) (remote : FileInfo) :
    upToDate mode time remote = true ↔
      TimesMatch (fileType mode &&& fileType remote.mode) time remote.mtime := by
  simp only [upToDate, sIsReg, sIsLnk, fileType_and, TimesMatch, Bool.or_eq_true,
    Bool.and_eq_true, decide_eq_true_eq, ge_iff_le]

theorem sameFile_of_type {file remote : FileInfo}
    (h : fileType file.mode = fileType remote.mode) :
    SameFile file remote ↔ remote.size = file.size ∧
      TimesMatch (fileType file.mode) file.mtime remote.mtime := by
  simp only [SameFile, TimesMatch, sIsReg, sIsLnk, decide_eq_true_eq, ← h, and_self_left]

theorem not_sameFile_of_types {file remote : FileInfo}
    (h : fileType file.mode ≠ fileType remote.mode) : ¬ SameFile file remote := by
  simp only [SameFile, sIsReg, sIsLnk, decide_eq_true_eq]
  rintro ⟨_, ⟨hfile, hremote, _⟩ | ⟨hfile, hremote, _⟩⟩
  · exact h (hfile.trans hremote.symm)
  · exact h (hfile.trans hremote.symm)

theorem decisions_right_iff (file remote : FileInfo) :
    ((sendSkips file remote = true ↔ SameFile file remote) ∧
      (batchSkips file remote = true ↔ SameFile file remote)) ↔ Comparable file remote := by
  simp only [sendSkips, batchSkips, Bool.and_eq_true, decide_eq_true_eq, upToDate_iff]
  rcases Decidable.em (fileType file.mode = fileType remote.mode) with htype | htype
  · simp only [sameFile_of_type htype, ← htype, Nat.and_self, and_true]
    constructor
    · intro hsend
      exact ⟨fun hne => absurd htype hne, fun _ hmatch => (hsend.mp hmatch).1,
        fun _ hsize => ⟨fun hmatch => (hsend.mp hmatch).2, fun hmatch => hsend.mpr ⟨hsize, hmatch⟩⟩⟩
    · intro hcomparable
      constructor
      · intro hmatch
        have hsize := hcomparable.sizes htype hmatch
        exact ⟨hsize, (hcomparable.times htype hsize).mp hmatch⟩
      · rintro ⟨hsize, hmatch⟩
        exact (hcomparable.times htype hsize).mpr hmatch
  · simp only [iff_false_intro (not_sameFile_of_types htype), iff_false, not_and]
    constructor
    · intro hskips
      exact ⟨fun _ => hskips, fun heq => absurd heq htype, fun heq => absurd heq htype⟩
    · intro hcomparable
      exact hcomparable.types htype

section Decisions

variable (env : Nat → Answers) (world : World)

theorem execute_syncSend_sync {file remote : FileInfo} {rpath : Bytes} {s s' : Session}
    (h : execute ((connection env world).syncLstat rpath) s = (.ok (.ok remote), s')) (lpath : Bytes) :
    execute ((pushing env world).syncSend lpath rpath (file.mtime % 2 ^ 32) file.mode true) s =
      if sendSkips file remote then (.ok true, s')
      else execute ((pushing env world).syncSendFile lpath rpath (file.mtime % 2 ^ 32) file.mode)
        s' := by
  rw [SyncPush.syncSend, if_pos rfl, execute_bind_of_ok h]
  cases hskip : upToDate file.mode (file.mtime % 2 ^ 32) remote with
  | true => simp only [sendSkips, hskip, if_true, execute_pure]
  | false => simp only [sendSkips, hskip, Bool.false_eq_true, if_false]

theorem execute_finishBatch {file remote : FileInfo} {ci : CopyInfo} {cis rest : List CopyInfo}
    {s s' s'' : Session} (hmode : ci.mode = file.mode) (hsize : ci.size = file.size)
    (htime : ci.time = file.mtime)
    (h : execute (connection env world).finishStat s = (.ok (.ok remote), s'))
    (hrest : execute (finishBatch (pushing env world) cis) s' = (.ok rest, s'')) :
    execute (finishBatch (pushing env world) (ci :: cis)) s =
      (.ok ({ ci with skip := ci.skip || batchSkips file remote } :: rest), s'') := by
  rw [finishBatch, execute_bind_of_ok h, execute_bind_of_ok hrest]
  have hskips : answersUpToDate ci (.ok remote) = batchSkips file remote := by
    rw [answersUpToDate, batchSkips, hmode, hsize, htime]
  rw [hskips]
  split
  · rename_i hskip
    rw [hskip, Bool.or_true, execute_pure]
  · rename_i hkeep
    rw [Bool.not_eq_true] at hkeep
    rw [hkeep, Bool.or_false, execute_pure]

end Decisions

/-- `sync_send` and `copy_local_dir_remote` decide by these two tests, and both
tests are right exactly for the files that are comparable. -/
theorem push_sync_decisions_iff (env : Nat → Answers) (world : World)
    (file remote : FileInfo) :
    (∀ lpath rpath s s', execute ((connection env world).syncLstat rpath) s = (.ok (.ok remote), s') →
      execute ((pushing env world).syncSend lpath rpath (file.mtime % 2 ^ 32) file.mode true) s =
        if sendSkips file remote then (.ok true, s')
        else execute
          ((pushing env world).syncSendFile lpath rpath (file.mtime % 2 ^ 32) file.mode) s') ∧
    (∀ ci cis rest s s' s'', ci.mode = file.mode → ci.size = file.size →
      ci.time = file.mtime → execute (connection env world).finishStat s = (.ok (.ok remote), s') →
      execute (finishBatch (pushing env world) cis) s' = (.ok rest, s'') →
      execute (finishBatch (pushing env world) (ci :: cis)) s =
        (.ok ({ ci with skip := ci.skip || batchSkips file remote } :: rest), s'')) ∧
    (((sendSkips file remote = true ↔ SameFile file remote) ∧
      (batchSkips file remote = true ↔ SameFile file remote)) ↔ Comparable file remote) := by
  refine ⟨?_, ?_, decisions_right_iff file remote⟩
  · exact fun lpath rpath s s' h => execute_syncSend_sync env world h lpath
  · exact fun ci cis rest s s' s'' hmode hsize htime h hrest =>
      execute_finishBatch env world hmode hsize htime h hrest

instance (file remote : FileInfo) : Decidable (SameFile file remote) :=
  inferInstanceAs (Decidable (_ ∧ _))

/-- A regular file of five bytes against one of three bytes with the same time,
which only `sync_send` skips, and against a socket, which both of them skip. -/
theorem push_sync_decisions_wrong :
    (sendSkips ⟨0o100644, 5, 1000⟩ ⟨0o100644, 3, 1000⟩ = true ∧
      batchSkips ⟨0o100644, 5, 1000⟩ ⟨0o100644, 3, 1000⟩ = false ∧
      ¬ SameFile ⟨0o100644, 5, 1000⟩ ⟨0o100644, 3, 1000⟩) ∧
    sendSkips ⟨0o100644, 0, 1000⟩ ⟨0o140755, 0, 1000⟩ = true ∧
      batchSkips ⟨0o100644, 0, 1000⟩ ⟨0o140755, 0, 1000⟩ = true ∧
      ¬ SameFile ⟨0o100644, 0, 1000⟩ ⟨0o140755, 0, 1000⟩ := by
  decide


end Adb.UpToDate
