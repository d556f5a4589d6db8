import Adb.SyncService

/-!
What the sync service does with one whole message: a request, the data of a
file or the end of a file.  Since the service is a consumer, it does the same
in whatever pieces the message comes.
-/

namespace Adb.SyncServiceRuns

open Adb.DescriptorIo
open Adb.ExactConsumers
open Adb.Numerals
open Adb.SyncMessages
open Adb.SyncService
open Adb.WirePackets

variable {env : Nat → Answers} {d : Service}

theorem idDone_ne_idData : idDone ≠ idData := by decide

theorem feed_header (hneed : d.phase.need = headerSize) (id n : Nat) :
    (fileSyncService env).feed ⟨d, []⟩ (header id n) = ⟨advance env d (header id n), []⟩ := by
  apply Consumer.feed_of_eq (header_ne_nil id n)
  rw [length_header]
  exact hneed.symm

theorem feed_body {body : Bytes} (hbody : body ≠ []) (hneed : d.phase.need = body.length) :
    (fileSyncService env).feed ⟨d, []⟩ body = ⟨advance env d body, []⟩ :=
  Consumer.feed_of_eq hbody hneed.symm

theorem headerId_header' {id : Nat} (h : id < 2 ^ 32) (n : Nat) : headerId (header id n) = id := by
  have hid := headerId_header h n []
  rwa [List.append_nil] at hid

/-- The service as the answer to a request finds it. -/
def named (d : Service) (id : Nat) (name : Bytes) : Service :=
  if name = [] then d else d.goto (.name id name.length)

theorem feed_request (hphase : d.phase = .request) {id : Nat} (hid : id < 2 ^ 32) {name : Bytes}
    (hname : name.length ≤ maxPathLength) :
    (fileSyncService env).feed ⟨d, []⟩ (frame id name) =
      ⟨handleName (env d.commands) (named d id name) id name, []⟩ := by
  have hlength : headerLength (header id name.length) = name.length := by
    apply headerLength_header
    simp only [maxPathLength] at hname
    omega
  have hneed : d.phase.need = headerSize := by
    rw [hphase]
    rfl
  rw [frame, Consumer.feed_append, feed_header hneed, advance, hphase]
  simp only [handleRequest, hlength, headerId_header' hid]
  rw [if_neg (by omega)]
  cases name with
  | nil => rfl
  | cons b bs =>
      rw [if_neg (by simp), feed_body (by simp) rfl]
      rfl

@[simp] theorem named_files (id : Nat) (name : Bytes) : (named d id name).files = d.files := by
  rw [named]
  split
  · rfl
  · rfl

@[simp] theorem named_commands (id : Nat) (name : Bytes) :
    (named d id name).commands = d.commands := by
  rw [named]
  split
  · rfl
  · rfl

@[simp] theorem named_out (id : Nat) (name : Bytes) : (named d id name).out = d.out := by
  rw [named]
  split
  · rfl
  · rfl

/-- The service as the handling of a `DATA` message finds it. -/
def filled (d : Service) (sending : Sending) (data : Bytes) : Service :=
  if data = [] then d else d.goto (.chunk sending data.length)

@[simp] theorem filled_files (sending : Sending) (data : Bytes) :
    (filled d sending data).files = d.files := by
  rw [filled]
  split
  · rfl
  · rfl

@[simp] theorem filled_commands (sending : Sending) (data : Bytes) :
    (filled d sending data).commands = d.commands := by
  rw [filled]
  split
  · rfl
  · rfl

@[simp] theorem filled_out (sending : Sending) (data : Bytes) :
    (filled d sending data).out = d.out := by
  rw [filled]
  split
  · rfl
  · rfl

theorem feed_data {sending : Sending} (hphase : d.phase = .data sending) {data : Bytes}
    (hdata : data.length ≤ syncDataMax) :
    (fileSyncService env).feed ⟨d, []⟩ (frame idData data) =
      ⟨handleChunk (env d.commands) (filled d sending data) sending data, []⟩ := by
  have hlength : headerLength (header idData data.length) = data.length := by
    apply headerLength_header
    simp only [syncDataMax] at hdata
    omega
  have hneed : d.phase.need = headerSize := by
    rw [hphase]
    rfl
  rw [frame, Consumer.feed_append, feed_header hneed, advance, hphase]
  simp only [handleData, hlength, headerId_header' (show idData < 2 ^ 32 by decide)]
  rw [if_neg idDone_ne_idData.symm, if_neg (by simp), if_neg (by omega)]
  cases data with
  | nil => rfl
  | cons b bs =>
      rw [if_neg (by simp), feed_body (by simp) rfl]
      rfl

theorem feed_done {sending : Sending} (hphase : d.phase = .data sending) {mtime : Nat}
    (hmtime : mtime < 2 ^ 32) :
    (fileSyncService env).feed ⟨d, []⟩ (header idDone mtime) =
      ⟨handleDone (env d.commands) d sending mtime, []⟩ := by
  have hneed : d.phase.need = headerSize := by
    rw [hphase]
    rfl
  rw [feed_header hneed, advance, hphase]
  simp only [handleData, headerLength_header idDone hmtime,
    headerId_header' (show idDone < 2 ^ 32 by decide)]
  rfl

end Adb.SyncServiceRuns
