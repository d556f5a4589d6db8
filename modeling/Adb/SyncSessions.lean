import Adb.SyncLockstep
import Adb.TransferRules

/-! Whole sync sessions, `adb push` and `adb pull`, stay in step. -/

namespace Adb.SyncSessions

open Adb.DescriptorIo
open Adb.ExactConsumers
open Adb.SendStates
open Adb.ServiceConnection
open Adb.StoppingPrograms
open Adb.SyncClient
open Adb.SyncClientRuns
open Adb.SyncLockstep
open Adb.SyncMessages
open Adb.SyncService
open Adb.SyncServiceRuns
open Adb.SyncTransfers
open Adb.TransferRules
open Adb.WirePackets

variable {env : Nat → Answers} {world : World} {v2 batches : Bool} {out : Bytes} {s s' : Session}

theorem Asked.reading {id : Nat} (hid : id < 2 ^ 32) (h : Asked env v2 batches id s) :
    (∃ d n name, d.out = [] ∧ s.service = ⟨handleName (env n) d id name, []⟩ ∧
      Logged v2 batches s ∧ s.broken = false) ∨
    (s.service.state.phase = .ended ∧ Reading v2 batches [] s) := by
  obtain ⟨hlogged, hbroken, p, name, hp, hname, hservice⟩ := h
  rcases feed_atRequest env hp hid hname with ⟨-, hfeed⟩ | ⟨hphase, hfeed⟩
  · rw [hfeed] at hservice
    refine .inl ⟨named p.state id name, _, name, ?_, hservice, hlogged, hbroken⟩
    rw [named_out, hp.out]
  · rw [hfeed] at hservice
    exact .inr ⟨by rw [hservice, hphase], hlogged.reading hbroken hp hservice⟩

/-- The fixed part of a `DENT` message. -/
def dentHeader (entry : Dent) : Bytes :=
  word idDent ++ word entry.mode ++ word entry.size ++ word entry.time ++
    word entry.name.length

theorem length_word (n : Nat) : (word n).length = 4 := LittleEndian.length_encode 4 n

theorem length_dentHeader (entry : Dent) : (dentHeader entry).length = dentSize := by
  simp [dentHeader, length_word, dentSize]

theorem length_dentDone : dentDone.length = dentSize := by
  simp [dentDone, length_word, dentSize]

theorem wordOf_dentHeader (entry : Dent) (h : entry.name.length ≤ 255) :
    wordOf (dentHeader entry) 0 4 = idDent ∧ wordOf (dentHeader entry) 16 4 = entry.name.length := by
  constructor
  · simp only [dentHeader, List.append_assoc]
    exact wordOf_word idDent (by decide) _
  · have hdrop : (dentHeader entry).drop 16 = word entry.name.length := by
      rw [dentHeader]
      exact List.drop_left' (by simp [length_word])
    rw [wordOf, hdrop, List.take_of_length_le (Nat.le_of_eq (length_word _))]
    exact LittleEndian.decode_encode_of_lt (by omega)

theorem wordOf_dentDone : wordOf dentDone 0 4 = idDone := by
  simp only [dentDone, List.append_assoc]
  exact wordOf_word idDone (by decide) _

theorem readDents_entries (entries : List Dent)
    (hnames : ∀ entry ∈ entries, entry.name.length ≤ 255) {fuel : Nat}
    (hfuel : entries.length < fuel)
    (hs : Reading v2 batches (entries.flatMap dent ++ dentDone) s) :
    ∃ s', (∃ r, execute ((pulling env world).readDents fuel) s = (.ok r, s')) ∧
      Reading v2 batches [] s' := by
  induction entries generalizing fuel s with
  | nil =>
      obtain ⟨fuel, rfl⟩ := Nat.exists_eq_add_one_of_ne_zero (by omega : fuel ≠ 0)
      have hread := read_front hs dentDone [] (by simp)
      rw [length_dentDone] at hread
      refine ⟨_, ?_, hs.setOut []⟩
      rw [SyncPull.readDents, execute_bind_of_ok hread]
      simp only [wordOf_dentDone, if_true]
      exact ⟨_, rfl⟩
  | cons entry entries ih =>
      obtain ⟨fuel, rfl⟩ := Nat.exists_eq_add_one_of_ne_zero (by omega : fuel ≠ 0)
      have hname := hnames entry (by simp)
      obtain ⟨hid, hlength⟩ := wordOf_dentHeader entry hname
      have hread := read_front hs (dentHeader entry)
        (entry.name ++ (entries.flatMap dent ++ dentDone)) (by simp [dent, dentHeader])
      rw [length_dentHeader] at hread
      have hs₁ := hs.setOut (entry.name ++ (entries.flatMap dent ++ dentDone))
      have hread₁ := read_front hs₁ _ _ rfl
      obtain ⟨s', ⟨r, hrest⟩, hs'⟩ := ih (fun other hother => hnames other (by simp [hother]))
        (by simpa using hfuel) (hs₁.setOut (entries.flatMap dent ++ dentDone))
      refine ⟨s', ?_, hs'⟩
      rw [SyncPull.readDents, execute_bind_of_ok hread]
      simp only [hid, hlength]
      rw [if_neg (by decide), if_neg (by simp), if_neg (by simp only [maxNameLength]; omega),
        execute_bind_of_ok hread₁]
      simp only
      rw [execute_bind_of_ok (execute_pure _ _), execute_bind_of_ok hrest]
      exact ⟨_, rfl⟩

theorem length_le_flatMap_dent (entries : List Dent) :
    entries.length ≤ (entries.flatMap dent).length := by
  induction entries with
  | nil => simp
  | cons entry entries ih =>
      have hdent : 1 ≤ (dent entry).length := by
        simp only [dent, List.length_append, length_word]
        omega
      rw [List.flatMap_cons, List.length_append, List.length_cons]
      omega

theorem ensures_syncLs (henv : Dependable env) (hs : Between v2 batches s) (path : Bytes) :
    Ensures ((pulling env world).syncLs path) s (fun _ => Between v2 batches)
      (Logged v2 batches) := by
  rw [SyncPull.syncLs]
  refine (ensures_sendRequest hs idList path).bind ?_
  intro ok s₁ hs₁
  cases ok with
  | false => exact ensures_pure hs₁
  | true =>
      refine ensures_bind_of_ok (execute_rounds s₁) ?_
      rcases Asked.reading (by decide) hs₁ with
        ⟨d, n, name, hout, hservice, hlogged, hbroken⟩ | ⟨hphase, hreading⟩
      · have hreading := hlogged.reading_answer hbroken hservice
        rw [hout, List.nil_append] at hreading
        have hfuel : (env n).entries.length < s₁.service.state.out.length + 1 := by
          have hle := length_le_flatMap_dent (env n).entries
          rw [hreading.out, List.length_append]
          omega
        obtain ⟨s', ⟨r, hrun⟩, hs'⟩ := readDents_entries _ (henv.names n) hfuel hreading
        exact ensures_of_ok hrun hs'.between
      · have hread := read_ended hreading hphase (show dentSize ≠ 0 by decide)
        rw [SyncPull.readDents]
        exact ensures_bind_of_ok hread (ensures_pure (hreading.setOut []).between)

/-- What `do_recv` sends. -/
inductive RecvStream : Bytes → Prop
  | done : RecvStream (header idDone 0)
  | failed (reason : Bytes) (hreason : reason.length < 2 ^ 32) :
      RecvStream (frame idFail reason)
  | data (data rest : Bytes) (hdata : data.length ≤ syncDataMax) (hrest : RecvStream rest) :
      RecvStream (frame idData data ++ rest)

theorem recvStream_recvLoop {answers : Answers} (h : answers.strerror.length < 2 ^ 16)
    (reads : List ReadResult) :
    RecvStream ((recvLoop answers reads).1 ++
      if (recvLoop answers reads).2 then header idDone 0 else []) := by
  induction reads with
  | nil => exact .done
  | cons result reads ih =>
      have hfailed : RecvStream (frame idFail (ascii "read failed: " ++ answers.strerror)) := by
        apply RecvStream.failed
        have hascii : (ascii "read failed: ").length = 13 := by decide
        rw [List.length_append, hascii]
        omega
      cases result with
      | data bytes =>
          cases bytes with
          | nil => exact .done
          | cons b bs =>
              rw [recvLoop]
              simp only [List.append_assoc]
              exact .data _ _ (List.length_take_le _ _) ih
      | eagain =>
          rw [recvLoop]
          · simpa using hfailed
          · nofun
          · nofun
      | error =>
          rw [recvLoop]
          · simpa using hfailed
          · nofun
          · nofun

theorem ensures_recvMessages (hworld : ∀ n, world.written n = true) (hout : RecvStream out)
    (lpath : Bytes) {fuel : Nat} (hfuel : out.length < fuel) (hs : Reading v2 batches out s) :
    Ensures ((pulling env world).recvMessages lpath fuel) s (fun _ => Reading v2 batches [])
      (Logged v2 batches) := by
  induction hout generalizing fuel s with
  | done =>
      obtain ⟨fuel, rfl⟩ := Nat.exists_eq_add_one_of_ne_zero (by omega : fuel ≠ 0)
      have hread := read_front hs _ _ (List.append_nil _).symm
      rw [length_header] at hread
      rw [SyncRecv.recvMessages]
      refine ensures_bind_of_ok hread ?_
      simp only [headerId_header' (show idDone < 2 ^ 32 by decide), if_true]
      exact ensures_pure (hs.setOut [])
  | failed reason hreason =>
      obtain ⟨fuel, rfl⟩ := Nat.exists_eq_add_one_of_ne_zero (by omega : fuel ≠ 0)
      have hread := read_front hs _ _ rfl
      rw [length_header] at hread
      rw [SyncRecv.recvMessages]
      refine ensures_bind_of_ok hread ?_
      simp only [headerId_header' (show idFail < 2 ^ 32 by decide)]
      rw [if_neg (by decide), if_pos (by decide)]
      refine ensures_bind_of_ok (execute_pure _ _) ?_
      refine (ensures_reportCopyFailure (hs.setOut reason)
        (headerLength_header idFail hreason)).bind ?_
      intro _ s' hs'
      exact ensures_pure hs'
  | data data rest hdata hrest ih =>
      obtain ⟨fuel, rfl⟩ := Nat.exists_eq_add_one_of_ne_zero (by omega : fuel ≠ 0)
      have hread := read_front hs (header idData data.length) (data ++ rest) (by simp [frame])
      rw [length_header] at hread
      have hs₁ := hs.setOut (data ++ rest)
      have hread₁ := read_front hs₁ _ _ rfl
      have hlength : headerLength (header idData data.length) = data.length := by
        apply headerLength_header
        simp only [syncDataMax] at hdata
        omega
      rw [SyncRecv.recvMessages]
      refine ensures_bind_of_ok hread ?_
      simp only [headerId_header' (show idData < 2 ^ 32 by decide), hlength]
      rw [if_neg (by decide), if_neg (by decide), if_neg (by omega)]
      refine ensures_bind_of_ok hread₁ ?_
      refine ensures_bind_of_ok (execute_ask _ _) ?_
      simp only [hworld, if_true]
      apply ih
      · simp only [frame, List.length_append, length_header, headerSize] at hfuel
        omega
      · exact (hs₁.setOut rest).calls _

theorem recvStream_doRecv (henv : Dependable env) (n : Nat) {d : Service} (hout : d.out = []) :
    RecvStream (doRecv (env n) d).out ∧
      ((doRecv (env n) d).phase = .request ∨ (doRecv (env n) d).phase = .ended) := by
  rw [doRecv]
  split
  · refine ⟨?_, .inr rfl⟩
    rcases failure_sendSyncFailErrno henv n hout
      (show (ascii "open failed").length < 2 ^ 16 by decide) with hnil | ⟨reason, hreason, hframe⟩
    · simp [sendSyncFailErrno, sendSyncFail, Service.write, hout, frame] at hnil
    · show RecvStream (sendSyncFailErrno (env n) d "open failed").out
      rw [hframe]
      exact .failed reason hreason
  · have hstream := recvStream_recvLoop (henv.strerror n) (env n).reads
    simp only
    split
    next hok =>
        rw [if_pos hok] at hstream
        refine ⟨?_, .inl rfl⟩
        simpa [Service.write, Service.again, hout] using hstream
    next hok =>
        rw [if_neg hok, List.append_nil] at hstream
        refine ⟨?_, .inr rfl⟩
        simpa [Service.write, Service.finish, hout] using hstream

theorem ensures_syncRecv (henv : Dependable env) (hworld : Uninterrupted world)
    (hs : Between v2 batches s) (rpath lpath : Bytes) :
    Ensures ((pulling env world).syncRecv rpath lpath) s (fun _ => Between v2 batches)
      (Logged v2 batches) := by
  rw [SyncRecv.syncRecv]
  refine (ensures_sendRequest hs idRecv rpath).bind ?_
  intro ok s₁ hs₁
  cases ok with
  | false => exact ensures_pure hs₁
  | true =>
      refine ensures_bind_of_ok (execute_pure _ s₁) ?_
      refine ensures_bind_of_ok (execute_ask world.created s₁) ?_
      simp only [hworld.created, if_true]
      refine ensures_bind_of_ok (execute_rounds _) ?_
      rcases Asked.reading (by decide) hs₁ with
        ⟨d, n, name, hout, hservice, hlogged, hbroken⟩ | ⟨hphase, hreading⟩
      · obtain ⟨hstream, hphase⟩ := recvStream_doRecv henv n hout
        have hreading : Reading v2 batches (doRecv (env n) d).out s₁ :=
          ⟨hlogged, hbroken, by rw [hservice], by rw [hservice]; rfl, by rw [hservice]; exact hphase⟩
        have hfuel : (doRecv (env n) d).out.length < s₁.service.state.out.length + 1 := by
          rw [hreading.out]
          omega
        exact (ensures_recvMessages hworld.written hstream lpath hfuel (hreading.calls _)).imp
          (fun _ _ h => Reading.between h) fun _ hstop => hstop
      · have hread := read_ended (hreading.calls (s₁.calls + 1)) hphase
          (show headerSize ≠ 0 by decide)
        rw [SyncRecv.recvMessages]
        refine ensures_bind_of_ok hread (ensures_bind_of_ok (execute_pure _ _) ?_)
        exact ensures_pure ((hreading.calls _).setOut []).between

theorem keeps_localMachine (world : World) :
    Keeps (localMachine world) (Between v2 batches) (Logged v2 batches) where
  ask _ _ hs := ensures_ask (hs.calls _)
  outOfDepth _ hs := ensures_throw hs.1

section Push

theorem ensures_lstatBatch {cis : List CopyInfo}
    (hpaths : ∀ ci ∈ cis, (cString ci.rpath).length ≤ maxPathLength) {count : Nat}
    (hs : Pending v2 true count s) :
    Ensures (lstatBatch (pushing env world) count cis) s
      (fun ok s' => if ok then Pending v2 true (count + cis.length) s' else Between v2 true s')
      (Logged v2 true) := by
  induction cis generalizing count s with
  | nil => exact ensures_pure hs
  | cons ci cis ih =>
      rw [lstatBatch]
      refine (ensures_sendLstat hs nofun (hpaths ci (by simp))).bind ?_
      intro ok s₁ hs₁
      cases ok with
      | false => exact ensures_pure hs₁
      | true =>
          have hnext := ih (fun other hother => hpaths other (by simp [hother])) hs₁
          rw [List.length_cons, Nat.add_comm cis.length, ← Nat.add_assoc]
          exact hnext

/-- The first request of a batch finds the client between two commands. -/
theorem ensures_lstatBatch_start {cis : List CopyInfo}
    (hpaths : ∀ ci ∈ cis, (cString ci.rpath).length ≤ maxPathLength) (hs : Between v2 true s) :
    Ensures (lstatBatch (pushing env world) 0 cis) s
      (fun ok s' => if ok then Pending v2 true cis.length s' ∨ cis = [] ∧ Between v2 true s'
        else Between v2 true s')
      (Logged v2 true) := by
  cases cis with
  | nil => exact ensures_pure (.inr ⟨rfl, hs⟩)
  | cons ci cis =>
      rw [lstatBatch]
      refine (ensures_sendLstat_single hs ci.rpath).bind ?_
      intro ok s₁ hs₁
      cases ok with
      | false => exact ensures_pure hs₁
      | true =>
          refine (ensures_lstatBatch (fun other hother => hpaths other (by simp [hother]))
            hs₁).imp ?_ fun _ hstop => hstop
          intro ok s₂ hs₂
          cases ok with
          | false => exact hs₂
          | true =>
              left
              rw [List.length_cons, Nat.add_comm]
              exact hs₂

theorem ensures_finishBatch {cis : List CopyInfo} (hs : Pending v2 batches cis.length s) :
    Ensures (finishBatch (pushing env world) cis) s (fun _ => Between v2 batches) (Logged v2 batches) := by
  induction cis generalizing s with
  | nil => exact ensures_pure hs.between
  | cons ci cis ih =>
      rw [finishBatch]
      refine (ensures_finishStat hs).bind ?_
      intro st s₁ hs₁
      refine (ih hs₁).bind ?_
      intro rest s₂ hs₂
      split
      · exact ensures_pure hs₂
      · exact ensures_pure hs₂

theorem ensures_sendEach (henv : Dependable env) (hworld : Uninterrupted world)
    (hs : Between v2 batches s) (listOnly : Bool) (cis : List CopyInfo) :
    Ensures (sendEach (pushing env world) listOnly cis) s (fun _ => Between v2 batches)
      (Logged v2 batches) := by
  induction cis generalizing s with
  | nil => exact ensures_pure hs
  | cons ci cis ih =>
      rw [sendEach]
      split
      · exact ih hs
      · refine (ensures_syncSend henv hworld hs _ _ _ _ _).bind ?_
        intro ok s₁ hs₁
        split
        · exact ih hs₁
        · exact ensures_pure hs₁

/-- No file of a source is too long a path for a request. -/
def PathsFit (world : World) (depth : Nat) (lpath rpath : Bytes) : Prop :=
  ∀ s cis s', execute (localBuildList (localMachine world) depth (withSeparator lpath)
    (withSeparator rpath)) s = (.ok (some cis), s') → ∀ ci ∈ cis, (cString ci.rpath).length ≤ maxPathLength

theorem ensures_copyLocalDirRemote (henv : Dependable env) (hworld : Uninterrupted world)
    (hs : Between v2 batches s) {depth : Nat} {lpath rpath : Bytes} {checkTimestamps : Bool}
    (hcheck : checkTimestamps = true → batches = true ∧ PathsFit world depth lpath rpath)
    (listOnly : Bool) :
    Ensures (copyLocalDirRemote (pushing env world) depth lpath rpath checkTimestamps listOnly) s
      (fun _ => Between v2 batches) (Logged v2 batches) := by
  rw [copyLocalDirRemote]
  refine (((keeps_localMachine world).localBuildList depth hs _ _).and_execute).bind ?_
  rintro list s₁ ⟨hs₁, hrun⟩
  cases list with
  | none => exact ensures_pure hs₁
  | some cis =>
      cases checkTimestamps with
      | false => exact ensures_sendEach henv hworld hs₁ listOnly cis
      | true =>
          obtain ⟨rfl, hfit⟩ := hcheck rfl
          refine (ensures_lstatBatch_start (hfit s cis s₁ hrun) hs₁).bind ?_
          intro ok s₂ hs₂
          cases ok with
          | false => exact ensures_pure hs₂
          | true =>
              have hfinish : Ensures (finishBatch (pushing env world) cis) s₂ (fun _ => Between v2 true)
                  (Logged v2 true) := by
                rcases hs₂ with hpending | ⟨rfl, hbetween⟩
                · exact ensures_finishBatch hpending
                · exact ensures_pure hbetween
              refine hfinish.bind ?_
              intro list s₃ hs₃
              exact ensures_sendEach henv hworld hs₃ listOnly list

theorem ensures_pushEach (henv : Dependable env) (hworld : Uninterrupted world) {depth : Nat}
    {dst : Bytes} (dstExists dstIsdir : Bool) {sync : Bool} {srcs : List Bytes}
    (hsync : sync = true → batches = true ∧ ∀ src ∈ srcs,
      PathsFit world depth src dst ∧ PathsFit world depth src (inDirectory world dst src))
    (hs : Between v2 batches s) :
    Ensures (pushEach env world depth dst dstExists dstIsdir sync srcs) s
      (fun _ => Between v2 batches) (Logged v2 batches) := by
  induction srcs generalizing s with
  | nil => exact ensures_pure hs
  | cons src srcs ih =>
      have hnext := fun {s} => @ih s fun h =>
        ⟨(hsync h).1, fun other hother => (hsync h).2 other (by simp [hother])⟩
      have hrest : ∀ (ok : Bool) s₁, Between v2 batches s₁ →
          Ensures (do
            let rest ← pushEach env world depth dst dstExists dstIsdir sync srcs
            pure (ok && rest)) s₁ (fun _ => Between v2 batches) (Logged v2 batches) := by
        intro ok s₁ hs₁
        refine (hnext hs₁).bind ?_
        intro rest s₂ hs₂
        exact ensures_pure hs₂
      rw [pushEach]
      refine ensures_bind_of_ok (execute_ask _ s) ?_
      split
      · exact (hnext (hs.calls _)).bind fun _ _ hs₁ => ensures_pure hs₁
      · split
        · split
          · exact ensures_pure (hs.calls _)
          · refine (ensures_copyLocalDirRemote henv hworld (hs.calls _) ?_ false).bind hrest
            intro h
            obtain ⟨hbatches, hfit⟩ := hsync h
            refine ⟨hbatches, ?_⟩
            split
            · exact (hfit src (by simp)).2
            · exact (hfit src (by simp)).1
        · split
          · exact (ensures_syncSend henv hworld (hs.calls _) _ _ _ _ _).bind hrest
          · exact hnext (hs.calls _)

end Push

section Pull

theorem ensures_checkLinks (hs : Between v2 batches s) (cis : List CopyInfo) :
    Ensures (checkLinks (pulling env world).lister cis) s (fun _ => Between v2 batches)
      (Logged v2 batches) := by
  induction cis generalizing s with
  | nil => exact ensures_pure hs
  | cons ci cis ih =>
      rw [checkLinks]
      refine (ensures_syncStatFallback hs ci.rpath).bind ?_
      intro st s₁ hs₁
      refine (ih hs₁).bind ?_
      intro rest s₂ hs₂
      split
      · exact ensures_pure hs₂
      · split
        · exact ensures_pure hs₂
        · exact ensures_pure hs₂

theorem ensures_buildRemoteDirs {build : Bytes → Bytes → Client (Option (List CopyInfo))}
    (hbuild : ∀ {s}, Between v2 batches s → ∀ rpath lpath,
      Ensures (build rpath lpath) s (fun _ => Between v2 batches) (Logged v2 batches))
    (hs : Between v2 batches s) (dirs : List CopyInfo) :
    Ensures (buildRemoteDirs build dirs) s (fun _ => Between v2 batches)
      (Logged v2 batches) := by
  induction dirs generalizing s with
  | nil => exact ensures_pure hs
  | cons ci dirs ih =>
      rw [buildRemoteDirs]
      refine (hbuild hs ci.rpath ci.lpath).bind ?_
      intro found s₁ hs₁
      cases found with
      | none => exact ensures_pure hs₁
      | some found =>
          refine (ih hs₁).bind ?_
          intro rest s₂ hs₂
          exact ensures_pure hs₂

theorem ensures_remoteBuildList (henv : Dependable env) (depth : Nat)
    (hs : Between v2 batches s) (rpath lpath : Bytes) :
    Ensures (remoteBuildList (pulling env world).lister depth rpath lpath) s
      (fun _ => Between v2 batches) (Logged v2 batches) := by
  induction depth generalizing s rpath lpath with
  | zero => exact ensures_throw hs.1
  | succ depth ih =>
      rw [remoteBuildList]
      refine (ensures_syncLs henv hs rpath).bind ?_
      intro entries s₁ hs₁
      cases entries with
      | none => exact ensures_pure hs₁
      | some entries =>
          refine (ensures_checkLinks hs₁ _).bind ?_
          intro checked s₂ hs₂
          refine (ensures_buildRemoteDirs (fun hs => ih hs) hs₂ _).bind ?_
          intro rest s₃ hs₃
          exact ensures_pure hs₃

theorem ensures_pullFile (henv : Dependable env) (hworld : Uninterrupted world)
    (hs : Between v2 batches s) (rpath lpath : Bytes) (copyAttrs : Bool) :
    Ensures ((pulling env world).pullFile rpath lpath copyAttrs) s (fun _ => Between v2 batches)
      (Logged v2 batches) := by
  rw [SyncPull.pullFile]
  refine (ensures_syncRecv henv hworld hs rpath lpath).bind ?_
  intro ok s₁ hs₁
  split
  · rw [SyncPull.copyAttributes]
    split
    · exact ensures_ask (hs₁.calls _)
    · exact ensures_pure hs₁
  · exact ensures_pure hs₁

theorem ensures_pullEntry (henv : Dependable env) (hworld : Uninterrupted world)
    (hs : Between v2 batches s) (copyAttrs : Bool) (ci : CopyInfo) :
    Ensures ((pulling env world).pullEntry copyAttrs ci) s (fun _ => Between v2 batches)
      (Logged v2 batches) := by
  rw [SyncPull.pullEntry]
  split
  · exact ensures_pure hs
  · split
    · exact ensures_ask (hs.calls _)
    · exact ensures_pullFile henv hworld hs ci.rpath ci.lpath copyAttrs

theorem ensures_pullEntries (henv : Dependable env) (hworld : Uninterrupted world)
    (hs : Between v2 batches s) (copyAttrs : Bool) (cis : List CopyInfo) :
    Ensures ((pulling env world).pullEntries copyAttrs cis) s (fun _ => Between v2 batches)
      (Logged v2 batches) := by
  induction cis generalizing s with
  | nil => exact ensures_pure hs
  | cons ci cis ih =>
      rw [SyncPull.pullEntries]
      refine (ensures_pullEntry henv hworld hs copyAttrs ci).bind ?_
      intro ok s₁ hs₁
      split
      · exact ih hs₁
      · exact ensures_pure hs₁

theorem ensures_copyRemoteDirLocal (henv : Dependable env) (hworld : Uninterrupted world)
    (hs : Between v2 batches s) (depth : Nat) (rpath lpath : Bytes) (copyAttrs : Bool) :
    Ensures ((pulling env world).copyRemoteDirLocal depth rpath lpath copyAttrs) s
      (fun _ => Between v2 batches) (Logged v2 batches) := by
  rw [SyncPull.copyRemoteDirLocal]
  refine (ensures_remoteBuildList henv depth hs _ _).bind ?_
  intro list s₁ hs₁
  cases list with
  | none => exact ensures_pure hs₁
  | some cis => exact ensures_pullEntries henv hworld hs₁ copyAttrs cis

theorem ensures_pullEach (henv : Dependable env) (hworld : Uninterrupted world)
    (hs : Between v2 batches s) (depth : Nat) (dst : Bytes) (dstExists dstIsdir copyAttrs : Bool)
    (srcs : List Bytes) :
    Ensures (pullEach env world depth dst dstExists dstIsdir copyAttrs srcs) s
      (fun _ => Between v2 batches) (Logged v2 batches) := by
  induction srcs generalizing s with
  | nil => exact ensures_pure hs
  | cons src srcs ih =>
      have hrest : ∀ (ok : Bool) s₁, Between v2 batches s₁ →
          Ensures (do
            let rest ← pullEach env world depth dst dstExists dstIsdir copyAttrs srcs
            pure (ok && rest)) s₁ (fun _ => Between v2 batches) (Logged v2 batches) := by
        intro ok s₁ hs₁
        refine (ih hs₁).bind ?_
        intro rest s₂ hs₂
        exact ensures_pure hs₂
      rw [pullEach]
      refine (ensures_syncStatFallback hs src).bind ?_
      intro st s₁ hs₁
      split
      · exact (ih hs₁).bind fun _ _ hs₂ => ensures_pure hs₂
      · split
        · split
          · exact ensures_pure hs₁
          · exact (ensures_copyRemoteDirLocal henv hworld hs₁ depth src _ copyAttrs).bind hrest
        · split
          · exact (ensures_pullFile henv hworld hs₁ src _ copyAttrs).bind hrest
          · exact ih hs₁

end Pull

theorem logged_closing {body : Client Bool}
    (h : Ensures body s (fun _ => Between v2 batches) (Logged v2 batches)) :
    Logged v2 batches (execute (closing env world body) s).2 := by
  have hall : Ensures (closing env world body) s (fun _ => Logged v2 batches)
      (Logged v2 batches) := by
    rw [closing]
    refine h.bind ?_
    intro result s₁ hs₁
    refine (ensures_sendRequest hs₁ idQuit []).bind ?_
    intro ok s₂ hs₂
    cases ok with
    | false => exact ensures_pure hs₂.1
    | true => exact ensures_pure hs₂.1
  unfold Ensures at hall
  revert hall
  cases execute (closing env world body) s with
  | mk result s' =>
      cases result with
      | ok a => exact id
      | error e => exact id

/-- A new `SyncConnection`. -/
def newSession (files : Files) (haveStatV2 : Bool) : Session where
  service := ⟨initialService files, []⟩
  written := []
  haveStatV2 := haveStatV2
  expectDone := false
  broken := false
  calls := 0
  requests := []

theorem between_newSession (files : Files) (v2 batches : Bool) :
    Between v2 batches (newSession files v2) :=
  ⟨⟨rfl, nofun, nofun⟩, .inr ⟨rfl, rfl, .inl rfl⟩⟩

theorem logged_doSyncPush (henv : Dependable env) (hworld : Uninterrupted world) {depth : Nat}
    {srcs : List Bytes} {dst : Bytes} {sync : Bool}
    (hsync : sync = true → batches = true ∧ ∀ src ∈ srcs,
      PathsFit world depth src dst ∧ PathsFit world depth src (inDirectory world dst src))
    (files : Files) :
    Logged v2 batches
      (execute (doSyncPush env world depth srcs dst sync) (newSession files v2)).2 := by
  have hsources : ∀ dstExists dstIsdir s₁, Between v2 batches s₁ →
      Ensures (pushSources env world depth srcs dst dstExists dstIsdir sync) s₁
        (fun _ => Between v2 batches) (Logged v2 batches) := by
    intro dstExists dstIsdir s₁ hs₁
    rw [pushSources]
    split
    · exact ensures_pushEach henv hworld dstExists dstIsdir hsync hs₁
    · exact ensures_pure hs₁
  apply logged_closing
  refine (ensures_syncStatFallback (between_newSession files v2 batches) dst).bind ?_
  intro st s₁ hs₁
  split
  · exact hsources _ _ s₁ hs₁
  · exact hsources _ _ s₁ hs₁
  · exact hsources _ _ s₁ hs₁
  · exact ensures_pure hs₁

theorem logged_doSyncPull (henv : Dependable env) (hworld : Uninterrupted world) (depth : Nat)
    (srcs : List Bytes) (dst : Bytes) (copyAttrs : Bool) (files : Files) :
    Logged v2 batches
      (execute (doSyncPull env world depth srcs dst copyAttrs) (newSession files v2)).2 := by
  have hnew := between_newSession files v2 batches
  have hsources : ∀ dstExists dstIsdir s₁, Between v2 batches s₁ →
      Ensures (pullSources env world depth srcs dst dstExists dstIsdir copyAttrs) s₁
        (fun _ => Between v2 batches) (Logged v2 batches) := by
    intro dstExists dstIsdir s₁ hs₁
    rw [pullSources]
    split
    · exact ensures_pullEach henv hworld hs₁ depth dst dstExists dstIsdir copyAttrs srcs
    · exact ensures_pure hs₁
  apply logged_closing
  refine ensures_bind_of_ok (execute_ask _ _) ?_
  split
  · exact hsources _ _ _ (hnew.calls _)
  · split
    · refine ensures_bind_of_ok (execute_ask _ _) ?_
      split
      · exact hsources _ _ _ (hnew.calls _)
      · exact ensures_pure (hnew.calls _)
    · exact ensures_pure (hnew.calls _)
  · exact ensures_pure (hnew.calls _)

/-- Whole sessions keep in step: strictly, but for a batch of `LSTAT` requests
of `adb push --sync`, which only leaves answers of the same batch unread. -/
theorem sessions_inStep (henv : Dependable env) (hworld : Uninterrupted world) (depth : Nat)
    (srcs : List Bytes) (dst : Bytes) (files : Files) (v2 : Bool) :
    ((∀ src ∈ srcs,
      PathsFit world depth src dst ∧ PathsFit world depth src (inDirectory world dst src)) →
      ∀ r ∈ (execute (doSyncPush env world depth srcs dst true) (newSession files v2)).2.requests,
      InStep v2 r) ∧
    (∀ r ∈ (execute (doSyncPush env world depth srcs dst false) (newSession files v2)).2.requests,
      Lockstep r) ∧
    (∀ copyAttrs, ∀ r ∈ (execute (doSyncPull env world depth srcs dst copyAttrs)
      (newSession files v2)).2.requests, Lockstep r) := by
  refine ⟨?_, ?_, ?_⟩
  · intro hfit
    have hlogged : Logged v2 true (execute (doSyncPush env world depth srcs dst true)
        (newSession files v2)).2 :=
      logged_doSyncPush henv hworld (fun _ => ⟨rfl, hfit⟩) files
    exact hlogged.inStep
  · intro r hr
    have hlogged : Logged v2 false (execute (doSyncPush env world depth srcs dst false)
        (newSession files v2)).2 :=
      logged_doSyncPush henv hworld (fun h => Bool.noConfusion h) files
    exact (hlogged.inStep r hr).lockstep (hlogged.single rfl r hr)
  · intro copyAttrs r hr
    have hlogged : Logged v2 false (execute (doSyncPull env world depth srcs dst copyAttrs)
        (newSession files v2)).2 :=
      logged_doSyncPull henv hworld depth srcs dst copyAttrs files
    exact (hlogged.inStep r hr).lockstep (hlogged.single rfl r hr)

/-- A device with a directory at the first command and a file afterwards. -/
def deviceAnswers (n : Nat) : Answers where
  strerror := []
  stat := .ok ⟨0, 0, if n = 0 then 16877 else 33188, 0, 0, 0, 3, 0, 5, 0⟩
  entries := []
  fileOpened := true
  reads := []
  unlinked := true
  fsConfig := ⟨0, 0, 420, 0⟩
  created := none
  madeDirs := true
  createdAgain := none
  openedExisting := none
  chowned := true
  chmoded := true
  chunkWritten _ := true
  cappedOk := true
  timed := true
  linked := none
  linkedAgain := none

/-- A machine on which every path leads to `info` and every directory has two
files of three bytes. -/
def hostWorld (info : FileInfo) (largeOpened : Bool) : World where
  stat _ _ := .ok info
  lstat _ _ := some ⟨33188, 3, 5⟩
  readdir _ _ := some [ascii "a", ascii "b"]
  readFileToString _ _ := some (ascii "abc")
  largeStat _ _ := .ok info
  largeOpened _ := largeOpened
  largeReads _ := []
  polled _ := .quiet
  readlink _ _ := none
  created _ := true
  written _ := true
  madeDirs _ := true
  setTimeAndMode _ := true
  sent _ := true
  errnoFromWire _ := .enoent
  basename := id
  dirname := id

theorem dependable_deviceAnswers : Dependable deviceAnswers :=
  ⟨fun _ => Nat.zero_lt_succ _, nofun, fun _ => rfl⟩

theorem uninterrupted_hostWorld (info : FileInfo) : Uninterrupted (hostWorld info true) where
  largeStat _ _ := ⟨info, rfl⟩
  largeOpened _ := rfl
  largeReads := nofun
  created _ := rfl
  written _ := rfl
  readFileToString n path data hdata := by
    cases hdata
    decide

theorem localBuildList_hostWorld (info : FileInfo) (lpath rpath : Bytes) (s : Session) :
    execute (localBuildList (localMachine (hostWorld info true)) 1 lpath rpath) s =
      (.ok (some (([ascii "a", ascii "b"]).map fun name =>
        { copyInfo lpath rpath name 33188 with skip := false, time := 5, size := 3 })),
        { s with calls := s.calls + 3 }) := by
  rfl

/-- The session that pushes two files with `--sync`. -/
theorem sessions_inStep_twoFiles :
    (execute (doSyncPush deviceAnswers (hostWorld ⟨16877, 0, 0⟩ true) 1 [ascii "d"]
      (ascii "/t") true) (newSession (fun _ => none) true)).2.requests.length = 4 ∧
    ∀ r ∈ (execute (doSyncPush deviceAnswers (hostWorld ⟨16877, 0, 0⟩ true) 1 [ascii "d"]
      (ascii "/t") true) (newSession (fun _ => none) true)).2.requests, InStep true r := by
  refine ⟨by decide +kernel, ?_⟩
  apply (sessions_inStep dependable_deviceAnswers (uninterrupted_hostWorld ⟨16877, 0, 0⟩) 1
    [ascii "d"] (ascii "/t") (fun _ => none) true).1
  intro src hsrc
  obtain rfl := List.mem_singleton.mp hsrc
  constructor
  · intro s cis s' hrun
    rw [localBuildList_hostWorld] at hrun
    cases hrun
    decide
  · intro s cis s' hrun
    rw [localBuildList_hostWorld] at hrun
    cases hrun
    decide

/-- A batch is written ahead of its answers; and when a large file cannot be
opened, the service still waits for its data when the session is quit. -/
theorem push_not_lockstep :
    (¬ ∀ r ∈ (execute (doSyncPush deviceAnswers (hostWorld ⟨16877, 0, 0⟩ true) 1 [ascii "d"]
      (ascii "/t") true) (newSession (fun _ => none) true)).2.requests, Lockstep r) ∧
    (¬ ∀ r ∈ (execute (doSyncPush deviceAnswers (hostWorld ⟨33188, 65536, 0⟩ false) 1 [ascii "f"]
      (ascii "/t") false) (newSession (fun _ => none) true)).2.requests, Lockstep r) := by
  constructor
  · decide +kernel
  · decide +kernel

end Adb.SyncSessions
