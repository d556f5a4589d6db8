import Adb.ExactIo
import Adb.PushEndToEnd
import Adb.SyncServiceRuns

/-!
A pull, from the reads of the remote file to the local file: `do_recv` on the
device, a stream that may break off or go wrong anywhere, and `sync_recv` on the
host, which reads it in whatever pieces it comes.
-/

namespace Adb.PullEndToEnd

open Adb.DescriptorIo
open Adb.ExactIo
open Adb.FragmentedStreams
open Adb.PushEndToEnd
open Adb.StoppingPrograms
open Adb.SyncClient (Socket)
open Adb.SyncMessages
open Adb.SyncService
open Adb.SyncServiceRuns
open Adb.SyncTransfers (SyncRecv)
open Adb.WirePackets

/-- How the calls of `sync_recv` on the host end.  `writeFails` gives, for the
n-th chunk, how many bytes `WriteFdExactly` has written when it fails. -/
structure LocalAnswers where
  requestSent : Bool
  oldUnlinked : Bool
  created : Bool
  writeFails : Nat → Option Nat

/-- The host in `sync_recv`: the pieces of the stream that it has not read, the
chunks that it has written, whether it has created the local file, and what is
at the local path. -/
structure Fetch where
  pieces : List Bytes
  chunks : Nat
  created : Bool
  file : Option Bytes
  deriving DecidableEq, Repr

abbrev Host := Program Fetch

section Host

variable (host : LocalAnswers)

/-- `ReadFdExactly` on the socket. -/
def readStream (n : Nat) : Host (Option Bytes) := do
  let s ← get
  match readPieces n s.pieces with
  | none => pure none
  | some (bytes, rest) =>
      modify fun s => { s with pieces := rest }
      pure (some bytes)

/-- `adb_unlink`, which may fail on a file that was there before. -/
def unlink : Host PUnit :=
  modify fun s => if s.created || host.oldUnlinked then { s with file := none } else s

def creat : Host Bool := do
  if host.created then
    modify fun s => { s with created := true, file := some [] }
    pure true
  else pure false

/-- `WriteFdExactly` on the local file. -/
def writeChunk (data : Bytes) : Host Bool := do
  let s ← get
  match host.writeFails s.chunks with
  | some n =>
      modify fun s => { s with file := s.file.map (· ++ data.take n) }
      pure false
  | none =>
      modify fun s => { s with chunks := s.chunks + 1, file := s.file.map (· ++ data) }
      pure true

def rounds : Host Nat := do
  let s ← get
  pure (s.pieces.flatten.length + 1)

abbrev receiver : SyncRecv Host where
  readFdExactly := readStream
  writeRequest _ _ _ := pure host.requestSent
  unlink _ := unlink host
  creat _ := creat host
  write := writeChunk host
  rounds := rounds
  outOfRounds := throw ()

/-- `sync_recv`; `old` is what is at the local path before. -/
def syncRecvFile (rpath lpath : Bytes) (old : Option Bytes) (pieces : List Bytes) :
    Except Unit Bool × Fetch :=
  execute ((receiver host).syncRecv rpath lpath) ⟨pieces, 0, false, old⟩

end Host

/-- The results of `adb_read` on a file with this content: pieces of it, a zero
when all of it has been read, or an error at any time. -/
inductive ReadsRemote : Bytes → List ReadResult → Prop
  | finished : ReadsRemote [] []
  | endOfFile (reads : List ReadResult) : ReadsRemote [] (.data [] :: reads)
  | piece {piece content : Bytes} {reads : List ReadResult} (hpiece : piece ≠ [])
      (hlength : piece.length ≤ syncDataMax) (hreads : ReadsRemote content reads) :
      ReadsRemote (piece ++ content) (.data piece :: reads)
  | error (content : Bytes) (reads : List ReadResult) : ReadsRemote content (.error :: reads)

/-- The messages of `do_recv` for the results of its reads. -/
def readMessages (answers : Answers) : List ReadResult → List Bytes
  | [] => [header idDone 0]
  | .data [] :: _ => [header idDone 0]
  | .data (b :: bs) :: reads =>
      frame idData ((b :: bs).take syncDataMax) :: readMessages answers reads
  | _ :: _ => [frame idFail (ascii "read failed: " ++ answers.strerror)]

/-- All messages of `do_recv`. -/
def sentMessages (answers : Answers) : List Bytes :=
  if answers.fileOpened then readMessages answers answers.reads
  else [frame idFail (ascii "open failed" ++ ascii ": " ++ answers.strerror)]

/-- A header that `sync_recv` does not take for data or for the end. -/
def BadHeader (msg : Bytes) : Prop :=
  msg.length = headerSize ∧
    ((headerId msg ≠ idDone ∧ headerId msg ≠ idData) ∨
      (headerId msg = idData ∧ headerLength msg > syncDataMax))

/-- The streams that can arrive when these messages are sent: all of them, or
up to some byte of one of them, or up to a message where something else follows
that starts with a bad header. -/
inductive Arrives : List Bytes → Bytes → Prop
  | finished : Arrives [] []
  | cut {message : Bytes} {messages : List Bytes} {n : Nat} (h : n < message.length) :
      Arrives (message :: messages) (message.take n)
  | garbled (messages : List Bytes) {msg : Bytes} (h : BadHeader msg) (rest : Bytes) :
      Arrives messages (msg ++ rest)
  | whole {messages : List Bytes} {stream : Bytes} (message : Bytes)
      (h : Arrives messages stream) : Arrives (message :: messages) (message ++ stream)

theorem doRecv_out (answers : Answers) (d : Service) :
    (doRecv answers d).out = d.out ++ (sentMessages answers).flatten := by
  have hloop : ∀ reads, (readMessages answers reads).flatten =
      (recvLoop answers reads).1 ++
        if (recvLoop answers reads).2 then header idDone 0 else [] := by
    intro reads
    induction reads with
    | nil => simp [readMessages, recvLoop]
    | cons result reads ih =>
        cases result with
        | data bytes =>
            cases bytes with
            | nil => simp [readMessages, recvLoop]
            | cons b bs =>
                rw [readMessages, List.flatten_cons, ih, recvLoop, List.append_assoc]
        | eagain => simp [readMessages, recvLoop]
        | error => simp [readMessages, recvLoop]
  rw [doRecv, sentMessages]
  cases answers.fileOpened with
  | false => simp [sendSyncFailErrno, sendSyncFail, Service.write, Service.finish]
  | true =>
      simp only [Bool.not_true, Bool.false_eq_true, if_false, if_true]
      rw [hloop]
      split
      · simp [Service.write, Service.again]
      · simp [Service.write, Service.finish]

section

variable {host : LocalAnswers} {lpath : Bytes} {fuel : Nat} {s s' : Fetch}
  {content stream : Bytes}

/-! ## What the loop leaves behind -/

theorem execute_readStream_none {n : Nat} (h : readPieces n s.pieces = none) :
    execute (readStream n) s = (.ok none, s) := by
  rw [readStream, execute_bind_of_ok (execute_get s), h]
  rfl

theorem execute_readStream_some {n : Nat} {bytes : Bytes} {rest : List Bytes}
    (h : readPieces n s.pieces = some (bytes, rest)) :
    execute (readStream n) s = (.ok (some bytes), { s with pieces := rest }) := by
  rw [readStream, execute_bind_of_ok (execute_get s), h]
  rfl

theorem execute_unlink (host : LocalAnswers) (hs : s.created = true) :
    execute (unlink host) s = (.ok ⟨⟩, { s with file := none }) := by
  rw [unlink, execute_modify, hs, Bool.true_or, if_pos rfl]

/-- The local file exists, and is gone when the result is false. -/
def Tidy (ok : Bool) (s : Fetch) : Prop := s.created = true ∧ (ok = false → s.file = none)

theorem ensures_readStream (n : Nat) {stop : Fetch → Prop} :
    Ensures (readStream n) s (fun bytes s' => s'.created = s.created ∧ s'.file = s.file ∧
      s'.pieces.flatten.length ≤ s.pieces.flatten.length ∧
      ∀ msg ∈ bytes, s'.pieces.flatten.length + n = s.pieces.flatten.length) stop := by
  cases hread : readPieces n s.pieces with
  | none =>
      exact ensures_of_ok (execute_readStream_none hread) ⟨rfl, rfl, Nat.le_refl _, by simp⟩
  | some result =>
      obtain ⟨bytes, rest⟩ := result
      obtain ⟨hlength, hflat⟩ := readPieces_eq_some hread
      have htotal := congrArg List.length hflat
      rw [List.length_append, hlength] at htotal
      refine ensures_of_ok (execute_readStream_some hread) ⟨rfl, rfl, ?_, ?_⟩
      · simp only
        omega
      · intro _ _
        simp only
        omega

theorem ensures_unlink (hs : s.created = true) {stop : Fetch → Prop} :
    Ensures (do unlink host; pure false) s Tidy stop := by
  rw [Ensures, execute_bind_of_ok (execute_unlink host hs)]
  exact ⟨hs, fun _ => rfl⟩

/-- Whatever comes, the loop returns, and leaves no file when it fails. -/
theorem ensures_recvMessages (host : LocalAnswers) (lpath : Bytes) (hs : s.created = true)
    (hfuel : s.pieces.flatten.length < fuel) :
    Ensures ((receiver host).recvMessages lpath fuel) s Tidy (fun _ => False) := by
  induction fuel generalizing s with
  | zero => exact absurd hfuel (Nat.not_lt_zero _)
  | succ fuel ih =>
      rw [SyncRecv.recvMessages]
      refine (ensures_readStream headerSize).bind ?_
      rintro msg s₁ ⟨hcreated₁, -, -, hlength₁⟩
      have hs₁ := hcreated₁.trans hs
      cases msg with
      | none => exact ensures_unlink hs₁
      | some msg =>
          have hshorter := hlength₁ msg rfl
          simp only [headerSize] at hshorter
          simp only
          split
          · exact ensures_pure ⟨hs₁, fun h => by cases h⟩
          split
          · refine ensures_bind_of_ok (execute_unlink host hs₁) ?_
            have hreport : Ensures ((receiver host).reportCopyFailure msg)
                { s₁ with file := none } (fun _ s' => s'.created = true ∧ s'.file = none)
                (fun _ => False) := by
              refine (ensures_readStream _).bind ?_
              rintro _ s₂ ⟨hcreated₂, hfile₂, -, -⟩
              exact ensures_pure ⟨hcreated₂.trans hs₁, hfile₂⟩
            refine hreport.bind ?_
            rintro _ s₂ ⟨hcreated₂, hfile₂⟩
            exact ensures_pure ⟨hcreated₂, fun _ => hfile₂⟩
          split
          · exact ensures_unlink hs₁
          refine (ensures_readStream _).bind ?_
          rintro data s₂ ⟨hcreated₂, -, hle₂, -⟩
          have hs₂ := hcreated₂.trans hs₁
          cases data with
          | none => exact ensures_unlink hs₂
          | some data =>
              have hwrite : Ensures (writeChunk host data) s₂ (fun _ s' =>
                  s'.created = true ∧ s'.pieces = s₂.pieces) (fun _ => False) := by
                rw [writeChunk]
                refine ensures_bind_of_ok (execute_get s₂) ?_
                cases host.writeFails s₂.chunks with
                | none => exact ⟨hs₂, rfl⟩
                | some n => exact ⟨hs₂, rfl⟩
              refine hwrite.bind ?_
              rintro written s₃ ⟨hs₃, hpieces₃⟩
              cases written with
              | false => exact ensures_unlink hs₃
              | true =>
                  refine ih hs₃ ?_
                  rw [hpieces₃]
                  omega

/-! ## What the loop makes of the messages -/

/-- The host has this content in the local file, and this stream to read. -/
structure Holds (s : Fetch) (content stream : Bytes) : Prop where
  file : s.file = some content
  pieces : Fragments s.pieces stream

/-- The loop does not end with true. -/
def Fails (host : LocalAnswers) (lpath : Bytes) (fuel : Nat) (s : Fetch) : Prop :=
  ∀ s', execute ((receiver host).recvMessages lpath fuel) s ≠ (.ok true, s')

theorem Holds.read {bytes rest : Bytes} (h : Holds s content (bytes ++ rest)) :
    ∃ s', execute (readStream bytes.length) s = (.ok (some bytes), s') ∧
      Holds s' content rest ∧ s'.chunks = s.chunks := by
  obtain ⟨pieces', hread, hpieces'⟩ := yields_readFdExactly bytes s.pieces rest h.pieces
  exact ⟨_, execute_readStream_some hread, ⟨h.file, hpieces'⟩, rfl⟩

theorem Holds.read_short (h : Holds s content stream) {n : Nat} (hn : stream.length < n) :
    execute (readStream n) s = (.ok none, s) := by
  apply execute_readStream_none
  apply readPieces_of_lt
  rwa [h.pieces.2]

theorem unlink_fails (host : LocalAnswers) (s s' : Fetch) :
    execute (do unlink host; pure false) s ≠ (.ok true, s') := by
  rw [unlink, execute_bind_of_ok (execute_modify _ s), execute_pure]
  simp

theorem recvMessages_short (h : Holds s content stream) (hstream : stream.length < headerSize) :
    Fails host lpath fuel s := by
  intro s'
  cases fuel with
  | zero => nofun
  | succ fuel =>
      rw [SyncRecv.recvMessages, execute_bind_of_ok (h.read_short hstream)]
      exact unlink_fails host s s'

theorem recvMessages_done {rest : Bytes} (h : Holds s content (header idDone 0 ++ rest))
    (host : LocalAnswers) (lpath : Bytes) (fuel : Nat) :
    ∃ s', execute ((receiver host).recvMessages lpath (fuel + 1)) s = (.ok true, s') ∧
      s'.file = some content := by
  obtain ⟨s', hread, hs', -⟩ := h.read
  rw [length_header] at hread
  refine ⟨s', ?_, hs'.file⟩
  rw [SyncRecv.recvMessages, execute_bind_of_ok hread]
  simp only [headerId_header' (show idDone < 2 ^ 32 by decide), if_true]
  rfl

theorem recvMessages_bad {msg rest : Bytes} (hmsg : BadHeader msg)
    (h : Holds s content (msg ++ rest)) : Fails host lpath fuel s := by
  intro s'
  cases fuel with
  | zero => nofun
  | succ fuel =>
      obtain ⟨s₁, hread, -, -⟩ := h.read
      rw [hmsg.1] at hread
      rw [SyncRecv.recvMessages, execute_bind_of_ok hread]
      rcases hmsg.2 with ⟨hdone, hdata⟩ | ⟨hdata, hsize⟩
      · simp only [hdone, hdata, ne_eq, not_false_eq_true, if_true, if_false]
        have hreport : Ensures ((receiver host).reportCopyFailure msg >>= fun _ => pure false)
            (if s₁.created || host.oldUnlinked then { s₁ with file := none } else s₁)
            (fun ok _ => ok = false) (fun _ => False) := by
          rw [Socket.reportCopyFailure, bind_assoc]
          exact (ensures_readStream _).bind fun _ _ _ => ensures_pure rfl
        rw [unlink, execute_bind_of_ok (execute_modify _ s₁)]
        intro hrun
        rw [Ensures, hrun] at hreport
        cases hreport
      · simp only [hdata, idDone_ne_idData.symm, ne_eq, not_true_eq_false, if_false, hsize, if_true]
        exact unlink_fails host s₁ s'

/-- The loop on a `DATA` message: what comes after the header is read and written. -/
theorem recvMessages_header {data rest : Bytes} (hdata : data.length ≤ syncDataMax)
    (h : Holds s content (header idData data.length ++ rest)) (host : LocalAnswers)
    (lpath : Bytes) (fuel : Nat) :
    ∃ s₁, Holds s₁ content rest ∧ s₁.chunks = s.chunks ∧
      execute ((receiver host).recvMessages lpath (fuel + 1)) s =
        execute ((receiver host).recvData lpath data.length
          ((receiver host).recvMessages lpath fuel)) s₁ := by
  have hlength : headerLength (header idData data.length) = data.length := by
    apply headerLength_header
    simp only [syncDataMax] at hdata
    omega
  obtain ⟨s₁, hread, hs₁, hchunks⟩ := h.read
  rw [length_header] at hread
  refine ⟨s₁, hs₁, hchunks, ?_⟩
  rw [SyncRecv.recvMessages, execute_bind_of_ok hread]
  simp only [headerId_header' (show idData < 2 ^ 32 by decide), idDone_ne_idData.symm, hlength,
    ne_eq, not_true_eq_false, if_false, Nat.not_lt.mpr hdata]

theorem recvMessages_data {data rest : Bytes} (hdata : data.length ≤ syncDataMax)
    (h : Holds s content (frame idData data ++ rest)) (hwrite : host.writeFails s.chunks = none)
    (lpath : Bytes) (fuel : Nat) :
    ∃ s', Holds s' (content ++ data) rest ∧
      execute ((receiver host).recvMessages lpath (fuel + 1)) s =
        execute ((receiver host).recvMessages lpath fuel) s' := by
  rw [frame, List.append_assoc] at h
  obtain ⟨s₁, hs₁, hchunks₁, hrun⟩ := recvMessages_header hdata h host lpath fuel
  obtain ⟨s₂, hread, hs₂, hchunks₂⟩ := hs₁.read
  have hwrite₂ : host.writeFails s₂.chunks = none := by rw [hchunks₂, hchunks₁, hwrite]
  have hwritten : execute (writeChunk host data) s₂ =
      (.ok true, { s₂ with chunks := s₂.chunks + 1, file := s₂.file.map (· ++ data) }) := by
    rw [writeChunk, execute_bind_of_ok (execute_get s₂), hwrite₂]
    rfl
  refine ⟨{ s₂ with chunks := s₂.chunks + 1, file := s₂.file.map (· ++ data) },
    ⟨by simp [hs₂.file], hs₂.pieces⟩, ?_⟩
  rw [hrun, SyncRecv.recvData, execute_bind_of_ok hread]
  simp only
  rw [execute_bind_of_ok hwritten, if_pos rfl]

theorem recvMessages_full {data rest : Bytes} (hdata : data.length ≤ syncDataMax)
    (h : Holds s content (frame idData data ++ rest)) {n : Nat}
    (hwrite : host.writeFails s.chunks = some n) : Fails host lpath fuel s := by
  intro s'
  cases fuel with
  | zero => nofun
  | succ fuel =>
      rw [frame, List.append_assoc] at h
      obtain ⟨s₁, hs₁, hchunks₁, hrun⟩ := recvMessages_header hdata h host lpath fuel
      obtain ⟨s₂, hread, hs₂, hchunks₂⟩ := hs₁.read
      have hwrite₂ : host.writeFails s₂.chunks = some n := by rw [hchunks₂, hchunks₁, hwrite]
      have hwritten : execute (writeChunk host data) s₂ =
          (.ok false, { s₂ with file := s₂.file.map (· ++ data.take n) }) := by
        rw [writeChunk, execute_bind_of_ok (execute_get s₂), hwrite₂]
        rfl
      rw [hrun, SyncRecv.recvData, execute_bind_of_ok hread]
      simp only
      rw [execute_bind_of_ok hwritten, if_neg (by decide)]
      exact unlink_fails host _ s'

theorem take_frame {id n : Nat} {data : Bytes} (hn : headerSize ≤ n) :
    (frame id data).take n = header id data.length ++ data.take (n - headerSize) := by
  rw [frame, List.take_append, length_header, List.take_of_length_le]
  rwa [length_header]

theorem length_take_lt {message : Bytes} {n : Nat} (hn : n < headerSize) :
    (message.take n).length < headerSize := by
  rw [List.length_take]
  omega

theorem recvMessages_cut_data {n : Nat} {data : Bytes} (hdata : data.length ≤ syncDataMax)
    (hn : n < (frame idData data).length) (h : Holds s content ((frame idData data).take n)) :
    Fails host lpath fuel s := by
  rcases Nat.lt_or_ge n headerSize with hshort | hheader
  · exact recvMessages_short h (length_take_lt hshort)
  · intro s'
    cases fuel with
    | zero => nofun
    | succ fuel =>
        rw [take_frame hheader] at h
        obtain ⟨s₁, hs₁, -, hrun⟩ := recvMessages_header hdata h host lpath fuel
        have hread := hs₁.read_short (n := data.length) (by
          rw [List.length_take]
          rw [length_frame] at hn
          omega)
        rw [hrun, SyncRecv.recvData, execute_bind_of_ok hread]
        exact unlink_fails host s₁ s'

theorem badHeader_fail (n : Nat) : BadHeader (header idFail n) := by
  refine ⟨length_header _ _, .inl ?_⟩
  rw [headerId_header' (by decide)]
  decide

theorem recvMessages_end (harrives : Arrives [header idDone 0] stream)
    (h : Holds s content stream)
    (hrun : execute ((receiver host).recvMessages lpath fuel) s = (.ok true, s')) :
    s'.file = some content := by
  cases harrives with
  | cut hn =>
      rw [length_header] at hn
      exact absurd hrun (recvMessages_short h (length_take_lt hn) s')
  | garbled _ hbad rest => exact absurd hrun (recvMessages_bad hbad h s')
  | whole _ _ =>
      cases fuel with
      | zero => cases hrun
      | succ fuel =>
          obtain ⟨s₁, hdone, hfile⟩ := recvMessages_done h host lpath fuel
          rw [hdone] at hrun
          cases hrun
          exact hfile

theorem recvMessages_fail {reason : Bytes} (harrives : Arrives [frame idFail reason] stream)
    (h : Holds s content stream) : Fails host lpath fuel s := by
  cases harrives with
  | @cut _ _ n hn =>
      rcases Nat.lt_or_ge n headerSize with hshort | hheader
      · exact recvMessages_short h (length_take_lt hshort)
      · rw [take_frame hheader] at h
        exact recvMessages_bad (badHeader_fail _) h
  | garbled _ hbad rest => exact recvMessages_bad hbad h
  | whole _ _ =>
      rw [frame, List.append_assoc] at h
      exact recvMessages_bad (badHeader_fail _) h

theorem readMessages_piece (answers : Answers) {piece : Bytes} (hpiece : piece ≠ [])
    (hlength : piece.length ≤ syncDataMax) (reads : List ReadResult) :
    readMessages answers (.data piece :: reads) =
      frame idData piece :: readMessages answers reads := by
  obtain ⟨b, bs, rfl⟩ := List.exists_cons_of_ne_nil hpiece
  rw [readMessages, List.take_of_length_le hlength]

/-- The loop against the rest of what `do_recv` sends: it ends with the rest of
the file or gives up. -/
theorem recvMessages_readMessages {remote : Bytes} {answers : Answers} {reads : List ReadResult}
    (hreads : ReadsRemote remote reads) (harrives : Arrives (readMessages answers reads) stream)
    (h : Holds s content stream)
    (hrun : execute ((receiver host).recvMessages lpath fuel) s = (.ok true, s')) :
    s'.file = some (content ++ remote) := by
  induction hreads generalizing stream content fuel s with
  | finished =>
      rw [List.append_nil]
      exact recvMessages_end harrives h hrun
  | endOfFile reads =>
      rw [List.append_nil]
      exact recvMessages_end harrives h hrun
  | @piece piece remote reads hpiece hlength _ ih =>
      rw [readMessages_piece answers hpiece hlength] at harrives
      cases harrives with
      | cut hn => exact absurd hrun (recvMessages_cut_data hlength hn h s')
      | garbled _ hbad rest => exact absurd hrun (recvMessages_bad hbad h s')
      | whole _ hrest =>
          cases hwrite : host.writeFails s.chunks with
          | some n => exact absurd hrun (recvMessages_full hlength h hwrite s')
          | none =>
              cases fuel with
              | zero => cases hrun
              | succ fuel =>
                  obtain ⟨s₁, hs₁, hnext⟩ := recvMessages_data hlength h hwrite lpath fuel
                  rw [hnext] at hrun
                  rw [ih hrest hs₁ hrun, List.append_assoc]
  | error remote reads => exact absurd hrun (recvMessages_fail harrives h s')

theorem recvMessages_whole {remote : Bytes} {answers : Answers} {reads : List ReadResult}
    (hreads : ReadsRemote remote reads) (hgood : ReadResult.error ∉ reads)
    (hwrites : ∀ n, host.writeFails n = none)
    (h : Holds s content (readMessages answers reads).flatten)
    (hfuel : (readMessages answers reads).flatten.length < fuel) :
    ∃ s', execute ((receiver host).recvMessages lpath fuel) s = (.ok true, s') ∧
      s'.file = some (content ++ remote) := by
  induction hreads generalizing content fuel s with
  | finished =>
      obtain ⟨fuel, rfl⟩ := Nat.exists_eq_add_one_of_ne_zero (by omega : fuel ≠ 0)
      rw [List.append_nil]
      exact recvMessages_done h host lpath fuel
  | endOfFile reads =>
      obtain ⟨fuel, rfl⟩ := Nat.exists_eq_add_one_of_ne_zero (by omega : fuel ≠ 0)
      rw [List.append_nil]
      exact recvMessages_done h host lpath fuel
  | @piece piece remote reads hpiece hlength _ ih =>
      obtain ⟨fuel, rfl⟩ := Nat.exists_eq_add_one_of_ne_zero (by omega : fuel ≠ 0)
      rw [readMessages_piece answers hpiece hlength, List.flatten_cons] at h hfuel
      obtain ⟨s₁, hs₁, hnext⟩ := recvMessages_data hlength h (hwrites s.chunks) lpath fuel
      rw [hnext, ← List.append_assoc]
      refine ih (fun hmem => hgood (List.mem_cons_of_mem _ hmem)) hs₁ ?_
      rw [List.length_append, length_frame] at hfuel
      simp only [headerSize] at hfuel
      omega
  | error remote reads => exact absurd List.mem_cons_self hgood

/-! ## `sync_recv` -/

theorem execute_sendRequest (host : LocalAnswers) (rpath : Bytes) (s : Fetch) :
    execute ((receiver host).sendRequest idRecv 0 rpath) s =
      (.ok (host.requestSent && (cString rpath).length ≤ maxPathLength), s) := by
  rw [Socket.sendRequest]
  rcases Nat.lt_or_ge maxPathLength (cString rpath).length with hlong | hfits
  · simp only [hlong, if_true, execute_pure, Nat.not_le.mpr hlong, decide_false, Bool.and_false]
  · simp only [Nat.not_lt.mpr hfits, if_false, execute_pure, hfits, decide_true, Bool.and_true]

/-- `sync_recv` gives up before its loop, or has an empty file then. -/
theorem syncRecvFile_eq (host : LocalAnswers) (rpath lpath : Bytes) (old : Option Bytes)
    (pieces : List Bytes) :
    syncRecvFile host rpath lpath old pieces =
      if host.requestSent && (cString rpath).length ≤ maxPathLength then
        if host.created then
          execute ((receiver host).recvMessages lpath (pieces.flatten.length + 1))
            ⟨pieces, 0, true, some []⟩
        else (.ok false, ⟨pieces, 0, false, if host.oldUnlinked then none else old⟩)
      else (.ok false, ⟨pieces, 0, false, old⟩) := by
  rw [syncRecvFile, SyncRecv.syncRecv, execute_bind_of_ok (execute_sendRequest host rpath _)]
  split
  · have hunlink : execute (unlink host) ⟨pieces, 0, false, old⟩ =
        (.ok ⟨⟩, ⟨pieces, 0, false, if host.oldUnlinked then none else old⟩) := by
      rw [unlink, execute_modify]
      cases host.oldUnlinked with
      | true => rfl
      | false => rfl
    rw [execute_bind_of_ok hunlink]
    cases hcreated : host.created with
    | true =>
        have hcreat : execute (creat host) ⟨pieces, 0, false, if host.oldUnlinked then none else old⟩ =
            (.ok true, ⟨pieces, 0, true, some []⟩) := by
          rw [creat, hcreated]
          rfl
        rw [execute_bind_of_ok hcreat]
        rfl
    | false =>
        have hcreat : execute (creat host) ⟨pieces, 0, false, if host.oldUnlinked then none else old⟩ =
            (.ok false, ⟨pieces, 0, false, if host.oldUnlinked then none else old⟩) := by
          rw [creat, hcreated]
          rfl
        rw [execute_bind_of_ok hcreat]
        rfl
  · rfl

end

/-- Against `do_recv`, whatever fails and wherever the stream breaks off or goes
wrong, `sync_recv` returns true only with the whole remote file; and whatever
comes, it returns, and leaves no file behind when it returns false after it has
created one. -/
theorem pull_complete_or_removed (answers : Answers) (remote : Bytes)
    (hreads : ReadsRemote remote answers.reads) (host : LocalAnswers) (rpath lpath : Bytes)
    (old : Option Bytes) :
    (∀ d, (doRecv answers d).out = d.out ++ (sentMessages answers).flatten) ∧
      (∀ stream, Arrives (sentMessages answers) stream → ∀ pieces, Fragments pieces stream →
        (syncRecvFile host rpath lpath old pieces).1 = .ok true →
          (syncRecvFile host rpath lpath old pieces).2.file = some remote) ∧
      ∀ pieces, ∃ ok s, syncRecvFile host rpath lpath old pieces = (.ok ok, s) ∧
        (ok = false → s.created = true → s.file = none) := by
  refine ⟨doRecv_out answers, ?_, ?_⟩
  · intro stream harrives pieces hpieces hok
    rw [syncRecvFile_eq] at hok ⊢
    split at hok
    · split at hok
      · rename_i hsent hcreated
        rw [if_pos hsent, if_pos hcreated]
        have hholds : Holds ⟨pieces, 0, true, some []⟩ [] stream := ⟨rfl, hpieces⟩
        have hrun : execute ((receiver host).recvMessages lpath (pieces.flatten.length + 1))
            ⟨pieces, 0, true, some []⟩ = (.ok true, _) := Prod.ext hok rfl
        rw [sentMessages] at harrives
        split at harrives
        · exact recvMessages_readMessages hreads harrives hholds hrun
        · exact absurd hrun (recvMessages_fail harrives hholds _)
      · cases hok
    · cases hok
  · intro pieces
    rw [syncRecvFile_eq]
    split
    · split
      · obtain ⟨ok, s, hrun, htidy⟩ := (ensures_recvMessages host lpath
          (s := ⟨pieces, 0, true, some []⟩) rfl (Nat.lt_succ_self _)).exists_ok
        exact ⟨ok, s, hrun, fun hok _ => htidy.2 hok⟩
      · exact ⟨false, _, rfl, fun _ hcreated => by cases hcreated⟩
    · exact ⟨false, _, rfl, fun _ hcreated => by cases hcreated⟩

theorem pull_succeeds (answers : Answers) (remote : Bytes)
    (hreads : ReadsRemote remote answers.reads) (hgood : ReadResult.error ∉ answers.reads)
    (hopened : answers.fileOpened = true) (host : LocalAnswers)
    (hhost : host.requestSent = true ∧ host.created = true ∧ ∀ n, host.writeFails n = none)
    (rpath lpath : Bytes) (hrpath : (cString rpath).length ≤ maxPathLength) (old : Option Bytes)
    (pieces : List Bytes) (hpieces : Fragments pieces (sentMessages answers).flatten) :
    ∃ s, syncRecvFile host rpath lpath old pieces = (.ok true, s) ∧ s.file = some remote := by
  rw [sentMessages, if_pos hopened] at hpieces
  rw [syncRecvFile_eq, hhost.1, hhost.2.1, if_pos (by simp [hrpath]), if_pos rfl]
  have hholds : Holds ⟨pieces, 0, true, some []⟩ [] (readMessages answers answers.reads).flatten :=
    ⟨rfl, hpieces⟩
  refine recvMessages_whole hreads hgood hhost.2.2 hholds ?_
  rw [hpieces.2]
  exact Nat.lt_succ_self _

/-- A device that reads the file `abc` in two pieces. -/
def abcAnswers : Answers :=
  { quietAnswers with reads := [.data (ascii "ab"), .data (ascii "c"), .data []] }

theorem readsRemote_abc : ReadsRemote (ascii "abc") abcAnswers.reads := by
  have hrest : ReadsRemote (ascii "c" ++ []) [.data (ascii "c"), .data []] :=
    .piece (by decide) (by decide) (.endOfFile [])
  exact ReadsRemote.piece (show ascii "ab" ≠ [] by decide) (by decide) hrest

def quietHost : LocalAnswers := ⟨true, true, true, fun _ => none⟩

theorem pull_complete_or_removed_abc :
    ∃ s, syncRecvFile quietHost (ascii "/f") (ascii "f") none
        [(sentMessages abcAnswers).flatten] = (.ok true, s) ∧ s.file = some (ascii "abc") := by
  have hpieces : Fragments [(sentMessages abcAnswers).flatten]
      (sentMessages abcAnswers).flatten := Fragments.whole (by decide)
  obtain ⟨s, hrun, -⟩ := pull_succeeds abcAnswers (ascii "abc") readsRemote_abc (by decide) rfl
    quietHost ⟨rfl, rfl, fun _ => rfl⟩ (ascii "/f") (ascii "f") (by decide) none _ hpieces
  have harrives : Arrives (sentMessages abcAnswers) (sentMessages abcAnswers).flatten :=
    .whole _ (.whole _ (.whole _ .finished))
  have hcomplete := (pull_complete_or_removed abcAnswers (ascii "abc") readsRemote_abc quietHost
    (ascii "/f") (ascii "f") none).2.1 _ harrives _ hpieces
  rw [hrun] at hcomplete
  exact ⟨s, hrun, hcomplete rfl⟩

end Adb.PullEndToEnd
