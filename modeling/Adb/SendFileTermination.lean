import Adb.ExactIo
import Adb.PushEndToEnd
import Adb.SyncServiceRuns
import Mathlib.Logic.Function.Iterate

/-!
When `handle_send_file` returns.  The client sends a finite stream and closes
its end: from then on every read of the service is short.  A header that is
short leads to the label `fail`, and the loop there starts by reading a header.
-/

namespace Adb.SendFileTermination

open Adb.DescriptorIo
open Adb.ExactIo
open Adb.FragmentedStreams
open Adb.PushEndToEnd
open Adb.SyncMessages
open Adb.SyncService
open Adb.SyncServiceRuns
open Adb.WirePackets

/-- A call of `handle_send_file` and the pieces in which the rest of the stream
arrives. -/
structure Reception where
  service : Service
  pieces : List Bytes

/-- The call is over: `handle_sync_command` has returned. -/
def Returned (d : Service) : Prop := d.phase = .request ∨ d.phase = .ended

instance (d : Service) : Decidable (Returned d) :=
  inferInstanceAs (Decidable (_ ∨ _))

/-- The call of `ReadFdExactly` that the service is in returns false. -/
def readFails (answers : Answers) (d : Service) : Service :=
  match d.phase with
  | .data sending => d.goto (.discard sending.path sending.doUnlink)
  | .chunk sending _ => sendAbort answers d sending.path sending.doUnlink
  | .discard path doUnlink => d.goto (.discard path doUnlink)
  | .discardChunk path doUnlink _ => sendAbort answers d path doUnlink
  | _ => d.finish

/-- One call of `ReadFdExactly` and what follows it up to the next one. -/
def step (answers : Answers) (r : Reception) : Reception :=
  if Returned r.service then r
  else
    match (readFdExactly r.service.phase.need).run r.pieces with
    | some (bytes, rest) => ⟨advance (fun _ => answers) r.service bytes, rest⟩
    | none => ⟨readFails answers r.service, []⟩

def Returns (answers : Answers) (r : Reception) : Prop :=
  ∃ n, Returned ((step answers)^[n] r).service

/-- The stream starts with a `DATA` message that the service takes whole. -/
def StartsWithData (stream : Bytes) : Prop :=
  headerSize ≤ stream.length ∧ headerId stream = idData ∧
    headerLength stream ≤ syncDataMax ∧ headerSize + headerLength stream ≤ stream.length

instance (stream : Bytes) : Decidable (StartsWithData stream) :=
  inferInstanceAs (Decidable (_ ∧ _ ∧ _ ∧ _))

theorem StartsWithData.lt {stream : Bytes} (h : StartsWithData stream) :
    (stream.drop (headerSize + headerLength stream)).length < stream.length := by
  have hlength := h.1
  rw [List.length_drop]
  simp only [headerSize] at hlength ⊢
  omega

/-- How many whole `DATA` messages come first, and what follows them. -/
def leadingData (stream : Bytes) : Nat × Bytes :=
  if h : StartsWithData stream then
    let next := leadingData (stream.drop (headerSize + headerLength stream))
    (next.1 + 1, next.2)
  else (0, stream)
  termination_by stream.length
  decreasing_by exact h.lt

/-- Some header follows the first `DATA` messages. -/
def HeaderFollows (stream : Bytes) : Prop := headerSize ≤ (leadingData stream).2.length

/-- The opening calls of `handle_send_file` all succeed. -/
def Opens (answers : Answers) (d : Service) (path : Bytes) (config : FsConfig) : Prop :=
  (∃ d', openTarget answers d path ⟨[], config.mode, 0, 0, 0, 0⟩ = some (.ok d')) ∧
    answers.chowned = true

/-- The first header that is not part of a `DATA` message is a `DONE`, and it
finds a file that cannot get its capabilities. -/
def FailsAtDone (answers : Answers) (capabilities chunks : Nat) (stream : Bytes) : Prop :=
  headerId (leadingData stream).2 = idDone ∧
    (∀ k < (leadingData stream).1, answers.chunkWritten (chunks + k) = true) ∧
    capabilities ≠ 0 ∧ answers.cappedOk = false

section

variable {answers : Answers} {r : Reception} {d : Service} {pieces : List Bytes}
  {stream : Bytes}

theorem returns_of_returned (h : Returned r.service) : Returns answers r := ⟨0, h⟩

theorem step_of_returned (h : Returned r.service) : step answers r = r := if_pos h

theorem returns_step : Returns answers (step answers r) ↔ Returns answers r := by
  constructor
  · rintro ⟨n, hn⟩
    exact ⟨n + 1, hn⟩
  · rintro ⟨n, hn⟩
    refine ⟨n, ?_⟩
    rw [← Function.iterate_succ_apply, Function.iterate_succ_apply']
    rwa [step_of_returned hn]

/-- The loop at the label `fail` does not end once the stream has. -/
theorem not_returns_of_fixed (hfixed : step answers r = r) (h : ¬ Returned r.service) :
    ¬ Returns answers r := by
  rintro ⟨n, hn⟩
  rw [Function.iterate_fixed hfixed] at hn
  exact h hn

theorem step_of_le (answers : Answers) (hactive : ¬ Returned d) (hpieces : Fragments pieces stream)
    (hneed : d.phase.need ≤ stream.length) :
    ∃ pieces', Fragments pieces' (stream.drop d.phase.need) ∧
      step answers ⟨d, pieces⟩ =
        ⟨advance (fun _ => answers) d (stream.take d.phase.need), pieces'⟩ := by
  obtain ⟨pieces', hread, hpieces'⟩ := readPieces_of_le hpieces hneed
  refine ⟨pieces', hpieces', ?_⟩
  rw [step, if_neg hactive]
  simp only [StateT.run, readFdExactly, hread]

theorem step_of_lt (hactive : ¬ Returned d) (hpieces : Fragments pieces stream)
    (hneed : stream.length < d.phase.need) :
    step answers ⟨d, pieces⟩ = ⟨readFails answers d, []⟩ := by
  have hread : readPieces d.phase.need pieces = none := by
    apply readPieces_of_lt
    rwa [hpieces.2]
  rw [step, if_neg hactive]
  simp only [StateT.run, readFdExactly, hread]

theorem headerId_take (stream : Bytes) : headerId (stream.take headerSize) = headerId stream := by
  rw [headerId, List.take_take]
  rfl

theorem headerLength_take (stream : Bytes) :
    headerLength (stream.take headerSize) = headerLength stream := by
  rw [headerLength, headerLength, List.drop_take, List.take_take]
  rfl

theorem leadingData_of_starts (h : StartsWithData stream) :
    leadingData stream =
      ((leadingData (stream.drop (headerSize + headerLength stream))).1 + 1,
        (leadingData (stream.drop (headerSize + headerLength stream))).2) := by
  rw [leadingData, dif_pos h]

theorem leadingData_of_not (h : ¬ StartsWithData stream) : leadingData stream = (0, stream) := by
  rw [leadingData, dif_neg h]

theorem returned_sendAbort (path : Bytes) (doUnlink : Bool) :
    Returned (sendAbort answers d path doUnlink) := .inr rfl

theorem returns_of_le (answers : Answers) (hactive : ¬ Returned d)
    (hpieces : Fragments pieces stream) (hneed : d.phase.need ≤ stream.length) :
    ∃ pieces', Fragments pieces' (stream.drop d.phase.need) ∧
      (Returns answers ⟨d, pieces⟩ ↔
        Returns answers ⟨advance (fun _ => answers) d (stream.take d.phase.need), pieces'⟩) := by
  obtain ⟨pieces', hpieces', hstep⟩ := step_of_le answers hactive hpieces hneed
  refine ⟨pieces', hpieces', ?_⟩
  rw [← returns_step, hstep]

theorem returns_of_short (hactive : ¬ Returned d) (hpieces : Fragments pieces stream)
    (hneed : stream.length < d.phase.need) (hfails : Returned (readFails answers d)) :
    Returns answers ⟨d, pieces⟩ := by
  rw [← returns_step, step_of_lt hactive hpieces hneed]
  exact returns_of_returned hfails

section

variable {path : Bytes} {doUnlink : Bool}

theorem not_returned_discard (hphase : d.phase = .discard path doUnlink) : ¬ Returned d := by
  simp [Returned, hphase]

theorem not_returns_discard (hphase : d.phase = .discard path doUnlink)
    (hpieces : Fragments pieces stream) (hshort : stream.length < headerSize) :
    ¬ Returns answers ⟨d, pieces⟩ := by
  have hactive := not_returned_discard hphase
  have hfails : readFails answers d = d := by
    rw [readFails, hphase]
    simp only [Service.goto, ← hphase]
  have hneed : d.phase.need = headerSize := by
    rw [hphase]
    rfl
  have hstep : ∀ {pieces : List Bytes} {stream : Bytes}, Fragments pieces stream →
      stream.length < headerSize → step answers ⟨d, pieces⟩ = ⟨d, []⟩ := by
    intro pieces stream hpieces hshort
    rw [step_of_lt hactive hpieces (by rwa [hneed]), hfails]
  rw [← returns_step, hstep hpieces hshort]
  exact not_returns_of_fixed (hstep Fragments.nil (by decide)) hactive

theorem returns_discard_data (answers : Answers) (hphase : d.phase = .discard path doUnlink)
    (hpieces : Fragments pieces stream) (hdata : StartsWithData stream) :
    ∃ d' pieces', d'.phase = .discard path doUnlink ∧
      Fragments pieces' (stream.drop (headerSize + headerLength stream)) ∧
      (Returns answers ⟨d, pieces⟩ ↔ Returns answers ⟨d', pieces'⟩) := by
  obtain ⟨hheader, hid, hsize, hpayload⟩ := hdata
  have hneed : d.phase.need = headerSize := by
    rw [hphase]
    rfl
  obtain ⟨pieces', hpieces', hreturns⟩ :=
    returns_of_le answers (not_returned_discard hphase) hpieces (by rwa [hneed])
  rw [hneed] at hpieces' hreturns
  have hadvance : advance (fun _ => answers) d (stream.take headerSize) =
      if headerLength stream = 0 then d.goto (.discard path doUnlink)
      else d.goto (.discardChunk path doUnlink (headerLength stream)) := by
    rw [advance, hphase]
    simp only [handleDiscard, headerId_take, headerLength_take]
    rw [if_neg (by omega)]
  rw [hadvance] at hreturns
  split at hreturns
  · rename_i hzero
    rw [hzero, Nat.add_zero]
    exact ⟨_, pieces', rfl, hpieces', hreturns⟩
  · have hrest : headerLength stream ≤ (stream.drop headerSize).length := by
      rw [List.length_drop]
      omega
    obtain ⟨pieces'', hpieces'', hnext⟩ := returns_of_le answers
      (d := d.goto (.discardChunk path doUnlink (headerLength stream)))
      (by simp [Returned, Service.goto]) hpieces' hrest
    refine ⟨_, pieces'', rfl, ?_, hreturns.trans hnext⟩
    rw [← List.drop_drop]
    exact hpieces''

theorem returns_discard_other (hphase : d.phase = .discard path doUnlink)
    (hpieces : Fragments pieces stream) (hheader : headerSize ≤ stream.length)
    (hdata : ¬ StartsWithData stream) : Returns answers ⟨d, pieces⟩ := by
  have hneed : d.phase.need = headerSize := by
    rw [hphase]
    rfl
  obtain ⟨pieces', hpieces', hreturns⟩ :=
    returns_of_le answers (not_returned_discard hphase) hpieces (by rwa [hneed])
  rw [hneed] at hpieces' hreturns
  rw [hreturns, advance, hphase]
  simp only [handleDiscard, headerId_take, headerLength_take]
  split
  · exact returns_of_returned (returned_sendAbort path doUnlink)
  · rename_i hgood
    have hshort : stream.length < headerSize + headerLength stream := by
      simp only [StartsWithData] at hdata
      omega
    rw [if_neg (by omega)]
    refine returns_of_short ?_ hpieces' ?_ (returned_sendAbort path doUnlink)
    · simp [Returned, Service.goto]
    · rw [List.length_drop]
      simp only [Service.goto, Phase.need]
      omega

/-- A transfer that has failed ends when a header follows the data. -/
theorem returns_discard (hphase : d.phase = .discard path doUnlink)
    (hpieces : Fragments pieces stream) :
    Returns answers ⟨d, pieces⟩ ↔ HeaderFollows stream := by
  -- on the stream, message by message; the service only changes its phase
  induction stream using leadingData.induct generalizing d pieces with
  | case1 stream hdata ih =>
      obtain ⟨d', pieces', hphase', hpieces', hreturns⟩ :=
        returns_discard_data answers hphase hpieces hdata
      rw [hreturns, ih hphase' hpieces', HeaderFollows, HeaderFollows,
        leadingData_of_starts hdata]
  | case2 stream hdata =>
      rw [HeaderFollows, leadingData_of_not hdata]
      constructor
      · intro hreturns
        exact Nat.not_lt.mp fun hshort => not_returns_discard hphase hpieces hshort hreturns
      · intro hheader
        exact returns_discard_other hphase hpieces hheader hdata

theorem returns_discard_and {P Q : Prop} (hphase : d.phase = .discard path doUnlink)
    (hpieces : Fragments pieces stream) (h : ¬ P) :
    Returns answers ⟨d, pieces⟩ ↔ HeaderFollows stream ∧ (P → Q) := by
  rw [returns_discard hphase hpieces]
  exact ⟨fun hheader => ⟨hheader, fun hp => absurd hp h⟩, And.left⟩

end

section

variable {sending : Sending}

theorem not_returned_data (hphase : d.phase = .data sending) : ¬ Returned d := by
  simp [Returned, hphase]

theorem not_returns_data (hphase : d.phase = .data sending) (hpieces : Fragments pieces stream)
    (hshort : stream.length < headerSize) : ¬ Returns answers ⟨d, pieces⟩ := by
  have hneed : d.phase.need = headerSize := by
    rw [hphase]
    rfl
  have hactive := not_returned_data hphase
  rw [← returns_step, step_of_lt hactive hpieces (by rwa [hneed]), readFails, hphase]
  exact not_returns_discard rfl Fragments.nil (by decide)

theorem returns_data_header (answers : Answers) (hphase : d.phase = .data sending)
    (hpieces : Fragments pieces stream) (hheader : headerSize ≤ stream.length) :
    ∃ pieces', Fragments pieces' (stream.drop headerSize) ∧
      (Returns answers ⟨d, pieces⟩ ↔
        Returns answers ⟨handleData answers d sending (stream.take headerSize), pieces'⟩) := by
  have hneed : d.phase.need = headerSize := by
    rw [hphase]
    rfl
  obtain ⟨pieces', hpieces', hreturns⟩ :=
    returns_of_le answers (not_returned_data hphase) hpieces (by rwa [hneed])
  rw [hneed] at hpieces' hreturns
  rw [advance, hphase] at hreturns
  exact ⟨pieces', hpieces', hreturns⟩

theorem returns_data_data (answers : Answers) (hphase : d.phase = .data sending)
    (hpieces : Fragments pieces stream) (hdata : StartsWithData stream) :
    ∃ d' bytes pieces', Fragments pieces' (stream.drop (headerSize + headerLength stream)) ∧
      (Returns answers ⟨d, pieces⟩ ↔
        Returns answers ⟨handleChunk answers d' sending bytes, pieces'⟩) := by
  obtain ⟨hheader, hid, hsize, hpayload⟩ := hdata
  obtain ⟨pieces', hpieces', hreturns⟩ := returns_data_header answers hphase hpieces hheader
  simp only [handleData, headerId_take, headerLength_take] at hreturns
  rw [if_neg (by rw [hid]; exact idDone_ne_idData.symm), if_neg (by simp [hid]),
    if_neg (by omega)] at hreturns
  split at hreturns
  · rename_i hzero
    rw [hzero, Nat.add_zero]
    exact ⟨_, _, pieces', hpieces', hreturns⟩
  · have hrest : headerLength stream ≤ (stream.drop headerSize).length := by
      rw [List.length_drop]
      omega
    obtain ⟨pieces'', hpieces'', hnext⟩ := returns_of_le answers
      (d := d.goto (.chunk sending (headerLength stream)))
      (by simp [Returned, Service.goto]) hpieces' hrest
    refine ⟨_, _, pieces'', ?_, hreturns.trans hnext⟩
    rw [← List.drop_drop]
    exact hpieces''

theorem returns_data_other (hphase : d.phase = .data sending)
    (hpieces : Fragments pieces stream) (hheader : headerSize ≤ stream.length)
    (hdata : ¬ StartsWithData stream) (hdone : headerId stream ≠ idDone) :
    Returns answers ⟨d, pieces⟩ := by
  obtain ⟨pieces', hpieces', hreturns⟩ := returns_data_header answers hphase hpieces hheader
  rw [hreturns]
  simp only [handleData, headerId_take, headerLength_take]
  rw [if_neg hdone]
  split
  · exact returns_of_returned (returned_sendAbort _ _)
  · split
    · exact returns_of_returned (returned_sendAbort _ _)
    · have hshort : stream.length < headerSize + headerLength stream := by
        simp only [StartsWithData] at hdata
        omega
      rw [if_neg (by omega)]
      refine returns_of_short ?_ hpieces' ?_ (returned_sendAbort _ _)
      · simp [Returned, Service.goto]
      · rw [List.length_drop]
        simp only [Service.goto, Phase.need]
        omega

theorem returns_data_done (hphase : d.phase = .data sending)
    (hpieces : Fragments pieces stream) (hheader : headerSize ≤ stream.length)
    (hdone : headerId stream = idDone) :
    Returns answers ⟨d, pieces⟩ ↔
      (sending.capabilities ≠ 0 ∧ answers.cappedOk = false →
        HeaderFollows (stream.drop headerSize)) := by
  obtain ⟨pieces', hpieces', hreturns⟩ := returns_data_header answers hphase hpieces hheader
  rw [hreturns]
  simp only [handleData, headerId_take, headerLength_take]
  rw [if_pos hdone, handleDone]
  split
  · rename_i hcapped
    constructor
    · rintro - ⟨hcapabilities, hfails⟩
      simp [hcapabilities, hfails] at hcapped
    · intro _
      exact returns_of_returned (.inl rfl)
  · rename_i hcapped
    rw [not_or, Bool.not_eq_true] at hcapped
    rw [returns_discard rfl hpieces']
    exact ⟨fun h _ => h, fun h => h hcapped⟩

theorem not_failsAtDone_of_not_written {capabilities chunks : Nat} (hdata : StartsWithData stream)
    (h : answers.chunkWritten chunks = false) :
    ¬ FailsAtDone answers capabilities chunks stream := by
  rintro ⟨-, hwritten, -⟩
  rw [leadingData_of_starts hdata] at hwritten
  have hfirst := hwritten 0 (Nat.succ_pos _)
  rw [Nat.add_zero, h] at hfirst
  cases hfirst

theorem failsAtDone_of_written {capabilities chunks : Nat} (hdata : StartsWithData stream)
    (h : answers.chunkWritten chunks = true) :
    FailsAtDone answers capabilities chunks stream ↔
      FailsAtDone answers capabilities (chunks + 1)
        (stream.drop (headerSize + headerLength stream)) := by
  simp only [FailsAtDone, leadingData_of_starts hdata]
  have hwritten : ∀ n, (∀ k < n + 1, answers.chunkWritten (chunks + k) = true) ↔
      ∀ k < n, answers.chunkWritten (chunks + 1 + k) = true := by
    intro n
    constructor
    · intro hall k hk
      rw [Nat.add_right_comm, Nat.add_assoc]
      exact hall (k + 1) (by omega)
    · intro hall k hk
      cases k with
      | zero => exact h
      | succ k =>
          have hk' := hall k (by omega)
          rwa [Nat.add_right_comm, Nat.add_assoc] at hk'
  rw [hwritten]

theorem returns_data (hphase : d.phase = .data sending) (hpieces : Fragments pieces stream) :
    Returns answers ⟨d, pieces⟩ ↔
      HeaderFollows stream ∧
        (FailsAtDone answers sending.capabilities sending.chunks stream →
          HeaderFollows ((leadingData stream).2.drop headerSize)) := by
  induction stream using leadingData.induct generalizing d pieces sending with
  | case1 stream hdata ih =>
      obtain ⟨d', bytes, pieces', hpieces', hreturns⟩ :=
        returns_data_data answers hphase hpieces hdata
      rw [hreturns, HeaderFollows, leadingData_of_starts hdata, handleChunk]
      split
      · rename_i hwritten
        rw [ih rfl hpieces', failsAtDone_of_written hdata hwritten, HeaderFollows]
      · rename_i hwritten
        rw [Bool.not_eq_true] at hwritten
        apply returns_discard_and rfl hpieces'
        exact not_failsAtDone_of_not_written hdata hwritten
  | case2 stream hdata =>
      rw [HeaderFollows, FailsAtDone, leadingData_of_not hdata]
      rcases Nat.lt_or_ge stream.length headerSize with hshort | hheader
      · constructor
        · intro h
          exact absurd h (not_returns_data hphase hpieces hshort)
        · rintro ⟨h, -⟩
          exact absurd hshort (Nat.not_lt.mpr h)
      · rcases eq_or_ne (headerId stream) idDone with hdone | hdone
        · rw [returns_data_done hphase hpieces hheader hdone]
          simp [hheader, hdone]
        · simp [hheader, hdone, returns_data_other hphase hpieces hheader hdata hdone]

end

/-- `handle_send_file` returns exactly when a whole header follows the `DATA`
messages that come first, and one more where the first is the `DONE` of a file
that was written but cannot get its capabilities: a header that is cut off
starts the failure loop again and again. -/
theorem handleSendFile_returns_iff (answers : Answers) (d : Service) (path : Bytes)
    (config : FsConfig) (doUnlink : Bool) (pieces : List Bytes) (stream : Bytes)
    (hpieces : Fragments pieces stream) :
    Returns answers ⟨handleSendFile answers d path config doUnlink, pieces⟩ ↔
      HeaderFollows stream ∧
        (Opens answers d path config ∧ FailsAtDone answers config.capabilities 0 stream →
          HeaderFollows ((leadingData stream).2.drop headerSize)) := by
  rw [handleSendFile, Opens]
  cases hopen : openTarget answers d path ⟨[], config.mode, 0, 0, 0, 0⟩ with
  | none => exact returns_discard_and rfl hpieces (by simp)
  | some result =>
      cases result with
      | error e => exact returns_discard_and rfl hpieces (by simp)
      | ok d' =>
          cases hchown : answers.chowned with
          | false => exact returns_discard_and rfl hpieces (by simp)
          | true =>
              have hopens : (∃ d'', some (Except.ok d') = some (Except.ok (ε := Errno) d'')) ∧
                  true = true := ⟨⟨d', rfl⟩, rfl⟩
              have hphase : ((setOwner answers d' path config).goto
                  (.data ⟨path, doUnlink, config.capabilities, 0, 0⟩)).phase =
                    .data ⟨path, doUnlink, config.capabilities, 0, 0⟩ := rfl
              rw [and_iff_right hopens]
              exact returns_data hphase hpieces

/-- A file of one chunk, whole. -/
theorem handleSendFile_returns_iff_done :
    Fragments [frame idData (ascii "ab"), header idDone 5]
        (frame idData (ascii "ab") ++ header idDone 5) ∧
      (Returns quietAnswers
          ⟨handleSendFile quietAnswers (initialService fun _ => none) (ascii "/a")
            ⟨0, 0, 420, 0⟩ true, [frame idData (ascii "ab"), header idDone 5]⟩ ↔
        HeaderFollows (frame idData (ascii "ab") ++ header idDone 5) ∧
          (Opens quietAnswers (initialService fun _ => none) (ascii "/a") ⟨0, 0, 420, 0⟩ ∧
              FailsAtDone quietAnswers 0 0 (frame idData (ascii "ab") ++ header idDone 5) →
            HeaderFollows ((leadingData (frame idData (ascii "ab") ++ header idDone 5)).2.drop
              headerSize))) := by
  have hpieces : Fragments [frame idData (ascii "ab"), header idDone 5]
      (frame idData (ascii "ab") ++ header idDone 5) :=
    ⟨by decide, by decide⟩
  exact ⟨hpieces,
    handleSendFile_returns_iff quietAnswers (initialService fun _ => none) (ascii "/a")
      ⟨0, 0, 420, 0⟩ true [frame idData (ascii "ab"), header idDone 5]
      (frame idData (ascii "ab") ++ header idDone 5) hpieces⟩

/-- A client that closes its socket after one `DATA` message, before the next
header: no call fails on the device, and `handle_send_file` does not return. -/
theorem handleSendFile_does_not_return :
    Fragments [frame idData (ascii "ab")] (frame idData (ascii "ab")) ∧
      ¬ Returns quietAnswers
        ⟨handleSendFile quietAnswers (initialService fun _ => none) (ascii "/a")
          ⟨0, 0, 420, 0⟩ true, [frame idData (ascii "ab")]⟩ := by
  have hpieces : Fragments [frame idData (ascii "ab")] (frame idData (ascii "ab")) :=
    Fragments.whole (by decide)
  refine ⟨hpieces, fun hreturns => ?_⟩
  obtain ⟨hheader, -⟩ := (returns_data rfl hpieces).mp hreturns
  have hdata : StartsWithData (frame idData (ascii "ab")) := by decide
  rw [HeaderFollows, leadingData_of_starts hdata, leadingData_of_not (by decide)] at hheader
  revert hheader
  decide

end

end Adb.SendFileTermination
