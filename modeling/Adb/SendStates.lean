import Adb.SyncServiceRuns

/-!
Where the sync service can be in the middle of a push, whatever its system
calls do: it takes data, or it has failed and throws data away.  Each message
of the client keeps it there until the end of the file.
-/

namespace Adb.SendStates

open Adb.DescriptorIo
open Adb.ExactConsumers
open Adb.SyncMessages
open Adb.SyncService
open Adb.SyncServiceRuns
open Adb.WirePackets

/-- Error texts and names of directory entries have the lengths that the C
library gives them, and the capabilities of a file can be set. -/
structure Dependable (env : Nat → Answers) : Prop where
  strerror : ∀ n, (env n).strerror.length < 2 ^ 16
  names : ∀ n, ∀ entry ∈ (env n).entries, entry.name.length ≤ 255
  cappedOk : ∀ n, (env n).cappedOk = true

/-- Nothing, or one complete `FAIL` message. -/
def Failure (out : Bytes) : Prop :=
  out = [] ∨ ∃ reason, reason.length < 2 ^ 32 ∧ out = frame idFail reason

inductive SendState (d : Service) : Prop
  | receiving (sending : Sending) (hphase : d.phase = .data sending) (hout : d.out = [])
  | linkTarget (path : Bytes) (hphase : d.phase = .linkData path) (hout : d.out = [])
  | linkEnd (hphase : d.phase = .linkDone) (hout : d.out = [])
  | discarding (path : Bytes) (doUnlink : Bool) (hphase : d.phase = .discard path doUnlink)
      (hout : Failure d.out)
  | ended (hphase : d.phase = .ended) (hout : Failure d.out)

/-- The service has answered the push. -/
inductive SendAnswered (d : Service) : Prop
  | okay (hphase : d.phase = .request) (hout : d.out = header idOkay 0)
  | ended (hphase : d.phase = .ended) (hout : Failure d.out)

section

variable {env : Nat → Answers} {d : Service}

theorem failure_sendSyncFail (hout : d.out = []) {reason : Bytes}
    (hreason : reason.length < 2 ^ 32) : Failure (sendSyncFail d reason).out := by
  right
  refine ⟨reason, hreason, ?_⟩
  simp [sendSyncFail, Service.write, hout]

theorem failure_sendSyncFailErrno (h : Dependable env) (n : Nat) (hout : d.out = [])
    {reason : String} (hreason : (ascii reason).length < 2 ^ 16) :
    Failure (sendSyncFailErrno (env n) d reason).out := by
  apply failure_sendSyncFail hout
  have hstrerror := h.strerror n
  have hcolon : (ascii ": ").length = 2 := by decide
  rw [List.length_append, List.length_append, hcolon]
  omega

@[simp] theorem sendAbort_phase (answers : Answers) (path : Bytes) (doUnlink : Bool) :
    (sendAbort answers d path doUnlink).phase = .ended := by
  rw [sendAbort]
  rfl

@[simp] theorem sendAbort_out (answers : Answers) (path : Bytes) (doUnlink : Bool) :
    (sendAbort answers d path doUnlink).out = d.out := by
  rw [sendAbort]
  split
  · rfl
  · rfl

theorem openTarget_out {answers : Answers} {path : Bytes} {file : RegularFile} {d' : Service}
    (h : openTarget answers d path file = some (.ok d')) : d'.out = d.out := by
  have hexclusive : ∀ {error d''}, openExclusive d path error file = .ok d'' →
      d''.out = d.out := by
    intro error d'' hopen
    unfold openExclusive at hopen
    split at hopen
    · cases hopen
    · split at hopen
      · cases hopen
      · cases hopen
        rfl
  have hexisting : ∀ {error d''}, openExisting d error = .ok d'' → d''.out = d.out := by
    intro error d'' hopen
    unfold openExisting at hopen
    split at hopen
    · cases hopen
    · cases hopen
      rfl
  rw [openTarget] at h
  split at h
  · exact hexisting (Option.some.inj h)
  · split at h
    · split at h
      · exact hexclusive (Option.some.inj h)
      · cases h
    · exact hexclusive (Option.some.inj h)

@[simp] theorem setOwner_out (answers : Answers) (path : Bytes) (config : FsConfig) :
    (setOwner answers d path config).out = d.out := by
  rw [setOwner]
  split
  · rfl
  · rfl

theorem sendState_handleSendFile (h : Dependable env) (n : Nat) (hout : d.out = [])
    (path : Bytes) (config : FsConfig) (doUnlink : Bool) :
    SendState (handleSendFile (env n) d path config doUnlink) := by
  rw [handleSendFile]
  split
  · exact .discarding path doUnlink rfl
      (failure_sendSyncFailErrno h n hout (by decide))
  · exact .discarding path doUnlink rfl
      (failure_sendSyncFailErrno h n hout (by decide))
  next d' hopen =>
      have hout' : d'.out = [] := (openTarget_out hopen).trans hout
      split
      · refine .receiving _ rfl ?_
        simpa [Service.goto] using hout'
      · exact .discarding path doUnlink rfl
          (failure_sendSyncFailErrno h n hout' (by decide))

theorem sendState_doSend (h : Dependable env) (n : Nat) (hout : d.out = []) (spec : Bytes) :
    SendState (doSend (env n) d spec) := by
  rw [doSend]
  split
  · exact .ended rfl (failure_sendSyncFail hout (by decide))
  next path text hsplit =>
      simp only
      have hunlink : ∀ unlink : Bool, (if unlink then d.setNode path none else d).out = [] := by
        intro unlink
        cases unlink with
        | true => exact hout
        | false => exact hout
      split
      · exact .ended rfl (failure_sendSyncFail hout (by decide))
      · split
        · exact .linkTarget path rfl (hunlink _)
        · exact sendState_handleSendFile h n (hunlink _) path _ _

/-- The service waits for a request or has ended the session, and everything
that it wrote has been read. -/
structure AtRequest (p : Progress Service UInt8) : Prop where
  buffer : p.buffer = []
  out : p.state.out = []
  phase : p.state.phase = .request ∨ p.state.phase = .ended

theorem feed_ended (hphase : d.phase = .ended) (bytes : Bytes) :
    (fileSyncService env).feed ⟨d, []⟩ bytes = ⟨d, []⟩ := by
  apply Consumer.feed_of_stopped
  show d.phase.need = 0
  rw [hphase]
  rfl

theorem feed_atRequest (env : Nat → Answers) {p : Progress Service UInt8} (hp : AtRequest p) {id : Nat}
    (hid : id < 2 ^ 32) {name : Bytes} (hname : name.length ≤ maxPathLength) :
    (p.state.phase = .request ∧ (fileSyncService env).feed p (frame id name) =
      ⟨handleName (env p.state.commands) (named p.state id name) id name, []⟩) ∨
    (p.state.phase = .ended ∧ (fileSyncService env).feed p (frame id name) = p) := by
  obtain ⟨d, buffer⟩ := p
  obtain rfl : buffer = [] := hp.buffer
  rcases hp.phase with hphase | hphase
  · exact .inl ⟨hphase, feed_request hphase hid hname⟩
  · exact .inr ⟨hphase, feed_ended hphase _⟩

theorem sendState_request (h : Dependable env) {p : Progress Service UInt8} (hp : AtRequest p)
    {name : Bytes} (hname : name.length ≤ maxPathLength) :
    ∃ d, (fileSyncService env).feed p (frame idSend name) = ⟨d, []⟩ ∧ SendState d := by
  rcases feed_atRequest env hp (show idSend < 2 ^ 32 by decide) hname with
    ⟨-, hfeed⟩ | ⟨hphase, hfeed⟩
  · refine ⟨_, hfeed, ?_⟩
    have hout : (named p.state idSend name).out = [] := by
      rw [named_out, hp.out]
    exact sendState_doSend h _ hout _
  · refine ⟨p.state, ?_, .ended hphase (.inl hp.out)⟩
    rw [hfeed, ← hp.buffer]

theorem sendState_handleChunk (h : Dependable env) (n : Nat) (hout : d.out = [])
    (sending : Sending) (bytes : Bytes) : SendState (handleChunk (env n) d sending bytes) := by
  rw [handleChunk]
  split
  · exact .receiving _ rfl hout
  · exact .discarding _ _ rfl (failure_sendSyncFailErrno h n hout (by decide))

theorem sendState_handleLinkChunk (h : Dependable env) (n : Nat) (hout : d.out = [])
    (path bytes : Bytes) : SendState (handleLinkChunk (env n) d path bytes) := by
  have hfail : ∀ reason, (ascii reason).length < 2 ^ 16 →
      SendState (sendSyncFailErrno (env n) d reason).finish := by
    intro reason hreason
    exact .ended rfl (failure_sendSyncFailErrno h n hout hreason)
  simp only [handleLinkChunk]
  split
  · exact .linkEnd rfl hout
  · split
    · exact hfail _ (by decide)
    · split
      · exact .linkEnd rfl hout
      · exact hfail _ (by decide)
  · exact hfail _ (by decide)

theorem feed_frame (hneed : d.phase.need = headerSize) (id : Nat) (data : Bytes) :
    (fileSyncService env).feed ⟨d, []⟩ (frame id data) =
      (fileSyncService env).feed ⟨advance env d (header id data.length), []⟩ data := by
  rw [frame, Consumer.feed_append, feed_header hneed]

theorem sendState_data_receiving (h : Dependable env) {sending : Sending}
    (hphase : d.phase = .data sending) (hout : d.out = []) {data : Bytes}
    (hdata : data.length < 2 ^ 32) :
    ∃ d', (fileSyncService env).feed ⟨d, []⟩ (frame idData data) = ⟨d', []⟩ ∧ SendState d' := by
  by_cases hsize : data.length ≤ syncDataMax
  · refine ⟨_, feed_data hphase hsize, ?_⟩
    exact sendState_handleChunk h _ (by rw [filled_out, hout]) sending data
  · have hneed : d.phase.need = headerSize := by
      rw [hphase]
      rfl
    have hnext : advance env d (header idData data.length) =
        sendAbort (env d.commands) (sendSyncFail d (ascii "oversize data message"))
          sending.path sending.doUnlink := by
      simp only [advance, hphase, handleData, headerLength_header idData hdata,
        headerId_header' (show idData < 2 ^ 32 by decide)]
      rw [if_neg idDone_ne_idData.symm, if_neg (by simp), if_pos (by omega)]
    rw [feed_frame hneed, hnext, feed_ended (sendAbort_phase _ _ _)]
    refine ⟨_, rfl, .ended (sendAbort_phase _ _ _) ?_⟩
    rw [sendAbort_out]
    exact failure_sendSyncFail hout (by decide)

theorem sendState_data_linkTarget (h : Dependable env) {path : Bytes}
    (hphase : d.phase = .linkData path) (hout : d.out = []) {data : Bytes}
    (hdata : data.length < 2 ^ 32) :
    ∃ d', (fileSyncService env).feed ⟨d, []⟩ (frame idData data) = ⟨d', []⟩ ∧ SendState d' := by
  have hneed : d.phase.need = headerSize := by
    rw [hphase]
    rfl
  rw [feed_frame hneed]
  simp only [advance, hphase, handleLinkData, headerLength_header idData hdata,
    headerId_header' (show idData < 2 ^ 32 by decide)]
  rw [if_neg (by simp)]
  split
  · refine ⟨_, feed_ended rfl data, ?_⟩
    exact .ended rfl (failure_sendSyncFail hout (by decide))
  · split
    next hzero =>
        rw [List.length_eq_zero_iff.mp hzero]
        exact ⟨_, rfl, sendState_handleLinkChunk h _ hout path []⟩
    next hpos =>
        have hne : data ≠ [] := fun hnil => hpos (by simp [hnil])
        refine ⟨_, feed_body hne rfl, ?_⟩
        exact sendState_handleLinkChunk h _ hout path data

theorem sendState_data_linkEnd (hphase : d.phase = .linkDone) (hout : d.out = [])
    (data : Bytes) :
    ∃ d', (fileSyncService env).feed ⟨d, []⟩ (frame idData data) = ⟨d', []⟩ ∧ SendState d' := by
  have hneed : d.phase.need = headerSize := by
    rw [hphase]
    rfl
  rw [feed_frame hneed]
  simp only [advance, hphase, handleLinkDone, headerId_header' (show idData < 2 ^ 32 by decide)]
  rw [if_neg idDone_ne_idData.symm]
  refine ⟨_, feed_ended rfl data, ?_⟩
  exact .ended rfl (failure_sendSyncFail hout (by decide))

theorem sendState_data_discarding {path : Bytes} {doUnlink : Bool}
    (hphase : d.phase = .discard path doUnlink) (hout : Failure d.out) {data : Bytes}
    (hdata : data.length < 2 ^ 32) :
    ∃ d', (fileSyncService env).feed ⟨d, []⟩ (frame idData data) = ⟨d', []⟩ ∧ SendState d' := by
  have hneed : d.phase.need = headerSize := by
    rw [hphase]
    rfl
  rw [feed_frame hneed]
  simp only [advance, hphase, handleDiscard, headerLength_header idData hdata,
    headerId_header' (show idData < 2 ^ 32 by decide)]
  split
  · refine ⟨_, feed_ended (sendAbort_phase _ _ _) data, .ended (sendAbort_phase _ _ _) ?_⟩
    rw [sendAbort_out]
    exact hout
  · split
    next hzero =>
        rw [List.length_eq_zero_iff.mp hzero]
        exact ⟨_, rfl, .discarding path doUnlink rfl hout⟩
    next hpos =>
        have hne : data ≠ [] := fun hnil => hpos (by simp [hnil])
        exact ⟨_, feed_body hne rfl, .discarding path doUnlink rfl hout⟩

theorem sendState_data (h : Dependable env) (hd : SendState d) {data : Bytes}
    (hdata : data.length < 2 ^ 32) :
    ∃ d', (fileSyncService env).feed ⟨d, []⟩ (frame idData data) = ⟨d', []⟩ ∧ SendState d' := by
  cases hd with
  | receiving sending hphase hout => exact sendState_data_receiving h hphase hout hdata
  | linkTarget path hphase hout => exact sendState_data_linkTarget h hphase hout hdata
  | linkEnd hphase hout => exact sendState_data_linkEnd hphase hout data
  | discarding path doUnlink hphase hout => exact sendState_data_discarding hphase hout hdata
  | ended hphase hout => exact ⟨d, feed_ended hphase _, .ended hphase hout⟩

theorem sendAnswered_handleDone (h : Dependable env) (n : Nat) (hout : d.out = [])
    (sending : Sending) (timestamp : Nat) :
    SendAnswered (handleDone (env n) d sending timestamp) := by
  rw [handleDone, if_pos (.inr (h.cappedOk n))]
  refine .okay rfl ?_
  show d.out ++ header idOkay 0 = header idOkay 0
  rw [hout, List.nil_append]

/-- The `DONE` message ends the push, whatever came before. -/
theorem sendAnswered_done (h : Dependable env) (hd : SendState d) (mtime : Nat) :
    ∃ d', (fileSyncService env).feed ⟨d, []⟩ (header idDone mtime) = ⟨d', []⟩ ∧
      SendAnswered d' := by
  have hid := headerId_header' (show idDone < 2 ^ 32 by decide) mtime
  cases hd with
  | receiving sending hphase hout =>
      refine ⟨_, feed_header (by rw [hphase]; rfl) idDone mtime, ?_⟩
      simp only [advance, hphase, handleData, hid, if_true]
      exact sendAnswered_handleDone h _ hout sending _
  | linkTarget path hphase hout =>
      refine ⟨_, feed_header (by rw [hphase]; rfl) idDone mtime, ?_⟩
      simp only [advance, hphase, handleLinkData, hid]
      rw [if_pos idDone_ne_idData]
      exact .ended rfl (failure_sendSyncFail hout (by decide))
  | linkEnd hphase hout =>
      refine ⟨_, feed_header (by rw [hphase]; rfl) idDone mtime, ?_⟩
      simp only [advance, hphase, handleLinkDone, hid, if_true]
      refine .okay rfl ?_
      show d.out ++ header idOkay 0 = header idOkay 0
      rw [hout, List.nil_append]
  | discarding path doUnlink hphase hout =>
      refine ⟨_, feed_header (by rw [hphase]; rfl) idDone mtime, ?_⟩
      simp only [advance, hphase, handleDiscard, hid]
      rw [if_pos (.inl idDone_ne_idData)]
      refine .ended (sendAbort_phase _ _ _) ?_
      rw [sendAbort_out]
      exact hout
  | ended hphase hout => exact ⟨d, feed_ended hphase _, .ended hphase hout⟩

end

end Adb.SendStates
