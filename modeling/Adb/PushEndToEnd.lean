import Adb.ProtocolStrings
import Adb.SyncClientRuns
import Adb.SyncServiceRuns

/-!
`adb push` end to end: the bytes that `sync_send` writes make the service store
the file, and the answer makes `sync_send` succeed.
-/

namespace Adb.PushEndToEnd

open Adb.DescriptorIo
open Adb.ExactConsumers
open Adb.Numerals
open Adb.ServiceConnection
open Adb.StoppingPrograms
open Adb.SyncClient
open Adb.SyncClientRuns
open Adb.SyncMessages
open Adb.SyncService
open Adb.SyncServiceRuns
open Adb.WirePackets

/-- No call of the command fails, but for a missing directory that is made. -/
structure NoFileSystemError (answers : Answers) : Prop where
  unlinked : answers.unlinked = true
  created : answers.created = none ∨
    (answers.created = some .enoent ∧ answers.madeDirs = true ∧ answers.createdAgain = none)
  chowned : answers.chowned = true
  chmoded : answers.chmoded = true
  chunkWritten : ∀ n, answers.chunkWritten n = true
  cappedOk : answers.cappedOk = true
  timed : answers.timed = true
  linked : answers.linked = none ∨
    (answers.linked = some .enoent ∧ answers.madeDirs = true ∧ answers.linkedAgain = none)

/-- The owner and the mode that `do_send` chooses. -/
def sendConfig (answers : Answers) (path : Bytes) (mode : Nat) : FsConfig :=
  if shouldUseFsConfig path then answers.fsConfig else ⟨noId, noId, sharedMode mode, 0⟩

def ownerOf (id : Nat) : Nat := if id = noId then 0 else id

def storedFile (config : FsConfig) (content : Bytes) (mtime capabilities : Nat) : RegularFile :=
  ⟨content, config.mode, mtime, ownerOf config.uid, ownerOf config.gid, capabilities⟩

/-- The service in the middle of a file. -/
def receiving (d : Service) (path : Bytes) (config : FsConfig) (content : Bytes)
    (chunks : Nat) : Service where
  files := Function.update d.files path (some (.regular (storedFile config content 0 0)))
  phase := .data ⟨path, true, config.capabilities, content.length, chunks⟩
  commands := d.commands
  out := d.out

/-- The service after a push, with its answer. -/
def answered (d : Service) (path : Bytes) (node : Node) : Service where
  files := Function.update d.files path (some node)
  phase := .request
  commands := d.commands + 1
  out := d.out ++ header idOkay 0

/-- A path that a request can hold. -/
def Requestable (path : Bytes) : Prop := 0 ∉ path ∧ path.length ≤ maxPathLength

/-- The request, the data and the end of a push. -/
def pushBytes (pathAndMode : Bytes) (pieces : List Bytes) (mtime : Nat) : Bytes :=
  frame idSend pathAndMode ++ pieces.flatMap (frame idData) ++ header idDone mtime

/-- The file that the service has after a push. -/
def pushedFile (answers : Answers) (path : Bytes) (mode : Nat) (content : Bytes) (mtime : Nat) :
    RegularFile :=
  let config := sendConfig answers path mode
  storedFile config content mtime config.capabilities

section Service

variable {env : Nat → Answers} {answers : Answers} {d : Service} {path : Bytes}

theorem splitLastComma_pathAndMode (rpath : Bytes) (mode : Nat) :
    splitLastComma (pathAndMode rpath mode) = some (rpath, printInt mode) :=
  splitLastComma_append rpath (comma_not_mem_printInt mode)

theorem openTarget_absent (h : NoFileSystemError answers) (habsent : d.files path = none)
    (file : RegularFile) :
    openTarget answers d path file = some (.ok (d.setNode path (some (.regular file)))) := by
  have hopen : openExclusive d path none file =
      .ok (d.setNode path (some (.regular file))) := by
    simp [openExclusive, habsent]
  have herror : ∀ e, openExclusive d path (some e) file = .error e := by
    simp [openExclusive, habsent]
  rcases h.created with hcreated | ⟨hcreated, hdirs, hagain⟩
  · simp [openTarget, hopen, hcreated]
  · simp [openTarget, hopen, herror, hcreated, hdirs, hagain]

theorem handleSendFile_absent (h : NoFileSystemError answers) (habsent : d.files path = none)
    (config : FsConfig) :
    handleSendFile answers d path config true = receiving d path config [] 0 := by
  simp [handleSendFile, openTarget_absent h habsent, h.chowned, setOwner, Service.setNode,
    Service.goto, h.chmoded, receiving, storedFile, ownerOf]

theorem doSend_file (h : NoFileSystemError answers) (htarget : isUnlinkable (d.files path) = true)
    {mode : Nat} (hmode : mode < 2 ^ 32) (hlink : sIsLnk mode = false) :
    doSend answers d (pathAndMode path mode) =
      receiving d path (sendConfig answers path mode) [] 0 := by
  obtain ⟨hvalue, herange⟩ := strtoul_printInt hmode
  simp only [doSend, splitLastComma_pathAndMode, hvalue, herange, htarget, h.unlinked, hlink]
  have habsent : (d.setNode path none).files path = none := by
    simp [Service.setNode]
  have hold : receiving (d.setNode path none) path (sendConfig answers path mode) [] 0 =
      receiving d path (sendConfig answers path mode) [] 0 := by
    simp [receiving, Service.setNode]
  exact (handleSendFile_absent h habsent (sendConfig answers path mode)).trans hold

theorem doSend_link (h : NoFileSystemError answers) (htarget : isUnlinkable (d.files path) = true)
    {mode : Nat} (hmode : mode < 2 ^ 32) (hlink : sIsLnk mode = true) :
    doSend answers d (pathAndMode path mode) =
      (d.setNode path none).goto (.linkData path) := by
  obtain ⟨hvalue, herange⟩ := strtoul_printInt hmode
  simp only [doSend, splitLastComma_pathAndMode, hvalue, herange, htarget, h.unlinked, hlink,
    Bool.and_self, Bool.false_eq_true, if_false, if_true]

theorem writeNode_end (file : RegularFile) (bytes : Bytes) :
    writeNode file.content.length bytes (some (.regular file)) =
      some (.regular { file with content := file.content ++ bytes }) := by
  have hdrop : file.content.drop (file.content.length + bytes.length) = [] :=
    List.drop_eq_nil_of_le (Nat.le_add_right _ _)
  rw [writeNode, hdrop, List.take_length, List.append_nil]

theorem feed_chunk (h : NoFileSystemError (env d.commands)) (config : FsConfig) (content : Bytes)
    (chunks : Nat) {data : Bytes} (hdata : data.length ≤ syncDataMax) :
    (fileSyncService env).feed ⟨receiving d path config content chunks, []⟩
        (frame idData data) =
      ⟨receiving d path config (content ++ data) (chunks + 1), []⟩ := by
  have hnode := writeNode_end (storedFile config content 0 0) data
  rw [feed_data rfl hdata]
  simp only [handleChunk, receiving, h.chunkWritten, filled_files, Function.update_self]
  simp only [storedFile] at hnode
  simp [storedFile, hnode, Service.setNode, Service.goto]

theorem feed_chunks (h : NoFileSystemError (env d.commands)) (config : FsConfig)
    (pieces : List Bytes) (hpieces : ∀ piece ∈ pieces, piece.length ≤ syncDataMax)
    (content : Bytes) (chunks : Nat) :
    (fileSyncService env).feed ⟨receiving d path config content chunks, []⟩
        (pieces.flatMap (frame idData)) =
      ⟨receiving d path config (content ++ pieces.flatten) (chunks + pieces.length), []⟩ := by
  induction pieces generalizing content chunks with
  | nil => simp [Consumer.feed]
  | cons piece pieces ih =>
      rw [List.flatMap_cons, Consumer.feed_append,
        feed_chunk h config content chunks (hpieces piece (by simp)),
        ih (fun other hother => hpieces other (by simp [hother]))]
      simp [Nat.add_comm, Nat.add_left_comm]

theorem feed_end (h : NoFileSystemError (env d.commands)) (config : FsConfig) (content : Bytes)
    (chunks : Nat) {mtime : Nat} (hmtime : mtime < 2 ^ 32) :
    (fileSyncService env).feed ⟨receiving d path config content chunks, []⟩
        (header idDone mtime) =
      ⟨answered d path (.regular (storedFile config content mtime config.capabilities)), []⟩ := by
  rw [feed_done rfl hmtime]
  simp [handleDone, receiving, h.cappedOk, h.timed, setCapabilities, setTime, Service.setNode,
    Service.write, Service.again, answered, storedFile]

theorem cString_pathAndMode {mode : Nat} (hpath : Requestable (pathAndMode path mode)) :
    cString (pathAndMode path mode) = pathAndMode path mode :=
  ProtocolStrings.cString_of_not_mem hpath.1

theorem handleName_send (d : Service) {mode : Nat}
    (hpath : Requestable (pathAndMode path mode)) :
    handleName answers d idSend (pathAndMode path mode) =
      doSend answers d (pathAndMode path mode) := by
  rw [handleName, cString_pathAndMode hpath]
  rfl

theorem feed_send (hphase : d.phase = .request) (h : NoFileSystemError (env d.commands))
    (htarget : isUnlinkable (d.files path) = true) {mode : Nat} (hmode : mode < 2 ^ 32)
    (hlink : sIsLnk mode = false) (hpath : Requestable (pathAndMode path mode)) :
    (fileSyncService env).feed ⟨d, []⟩ (frame idSend (pathAndMode path mode)) =
      ⟨receiving d path (sendConfig (env d.commands) path mode) [] 0, []⟩ := by
  rw [feed_request hphase (by decide) hpath.2, handleName_send _ hpath, doSend_file h _ hmode hlink]
  · simp [receiving]
  · simpa using htarget

theorem feed_push (hphase : d.phase = .request) (h : NoFileSystemError (env d.commands))
    (htarget : isUnlinkable (d.files path) = true) {mode : Nat} (hmode : mode < 2 ^ 32)
    (hlink : sIsLnk mode = false) (hpath : Requestable (pathAndMode path mode))
    (pieces : List Bytes) (hpieces : ∀ piece ∈ pieces, piece.length ≤ syncDataMax) {mtime : Nat}
    (hmtime : mtime < 2 ^ 32) :
    (fileSyncService env).feed ⟨d, []⟩ (pushBytes (pathAndMode path mode) pieces mtime) =
      ⟨answered d path (.regular (pushedFile (env d.commands) path mode pieces.flatten mtime)),
        []⟩ := by
  rw [pushBytes, Consumer.feed_append, Consumer.feed_append,
    feed_send hphase h htarget hmode hlink hpath, feed_chunks h _ pieces hpieces,
    feed_end h _ _ _ hmtime, List.nil_append]
  rfl

/-- The service as the handling of the target of a link finds it. -/
def linking (d : Service) (path : Bytes) : Service :=
  (d.setNode path none).goto (.linkData path)

theorem handleLinkChunk_absent (h : NoFileSystemError answers) (habsent : d.files path = none)
    (bytes : Bytes) :
    handleLinkChunk answers d path bytes =
      (d.setNode path (some (.symlink (cString bytes)))).goto .linkDone := by
  rcases h.linked with hlinked | ⟨hlinked, hdirs, hagain⟩
  · simp [handleLinkChunk, habsent, hlinked]
  · simp [handleLinkChunk, habsent, hlinked, hdirs, hagain]

theorem feed_linkTarget (h : NoFileSystemError (env d.commands)) {data : Bytes}
    (hne : data ≠ []) (hdata : data.length ≤ syncDataMax) :
    (fileSyncService env).feed ⟨linking d path, []⟩ (frame idData data) =
      ⟨(d.setNode path (some (.symlink (cString data)))).goto .linkDone, []⟩ := by
  have hlength : headerLength (header idData data.length) = data.length := by
    apply headerLength_header
    simp only [syncDataMax] at hdata
    omega
  have hpos : data.length ≠ 0 := by
    intro hzero
    exact hne (List.length_eq_zero_iff.mp hzero)
  have hheader : advance env (linking d path) (header idData data.length) =
      (linking d path).goto (.linkChunk path data.length) := by
    simp only [advance, linking, Service.goto, handleLinkData, hlength,
      headerId_header' (show idData < 2 ^ 32 by decide)]
    rw [if_neg (by simp), if_neg (by omega), if_neg hpos]
  rw [frame, Consumer.feed_append, feed_header rfl, hheader, feed_body hne rfl]
  have habsent : ((linking d path).goto (.linkChunk path data.length)).files path = none := by
    simp [linking, Service.goto, Service.setNode]
  have hnext : advance env ((linking d path).goto (.linkChunk path data.length)) data =
      handleLinkChunk (env d.commands) ((linking d path).goto (.linkChunk path data.length))
        path data := rfl
  rw [hnext, handleLinkChunk_absent h habsent]
  simp [linking, Service.goto, Service.setNode]

theorem feed_link (hphase : d.phase = .request) (h : NoFileSystemError (env d.commands))
    (htarget : isUnlinkable (d.files path) = true) {mode : Nat} (hmode : mode < 2 ^ 32)
    (hlink : sIsLnk mode = true) (hpath : Requestable (pathAndMode path mode)) {data : Bytes}
    (hne : data ≠ []) (hdata : data.length ≤ syncDataMax) (mtime : Nat) :
    (fileSyncService env).feed ⟨d, []⟩ (pushBytes (pathAndMode path mode) [data] mtime) =
      ⟨answered d path (.symlink (cString data)), []⟩ := by
  have hsend : (fileSyncService env).feed ⟨d, []⟩ (frame idSend (pathAndMode path mode)) =
      ⟨linking d path, []⟩ := by
    rw [feed_request hphase (by decide) hpath.2, handleName_send _ hpath,
      doSend_link h _ hmode hlink]
    · simp [linking, Service.goto, Service.setNode]
    · simpa using htarget
  have hdata' : [data].flatMap (frame idData) = frame idData data := by simp
  rw [pushBytes, Consumer.feed_append, Consumer.feed_append, hsend, hdata',
    feed_linkTarget h hne hdata, feed_header rfl]
  simp [advance, Service.goto, handleLinkDone, headerId_header' (show idDone < 2 ^ 32 by decide),
    Service.write, Service.again, Service.setNode, answered]

end Service

section Client

variable {env : Nat → Answers} {world : World} {s s' s'' : Session}

/-- The client has written some bytes and the service has read them. -/
structure Sends (env : Nat → Answers) (s : Session) (bytes : Bytes) (s' : Session) : Prop where
  service : s'.service = (fileSyncService env).feed s.service bytes
  written : s'.written = s.written ++ bytes
  broken : s'.broken = false
  haveStatV2 : s'.haveStatV2 = s.haveStatV2

theorem Sends.refl (h : s.broken = false) : Sends env s [] s where
  service := rfl
  written := (List.append_nil _).symm
  broken := h
  haveStatV2 := rfl

theorem Sends.trans {first second : Bytes} (h : Sends env s first s')
    (h' : Sends env s' second s'') : Sends env s (first ++ second) s'' where
  service := by rw [h'.service, h.service, Consumer.feed_append]
  written := by rw [h'.written, h.written, List.append_assoc]
  broken := h'.broken
  haveStatV2 := by rw [h'.haveStatV2, h.haveStatV2]

/-- The socket takes everything that is written. -/
structure Connected (world : World) : Prop where
  sent : ∀ n, world.sent n = true
  polled : ∀ n, world.polled n ≠ .failed

variable (env)

theorem sends_writeFdExactly (hworld : Connected world) (hs : s.broken = false)
    (bytes : Bytes) :
    ∃ s', execute (writeFdExactly env world bytes) s = (.ok true, s') ∧ Sends env s bytes s' ∧
      s'.expectDone = s.expectDone := by
  have hok : (world.sent s.calls && !s.broken) = true := by
    rw [hworld.sent, hs]
    rfl
  refine ⟨({ s with calls := s.calls + 1 }).write env (world.sent s.calls) bytes, ?_, ?_, ?_⟩
  · show (Except.ok (world.sent s.calls && !s.broken), _) = _
    rw [hok]
  · constructor
    · simp [Session.write, hworld.sent, hs]
    · simp [Session.write, hworld.sent, hs]
    · simp [Session.write, hworld.sent, hs]
    · simp [Session.write, hworld.sent, hs]
  · simp [Session.write, hworld.sent, hs]

theorem sends_writeRequest (hworld : Connected world) (hs : s.broken = false) (id : Nat)
    (earlier : Nat) (bytes : Bytes) :
    ∃ s', execute (writeRequest env world id earlier bytes) s = (.ok true, s') ∧
      Sends env s bytes s' ∧ s'.expectDone = s.expectDone := by
  have hok : (world.sent s.calls && !s.broken) = true := by
    rw [hworld.sent, hs]
    rfl
  refine ⟨(({ s with calls := s.calls + 1 }).noteRequest (world.sent s.calls) id
    earlier).write env (world.sent s.calls) bytes, ?_, ?_, ?_⟩
  · show (Except.ok (world.sent s.calls && !s.broken), _) = _
    rw [hok]
  · constructor
    · simp [Session.write, Session.noteRequest, hworld.sent, hs]
    · simp [Session.write, Session.noteRequest, hworld.sent, hs]
    · simp [Session.write, Session.noteRequest, hworld.sent, hs]
    · simp [Session.write, Session.noteRequest, hworld.sent, hs]
  · simp [Session.write, Session.noteRequest, hworld.sent, hs]

theorem sends_sendRequest (hworld : Connected world) (hs : s.broken = false) (id : Nat)
    (earlier : Nat) {path : Bytes} (hpath : Requestable path) :
    ∃ s', execute ((connection env world).sendRequest id earlier path) s = (.ok true, s') ∧
      Sends env s (frame id path) s' ∧ s'.expectDone = s.expectDone := by
  have hcString : cString path = path := ProtocolStrings.cString_of_not_mem hpath.1
  simp only [Socket.sendRequest, hcString]
  rw [if_neg (Nat.not_lt.mpr hpath.2)]
  exact sends_writeRequest env hworld hs id earlier (frame id path)

theorem sends_sendSmallFile (hworld : Connected world) (hs : s.broken = false)
    {pathAndMode : Bytes} (hpath : Requestable pathAndMode) (mtime : Nat) (data : Bytes) :
    ∃ s', execute ((pushing env world).sendSmallFile pathAndMode mtime data) s = (.ok true, s') ∧
      Sends env s (pushBytes pathAndMode [data] mtime) s' := by
  have hcString : cString pathAndMode = pathAndMode :=
    ProtocolStrings.cString_of_not_mem hpath.1
  obtain ⟨s', hrun, hsends, -⟩ := sends_writeRequest env hworld hs idSend 0
    (frame idSend pathAndMode ++ frame idData data ++ header idDone mtime)
  refine ⟨{ s' with expectDone := true }, ?_, ?_⟩
  · simp only [SyncPush.sendSmallFile, hcString]
    rw [if_neg (Nat.not_lt.mpr hpath.2), execute_bind_of_ok hrun]
    rfl
  · have hbytes : pushBytes pathAndMode [data] mtime =
        frame idSend pathAndMode ++ frame idData data ++ header idDone mtime := by
      simp [pushBytes]
    rw [hbytes]
    exact ⟨hsends.service, hsends.written, hsends.broken, hsends.haveStatV2⟩

variable {env}

/-- The results of `adb_read` on a file with this content. -/
inductive ReadsFile : List ReadResult → List Bytes → Prop
  | finished : ReadsFile [] []
  | endOfFile (reads : List ReadResult) : ReadsFile (.data [] :: reads) []
  | piece {piece : Bytes} {reads : List ReadResult} {pieces : List Bytes}
      (hpiece : piece ≠ []) (hlength : piece.length ≤ syncDataMax)
      (hreads : ReadsFile reads pieces) : ReadsFile (.data piece :: reads) (piece :: pieces)

theorem ReadsFile.length_le {reads : List ReadResult} {pieces : List Bytes}
    (h : ReadsFile reads pieces) : ∀ piece ∈ pieces, piece.length ≤ syncDataMax := by
  induction h with
  | finished => simp
  | endOfFile reads => simp
  | piece hpiece hlength hreads ih =>
      intro other hother
      rcases List.mem_cons.mp hother with rfl | hother
      · exact hlength
      · exact ih other hother

theorem receivedError_quiet (hworld : Connected world) (hs : s.broken = false)
    (hout : s.service.state.out = []) (hphase : s.service.state.phase ≠ .ended) :
    execute (receivedError world) s = (.ok false, { s with calls := s.calls + 1 }) := by
  rw [receivedError, execute_bind_of_ok (execute_ask world.polled s),
    execute_bind_of_ok (execute_get _)]
  cases hpolled : world.polled s.calls with
  | failed => exact absurd hpolled (hworld.polled s.calls)
  | seen => simp [hout, hphase, hs]
  | quiet => simp

variable {d : Service} {path : Bytes}

theorem sends_sendChunks (hworld : Connected world) (h : NoFileSystemError (env d.commands))
    (hout : d.out = []) (config : FsConfig) {reads : List ReadResult} {pieces : List Bytes}
    (hreads : ReadsFile reads pieces) {content : Bytes} {chunks : Nat} {s : Session}
    (hs : s.broken = false) (hservice : s.service = ⟨receiving d path config content chunks, []⟩) :
    ∃ s', execute ((pushing env world).sendChunks reads) s = (.ok true, s') ∧
      Sends env s (pieces.flatMap (frame idData)) s' := by
  induction hreads generalizing content chunks s with
  | finished => exact ⟨s, rfl, .refl hs⟩
  | endOfFile reads => exact ⟨s, rfl, .refl hs⟩
  | @piece piece reads pieces hpiece hlength hreads ih =>
      obtain ⟨b, bs, rfl⟩ := List.exists_cons_of_ne_nil hpiece
      obtain ⟨s₁, hwrite, hsends, -⟩ := sends_writeFdExactly env hworld hs
        (frame idData (b :: bs))
      have hservice₁ : s₁.service =
          ⟨receiving d path config (content ++ b :: bs) (chunks + 1), []⟩ := by
        rw [hsends.service, hservice, feed_chunk h config content chunks hlength]
      have hquiet := receivedError_quiet hworld hsends.broken
        (by rw [hservice₁]; exact hout) (by rw [hservice₁]; exact Phase.noConfusion)
      obtain ⟨s', hrest, hsends'⟩ := ih (s := { s₁ with calls := s₁.calls + 1 })
        hsends.broken hservice₁
      have htake : (b :: bs).take syncDataMax = b :: bs := List.take_of_length_le hlength
      have hdie : execute ((pushing env world).writeOrDie (frame idData (b :: bs))) s =
          (.ok ⟨⟩, s₁) := by
        rw [SyncPush.writeOrDie, execute_bind_of_ok hwrite]
        rfl
      refine ⟨s', ?_, ?_⟩
      · rw [SyncPush.sendChunks, htake, execute_bind_of_ok hdie, execute_bind_of_ok hquiet]
        exact hrest
      · exact hsends.trans ⟨hsends'.service, hsends'.written, hsends'.broken, hsends'.haveStatV2⟩

/-- A regular file of the client's machine, with the size that `stat` says. -/
structure LocalFile (world : World) (lpath content : Bytes) : Prop where
  stat : ∀ n, ∃ info, world.stat n lpath = .ok info ∧ info.size = content.length
  readFileToString : ∀ n, world.readFileToString n lpath = some content
  largeStat : ∀ n, ∃ info, world.largeStat n lpath = .ok info
  largeOpened : ∀ n, world.largeOpened n = true
  largeReads : ∀ n, ∃ pieces, ReadsFile (world.largeReads n) pieces ∧ pieces.flatten = content

theorem sends_sendLargeFile (hworld : Connected world) (hs : s.broken = false)
    (hservice : s.service = ⟨d, []⟩) (hphase : d.phase = .request) (hout : d.out = [])
    (h : NoFileSystemError (env d.commands)) (htarget : isUnlinkable (d.files path) = true)
    {mode : Nat} (hmode : mode < 2 ^ 32) (hlink : sIsLnk mode = false)
    (hpath : Requestable (pathAndMode path mode)) (mtime : Nat) {lpath content : Bytes}
    (hlocal : LocalFile world lpath content) :
    ∃ pieces s', pieces.flatten = content ∧ (∀ piece ∈ pieces, piece.length ≤ syncDataMax) ∧
      execute ((pushing env world).sendLargeFile lpath (pathAndMode path mode) mtime) s =
        (.ok true, s') ∧
      Sends env s (pushBytes (pathAndMode path mode) pieces mtime) s' := by
  obtain ⟨s₁, hrequest, hsends, -⟩ := sends_sendRequest env hworld hs idSend 0 hpath
  have hservice₁ : s₁.service =
      ⟨receiving d path (sendConfig (env d.commands) path mode) [] 0, []⟩ := by
    rw [hsends.service, hservice, feed_send hphase h htarget hmode hlink hpath]
  obtain ⟨info, hinfo⟩ := hlocal.largeStat s₁.calls
  obtain ⟨pieces, hpieces, hflatten⟩ := hlocal.largeReads (s₁.calls + 2)
  obtain ⟨s₂, hchunks, hsends₂⟩ := sends_sendChunks (s := { s₁ with calls := s₁.calls + 3 })
    hworld h hout _ hpieces hsends.broken hservice₁
  obtain ⟨s₃, hwrite, hsends₃, -⟩ := sends_writeFdExactly env
    (s := { s₂ with expectDone := true }) hworld hsends₂.broken (header idDone mtime)
  refine ⟨pieces, s₃, hflatten, hpieces.length_le, ?_, ?_⟩
  · rw [SyncPush.sendLargeFile, execute_bind_of_ok hrequest]
    simp only [Bool.not_true, Bool.false_eq_true, if_false]
    rw [execute_bind_of_ok (execute_ask (fun n => world.largeStat n lpath) s₁)]
    simp only [hinfo]
    rw [execute_bind_of_ok (execute_ask world.largeOpened _)]
    simp only [hlocal.largeOpened, Bool.not_true, Bool.false_eq_true, if_false]
    rw [execute_bind_of_ok (execute_ask world.largeReads _), execute_bind_of_ok hchunks]
    simp only [Bool.not_true, Bool.false_eq_true, if_false, setExpectDone]
    rw [execute_bind_of_ok (execute_modify _ _), SyncPush.writeOrDie, bind_assoc,
      execute_bind_of_ok hwrite]
    rfl
  · have hmiddle : Sends env s₁ (pieces.flatMap (frame idData)) { s₂ with expectDone := true } :=
      ⟨hsends₂.service, hsends₂.written, hsends₂.broken, hsends₂.haveStatV2⟩
    exact (hsends.trans hmiddle).trans hsends₃

theorem execute_copyDone (env : Nat → Answers) (world : World)
    (hout : s.service.state.out = header idOkay 0) :
    execute (pushing env world).copyDone s =
      (.ok true, { s.setOut [] with expectDone := false }) := by
  have hread := execute_readFdExactly (s := s) (n := headerSize) (by simp [hout])
  have htake : s.service.state.out.take headerSize = header idOkay 0 := by
    rw [hout]
    exact List.take_of_length_le (by simp)
  have hdrop : s.service.state.out.drop headerSize = [] := by
    rw [hout]
    exact List.drop_eq_nil_of_le (by simp)
  rw [htake, hdrop] at hread
  rw [SyncPush.copyDone, execute_bind_of_ok hread]
  simp only [headerId_header' (show idOkay < 2 ^ 32 by decide), if_true]
  rw [execute_bind_of_ok (execute_expectDone _)]
  cases hexpected : s.expectDone with
  | true =>
      simp only [Session.setOut, hexpected, if_true]
      rfl
  | false => simp [Session.setOut, hexpected]


/-- Both ends are between two commands. -/
structure Idle (s : Session) : Prop where
  phase : s.service.state.phase = .request
  buffer : s.service.buffer = []
  out : s.service.state.out = []
  broken : s.broken = false

theorem Idle.service_eq (h : Idle s) : s.service = ⟨s.service.state, []⟩ := by
  rw [← h.buffer]

/-- The request that `sync_lstat` sends. -/
def lstatRequest (s : Session) (path : Bytes) : Bytes :=
  frame (if s.haveStatV2 then idLstatV2 else idLstatV1) path

/-- The command leaves the files alone and both ends between two commands. -/
structure Looks (s : Session) (bytes : Bytes) (s' : Session) : Prop where
  idle : Idle s'
  files : s'.service.state.files = s.service.state.files
  commands : s'.service.state.commands = s.service.state.commands + 1
  written : s'.written = s.written ++ bytes

theorem looks_of_answer (hs : Idle s) (msg : Bytes) {bytes : Bytes} (hsends : Sends env s bytes s')
    (id : Nat) (name : Bytes)
    (hservice : s'.service = ⟨((named s.service.state id name).write msg).again, []⟩) :
    execute (readFdExactly msg.length) s' = (.ok (some msg), s'.setOut []) ∧
      Looks s bytes (s'.setOut []) := by
  constructor
  · apply execute_readFdExactly_all
    rw [hservice]
    simp [Service.write, Service.again, hs.out]
  · constructor
    · constructor
      · simp [Session.setOut, hservice, Service.again]
      · simp [Session.setOut, hservice]
      · rfl
      · exact hsends.broken
    · simp [Session.setOut, hservice, Service.write, Service.again]
    · simp [Session.setOut, hservice, Service.write, Service.again]
    · exact hsends.written

theorem looks_syncLstat (env : Nat → Answers) (hworld : Connected world) (hs : Idle s) {path : Bytes}
    (hpath : Requestable path) :
    ∃ r s', execute ((connection env world).syncLstat path) s = (.ok r, s') ∧
      Looks s (lstatRequest s path) s' := by
  obtain ⟨s₁, hrun, hsends, -⟩ := sends_sendRequest env hworld hs.broken
    (if s.haveStatV2 then idLstatV2 else idLstatV1) 0 hpath
  have hlstat : execute ((connection env world).sendLstat 0 path) s = (.ok true, s₁) := by
    rw [SyncConnection.sendLstat, execute_bind_of_ok (execute_haveStatV2 s)]
    exact hrun
  have hservice := hsends.service
  rw [hs.service_eq, feed_request hs.phase (by split <;> decide) hpath.2] at hservice
  rw [SyncConnection.syncLstat, execute_bind_of_ok hlstat, if_pos rfl, SyncConnection.finishStat,
    execute_bind_of_ok (execute_haveStatV2 s₁), hsends.haveStatV2]
  cases hv2 : s.haveStatV2 with
  | true =>
      simp only [hv2, if_true] at hservice
      obtain ⟨hread, hlooks⟩ := looks_of_answer hs
        (statV2 (env s.service.state.commands) idLstatV2) hsends idLstatV2 path hservice
      obtain ⟨r, hr⟩ := statAnswer_statV2 world.errnoFromWire (.inl rfl)
        (env s.service.state.commands)
      rw [length_statV2] at hread
      refine ⟨r, s₁.setOut [], ?_, hlooks⟩
      rw [if_pos rfl, execute_bind_of_ok hread]
      simp only [Option.bind_some, hr]
      rfl
  | false =>
      simp only [hv2, Bool.false_eq_true, if_false] at hservice
      obtain ⟨hread, hlooks⟩ := looks_of_answer hs
        (statV1 (env s.service.state.commands)) hsends idLstatV1 path hservice
      obtain ⟨r, hr⟩ := statAnswer_statV1 world.errnoFromWire (env s.service.state.commands)
      rw [length_statV1] at hread
      refine ⟨r, s₁.setOut [], ?_, hlooks⟩
      rw [if_neg (by simp), execute_bind_of_ok hread]
      simp only [Option.bind_some, hr]
      rfl

end Client

/-- A push of these bytes left this node at the path.  The service comes to the
same state in whatever fragments the bytes reach it. -/
structure Delivers (env : Nat → Answers) (s : Session) (rpath : Bytes) (bytes : Bytes)
    (node : Node) (s' : Session) : Prop where
  idle : Idle s'
  files : s'.service.state.files =
    Function.update s.service.state.files rpath (some node)
  written : s'.written = s.written ++ bytes
  handled : ∀ fragments : List Bytes, fragments.flatten = bytes →
    fragments.foldl (fileSyncService env).feed s.service =
      ⟨answered s.service.state rpath node, []⟩

structure LocalLink (world : World) (lpath target : Bytes) : Prop where
  readlink : ∀ n, world.readlink n lpath = some target
  length_lt : target.length < pathMax
  nul_not_mem : 0 ∉ target

/-- What `sync_send` asks before it sends. -/
def Checked (sync : Bool) (rpath : Bytes) (s s' : Session) : Prop :=
  if sync then Looks s (lstatRequest s rpath) s' else s' = s

/-- With `--sync`, the remote file is not up to date. -/
def NotSkipped (env : Nat → Answers) (world : World) (s : Session) (rpath : Bytes)
    (mtime mode : Nat) (sync : Bool) : Prop :=
  sync = true → ∀ info s₁,
    execute ((connection env world).syncLstat rpath) s = (.ok (.ok info), s₁) →
    upToDate mode mtime info = false

section Push

variable {env : Nat → Answers} {world : World} {s s' : Session} {lpath rpath : Bytes}
  {mtime mode : Nat}

theorem delivers_of_sends (world : World) (hs : Idle s) {pieces : List Bytes}
    {pathAndMode : Bytes} {node : Node}
    (hsends : Sends env s (pushBytes pathAndMode pieces mtime) s')
    (hfeed : (fileSyncService env).feed ⟨s.service.state, []⟩
      (pushBytes pathAndMode pieces mtime) = ⟨answered s.service.state rpath node, []⟩) :
    ∃ s'', execute (pushing env world).copyDone s' = (.ok true, s'') ∧
      Delivers env s rpath (pushBytes pathAndMode pieces mtime) node s'' := by
  rw [← hs.service_eq] at hfeed
  have hservice : s'.service = ⟨answered s.service.state rpath node, []⟩ := by
    rw [hsends.service, hfeed]
  refine ⟨_, execute_copyDone env world ?_, ?_⟩
  · rw [hservice]
    simp [answered, hs.out]
  · constructor
    · constructor
      · simp [Session.setOut, hservice, answered]
      · simp [Session.setOut, hservice]
      · rfl
      · exact hsends.broken
    · simp [Session.setOut, hservice, answered]
    · exact hsends.written
    · intro fragments hfragments
      rw [← Consumer.feed_flatten, hfragments, hfeed]

theorem Sends.calls {bytes : Bytes} {n : Nat} (h : Sends env { s with calls := n } bytes s') :
    Sends env s bytes s' :=
  ⟨h.service, h.written, h.broken, h.haveStatV2⟩

theorem Idle.calls (h : Idle s) (n : Nat) : Idle { s with calls := n } :=
  ⟨h.phase, h.buffer, h.out, h.broken⟩

theorem delivers_sendSmallFile (hworld : Connected world) (hs : Idle s)
    (h : NoFileSystemError (env s.service.state.commands))
    (htarget : isUnlinkable (s.service.state.files rpath) = true) (hmode : mode < 2 ^ 32)
    (hlink : sIsLnk mode = false) (hpath : Requestable (pathAndMode rpath mode))
    (hmtime : mtime < 2 ^ 32) {content : Bytes} (hcontent : content.length ≤ syncDataMax) :
    ∃ s' s'', execute ((pushing env world).sendSmallFile (pathAndMode rpath mode) mtime content) s =
        (.ok true, s') ∧ execute (pushing env world).copyDone s' = (.ok true, s'') ∧
      Delivers env s rpath (pushBytes (pathAndMode rpath mode) [content] mtime)
        (.regular (pushedFile (env s.service.state.commands) rpath mode content mtime)) s'' := by
  obtain ⟨s₁, hrun, hsends⟩ := sends_sendSmallFile env hworld hs.broken hpath mtime content
  have hfeed := feed_push hs.phase h htarget hmode hlink hpath [content]
    (by simpa using hcontent) hmtime
  rw [List.flatten_singleton] at hfeed
  obtain ⟨s₂, hdone, hdelivers⟩ := delivers_of_sends world hs hsends hfeed
  exact ⟨s₁, s₂, hrun, hdone, hdelivers⟩

theorem delivers_sendLargeFile (hworld : Connected world) (hs : Idle s)
    (h : NoFileSystemError (env s.service.state.commands))
    (htarget : isUnlinkable (s.service.state.files rpath) = true) (hmode : mode < 2 ^ 32)
    (hlink : sIsLnk mode = false) (hpath : Requestable (pathAndMode rpath mode))
    (hmtime : mtime < 2 ^ 32) {content : Bytes} (hlocal : LocalFile world lpath content) :
    ∃ pieces s' s'', pieces.flatten = content ∧
      (∀ piece ∈ pieces, piece.length ≤ syncDataMax) ∧
      execute ((pushing env world).sendLargeFile lpath (pathAndMode rpath mode) mtime) s =
        (.ok true, s') ∧ execute (pushing env world).copyDone s' = (.ok true, s'') ∧
      Delivers env s rpath (pushBytes (pathAndMode rpath mode) pieces mtime)
        (.regular (pushedFile (env s.service.state.commands) rpath mode content mtime)) s'' := by
  obtain ⟨pieces, s₁, hflatten, hpieces, hrun, hsends⟩ := sends_sendLargeFile hworld hs.broken
    hs.service_eq hs.phase hs.out h htarget hmode hlink hpath mtime hlocal
  have hfeed := feed_push hs.phase h htarget hmode hlink hpath pieces hpieces hmtime
  rw [hflatten] at hfeed
  obtain ⟨s₂, hdone, hdelivers⟩ := delivers_of_sends world hs hsends hfeed
  exact ⟨pieces, s₁, s₂, hflatten, hpieces, hrun, hdone, hdelivers⟩

theorem delivers_link (hworld : Connected world) (hs : Idle s)
    (h : NoFileSystemError (env s.service.state.commands))
    (htarget : isUnlinkable (s.service.state.files rpath) = true) (hmode : mode < 2 ^ 32)
    (hlink : sIsLnk mode = true) (hpath : Requestable (pathAndMode rpath mode))
    {target : Bytes} (hlocal : LocalLink world lpath target) :
    ∃ s', execute ((pushing env world).syncSendFile lpath rpath mtime mode) s = (.ok true, s') ∧
      Delivers env s rpath (pushBytes (pathAndMode rpath mode) [target ++ [0]] mtime)
        (.symlink target) s' := by
  have htake : target.take (pathMax - 1) = target :=
    List.take_of_length_le (Nat.le_sub_one_of_lt hlocal.length_lt)
  have hdata : (target ++ [0]).length ≤ syncDataMax := by
    have hlt := hlocal.length_lt
    simp only [pathMax] at hlt
    simp only [List.length_append, List.length_singleton, syncDataMax]
    omega
  have hcString : cString (target ++ [0]) = target := by
    have hall : ∀ b ∈ target, (decide (b ≠ 0)) = true := by
      intro b hb
      apply decide_eq_true
      rintro rfl
      exact hlocal.nul_not_mem hb
    rw [cString, List.takeWhile_append_of_pos hall]
    simp
  have hs₁ := hs.calls (s.calls + 1)
  obtain ⟨s₁, hrun, hsends⟩ := sends_sendSmallFile env hworld hs₁.broken hpath mtime
    (target ++ [0])
  have hfeed := feed_link hs.phase h htarget hmode hlink hpath (by simp) hdata mtime
  rw [hcString] at hfeed
  obtain ⟨s₂, hdone, hdelivers⟩ := delivers_of_sends world hs hsends.calls hfeed
  refine ⟨s₂, ?_, hdelivers⟩
  rw [SyncPush.syncSendFile]
  simp only [hlink, if_true]
  rw [execute_bind_of_ok (execute_ask (fun n => world.readlink n lpath) s)]
  simp only [hlocal.readlink, htake]
  rw [execute_bind_of_ok hrun]
  exact hdone

theorem delivers_file (hworld : Connected world) (hs : Idle s)
    (h : NoFileSystemError (env s.service.state.commands))
    (htarget : isUnlinkable (s.service.state.files rpath) = true) (hmode : mode < 2 ^ 32)
    (hlink : sIsLnk mode = false) (hpath : Requestable (pathAndMode rpath mode))
    (hmtime : mtime < 2 ^ 32) {content : Bytes} (hlocal : LocalFile world lpath content) :
    ∃ pieces s', pieces.flatten = content ∧ (∀ piece ∈ pieces, piece.length ≤ syncDataMax) ∧
      execute ((pushing env world).syncSendFile lpath rpath mtime mode) s = (.ok true, s') ∧
      Delivers env s rpath (pushBytes (pathAndMode rpath mode) pieces mtime)
        (.regular (pushedFile (env s.service.state.commands) rpath mode content mtime)) s' := by
  obtain ⟨info, hinfo, hsize⟩ := hlocal.stat s.calls
  rw [SyncPush.syncSendFile]
  simp only [hlink, Bool.false_eq_true, if_false]
  rw [execute_bind_of_ok (execute_ask (fun n => world.stat n lpath) s)]
  simp only [hinfo, hsize]
  by_cases hsmall : content.length < syncDataMax
  · have hs₁ := hs.calls (s.calls + 1 + 1)
    obtain ⟨s₁, s₂, hrun, hdone, hdelivers⟩ := delivers_sendSmallFile hworld hs₁ h htarget hmode
      hlink hpath hmtime (Nat.le_of_lt hsmall)
    refine ⟨[content], s₂, by simp, by simpa using Nat.le_of_lt hsmall, ?_,
      hdelivers.idle, hdelivers.files, hdelivers.written, hdelivers.handled⟩
    rw [if_pos hsmall,
      execute_bind_of_ok (execute_ask (fun n => world.readFileToString n lpath) _)]
    simp only [hlocal.readFileToString]
    rw [execute_bind_of_ok hrun]
    exact hdone
  · have hs₁ := hs.calls (s.calls + 1)
    obtain ⟨pieces, s₁, s₂, hflatten, hpieces, hrun, hdone, hdelivers⟩ :=
      delivers_sendLargeFile hworld hs₁ h htarget hmode hlink hpath hmtime hlocal
    refine ⟨pieces, s₂, hflatten, hpieces, ?_,
      hdelivers.idle, hdelivers.files, hdelivers.written, hdelivers.handled⟩
    rw [if_neg hsmall, execute_bind_of_ok hrun]
    exact hdone

theorem Requestable.path (hpath : Requestable (pathAndMode rpath mode)) : Requestable rpath := by
  constructor
  · intro hmem
    exact hpath.1 (List.mem_append_left _ hmem)
  · have hlength := hpath.2
    rw [pathAndMode, List.length_append] at hlength
    omega

theorem execute_syncSend (lpath : Bytes) (hworld : Connected world) (hs : Idle s)
    (hpath : Requestable rpath) {sync : Bool}
    (hsync : NotSkipped env world s rpath mtime mode sync) :
    ∃ s₀, Checked sync rpath s s₀ ∧
      execute ((pushing env world).syncSend lpath rpath mtime mode sync) s =
      execute ((pushing env world).syncSendFile lpath rpath mtime mode) s₀ := by
  cases sync with
  | false => exact ⟨s, rfl, rfl⟩
  | true =>
      obtain ⟨r, s₁, hrun, hlooks⟩ := looks_syncLstat env hworld hs hpath
      refine ⟨s₁, hlooks, ?_⟩
      rw [SyncPush.syncSend, if_pos rfl, execute_bind_of_ok hrun]
      cases r with
      | ok info =>
          simp only
          rw [hsync rfl info s₁ hrun]
          rfl
      | error e => rfl

theorem Checked.idle {sync : Bool} (hs : Idle s) (h : Checked sync rpath s s') :
    Idle s' ∧ s'.service.state.files = s.service.state.files := by
  cases sync with
  | false =>
      have heq : s' = s := h
      rw [heq]
      exact ⟨hs, rfl⟩
  | true =>
      have hlooks : Looks s (lstatRequest s rpath) s' := h
      exact ⟨hlooks.idle, hlooks.files⟩

/-- Every push of a file or of a link is delivered, however the file is read
and however the bytes travel. -/
theorem push_delivers (hworld : Connected world) (hs : Idle s)
    (henv : ∀ n, NoFileSystemError (env n))
    (htarget : isUnlinkable (s.service.state.files rpath) = true) (hmode : mode < 2 ^ 32)
    (hmtime : mtime < 2 ^ 32) (hrpath : 0 ∉ rpath)
    (hlength : (pathAndMode rpath mode).length ≤ 1024) :
    (splitLastComma (pathAndMode rpath mode) = some (rpath, printInt mode) ∧
      (strtoul 0 (printInt mode)).1 % 2 ^ 32 = mode ∧
      (strtoul 0 (printInt mode)).2 = false) ∧
    (∀ sync, NotSkipped env world s rpath mtime mode sync →
      (∀ content, sIsLnk mode = false → LocalFile world lpath content →
        ∃ s₀ pieces s', Checked sync rpath s s₀ ∧ pieces.flatten = content ∧
          (∀ piece ∈ pieces, piece.length ≤ syncDataMax) ∧
          execute ((pushing env world).syncSend lpath rpath mtime mode sync) s = (.ok true, s') ∧
          Delivers env s₀ rpath (pushBytes (pathAndMode rpath mode) pieces mtime)
            (.regular (pushedFile (env s₀.service.state.commands) rpath mode content mtime))
            s') ∧
      (∀ target, sIsLnk mode = true → LocalLink world lpath target →
        ∃ s₀ s', Checked sync rpath s s₀ ∧
          execute ((pushing env world).syncSend lpath rpath mtime mode sync) s = (.ok true, s') ∧
          Delivers env s₀ rpath (pushBytes (pathAndMode rpath mode) [target ++ [0]] mtime)
            (.symlink target) s')) ∧
    (∀ content, sIsLnk mode = false → LocalFile world lpath content →
      content.length ≤ syncDataMax →
      ∃ small large,
        execute ((pushing env world).sendSmallFile (pathAndMode rpath mode) mtime content >>=
          fun _ => (pushing env world).copyDone) s = (.ok true, small) ∧
        execute ((pushing env world).sendLargeFile lpath (pathAndMode rpath mode) mtime >>=
          fun _ => (pushing env world).copyDone) s = (.ok true, large) ∧
        small.service.state.files = large.service.state.files) := by
  have hpath : Requestable (pathAndMode rpath mode) :=
    ⟨nul_not_mem_pathAndMode hrpath mode, hlength⟩
  refine ⟨⟨splitLastComma_pathAndMode rpath mode, strtoul_printInt hmode⟩, ?_, ?_⟩
  · intro sync hsync
    obtain ⟨s₀, hchecked, hrun⟩ := execute_syncSend lpath hworld hs hpath.path hsync
    obtain ⟨hs₀, hfiles⟩ := hchecked.idle hs
    rw [← hfiles] at htarget
    constructor
    · intro content hlink hlocal
      obtain ⟨pieces, s', hflatten, hpieces, hfile, hdelivers⟩ :=
        delivers_file hworld hs₀ (henv _) htarget hmode hlink hpath hmtime hlocal
      exact ⟨s₀, pieces, s', hchecked, hflatten, hpieces, hrun.trans hfile, hdelivers⟩
    · intro target hlink hlocal
      obtain ⟨s', hfile, hdelivers⟩ :=
        delivers_link hworld hs₀ (henv _) htarget hmode hlink hpath hlocal
      exact ⟨s₀, s', hchecked, hrun.trans hfile, hdelivers⟩
  · intro content hlink hlocal hcontent
    obtain ⟨s₁, small, hsmall, hdone, hdelivers⟩ := delivers_sendSmallFile hworld hs (henv _)
      htarget hmode hlink hpath hmtime hcontent
    obtain ⟨pieces, s₂, large, -, -, hlarge, hdone', hdelivers'⟩ := delivers_sendLargeFile
      hworld hs (henv _) htarget hmode hlink hpath hmtime hlocal
    refine ⟨small, large, ?_, ?_, ?_⟩
    · rw [execute_bind_of_ok hsmall, hdone]
    · rw [execute_bind_of_ok hlarge, hdone']
    · rw [hdelivers.files, hdelivers'.files]

end Push

/-- A service on which nothing fails. -/
def quietAnswers : Answers where
  strerror := []
  stat := .error 2
  entries := []
  fileOpened := true
  reads := []
  unlinked := true
  fsConfig := ⟨0, 0, 420, 0⟩
  created := none
  madeDirs := true
  createdAgain := none
  openedExisting := none
  chowned := true
  chmoded := true
  chunkWritten _ := true
  cappedOk := true
  timed := true
  linked := none
  linkedAgain := none

/-- A machine with one file, `abc`. -/
def oneFileWorld : World where
  stat _ _ := .ok ⟨33188, 3, 5⟩
  lstat _ _ := none
  readdir _ _ := none
  readFileToString _ _ := some (ascii "abc")
  largeStat _ _ := .ok ⟨33188, 3, 5⟩
  largeOpened _ := true
  largeReads _ := [.data (ascii "a"), .data (ascii "bc")]
  polled _ := .seen
  readlink _ _ := none
  created _ := true
  written _ := true
  madeDirs _ := true
  setTimeAndMode _ := true
  sent _ := true
  errnoFromWire _ := .other
  basename := id
  dirname := id

def freshSession (files : Files) : Session where
  service := ⟨initialService files, []⟩
  written := []
  haveStatV2 := true
  expectDone := false
  broken := false
  calls := 0
  requests := []

/-- The push of `abc` to a path with a comma. -/
theorem push_delivers_abc :
    ∃ s', execute ((pushing (fun _ => quietAnswers) oneFileWorld).syncSend (ascii "abc")
        (ascii "/a,b") 5 33188 false) (freshSession fun _ => none) = (.ok true, s') ∧
      s'.service.state.files (ascii "/a,b") =
        some (.regular ⟨ascii "abc", 438, 5, 0, 0, 0⟩) := by
  have hlocal : LocalFile oneFileWorld (ascii "abc") (ascii "abc") := by
    constructor
    · intro n
      exact ⟨⟨33188, 3, 5⟩, rfl, by decide⟩
    · intro n
      rfl
    · intro n
      exact ⟨⟨33188, 3, 5⟩, rfl⟩
    · intro n
      rfl
    · intro n
      refine ⟨[ascii "a", ascii "bc"], ?_, by decide⟩
      exact .piece (by decide) (by decide) (.piece (by decide) (by decide) .finished)
  have hquiet : NoFileSystemError quietAnswers :=
    ⟨rfl, .inl rfl, rfl, rfl, fun _ => rfl, rfl, rfl, .inl rfl⟩
  have hpush := @push_delivers (fun _ => quietAnswers) oneFileWorld (freshSession fun _ => none)
    (ascii "abc") (ascii "/a,b") 5 33188 ⟨fun _ => rfl, fun _ => nofun⟩ ⟨rfl, rfl, rfl, rfl⟩
    (fun _ => hquiet) rfl (by decide) (by decide) (by decide) (by decide)
  obtain ⟨s₀, pieces, s', hchecked, -, -, hrun, hdelivers⟩ :=
    (hpush.2.1 false (by simp [NotSkipped])).1 (ascii "abc") (by decide) hlocal
  refine ⟨s', hrun, ?_⟩
  rw [hdelivers.files, Function.update_self]
  rfl

end Adb.PushEndToEnd
