import Adb.SendStates
import Adb.SyncClientRuns

/-!
The two ends of a sync session in step: when the client writes a request, the
service waits for one or has ended the session, and the client has read all
earlier answers.  Only the `LSTAT` requests of one batch are written ahead.
-/

namespace Adb.SyncLockstep

open Adb.DescriptorIo
open Adb.ExactConsumers
open Adb.SendStates
open Adb.ServiceConnection
open Adb.StoppingPrograms
open Adb.SyncClient
open Adb.SyncClientRuns
open Adb.SyncMessages
open Adb.SyncService
open Adb.SyncServiceRuns
open Adb.SyncTransfers
open Adb.WirePackets

/-- The service waits for the request, and nothing is left to read. -/
def Lockstep (r : Request) : Prop :=
  (r.phase = .request ∧ r.buffer = [] ∨ r.phase = .ended) ∧ r.unread = []

instance : DecidablePred Lockstep := fun _ => inferInstanceAs (Decidable (_ ∧ _))

/-- An answer to a `LSTAT` request of this version. -/
def LstatAnswer (v2 : Bool) (answer : Bytes) : Prop :=
  ∃ answers, answer = if v2 then statV2 answers idLstatV2 else statV1 answers

/-- The service waits for the request, and what is left to read are answers to
earlier requests of the same batch. -/
structure InStep (v2 : Bool) (r : Request) : Prop where
  waiting : r.phase = .request ∧ r.buffer = [] ∨ r.phase = .ended
  unread : ∃ answers : List Bytes, answers.length ≤ r.earlier ∧
    (∀ answer ∈ answers, LstatAnswer v2 answer) ∧ r.unread = answers.flatten
  batch : r.earlier ≠ 0 → r.id = if v2 then idLstatV2 else idLstatV1

theorem InStep.lockstep {v2 : Bool} {r : Request} (h : InStep v2 r) (hr : r.earlier = 0) :
    Lockstep r := by
  obtain ⟨answers, hlength, -, hunread⟩ := h.unread
  have hnil : answers = [] := List.length_eq_zero_iff.mp (by omega)
  refine ⟨h.waiting, ?_⟩
  rw [hunread, hnil]
  rfl

/-- Every request so far was in step.  When `batches` is false there were no
batches. -/
structure Logged (v2 batches : Bool) (s : Session) : Prop where
  version : s.haveStatV2 = v2
  inStep : ∀ r ∈ s.requests, InStep v2 r
  single : batches = false → ∀ r ∈ s.requests, r.earlier = 0

/-- The client has yet to read exactly `out`. -/
structure Reading (v2 batches : Bool) (out : Bytes) (s : Session) : Prop where
  logged : Logged v2 batches s
  broken : s.broken = false
  buffer : s.service.buffer = []
  out : s.service.state.out = out
  phase : s.service.state.phase = .request ∨ s.service.state.phase = .ended

/-- The client is between two commands. -/
def Between (v2 batches : Bool) (s : Session) : Prop :=
  Logged v2 batches s ∧ (s.broken = true ∨ AtRequest s.service)

/-- The client reads the answers of `count` requests. -/
inductive Pending (v2 batches : Bool) (count : Nat) (s : Session) : Prop
  | answers (answers : List Bytes) (hcount : answers.length = count)
      (hanswers : ∀ answer ∈ answers, LstatAnswer v2 answer)
      (hphase : s.service.state.phase = .request)
      (hreading : Reading v2 batches answers.flatten s)
  | ended (hphase : s.service.state.phase = .ended) (hreading : Reading v2 batches [] s)

/-- Nothing fails on the client's machine between a request and the end of its
answer, and a file that is read whole has less than 4 GiB. -/
structure Uninterrupted (world : World) : Prop where
  largeStat : ∀ n path, ∃ info, world.largeStat n path = .ok info
  largeOpened : ∀ n, world.largeOpened n = true
  largeReads : ∀ n, ∀ result ∈ world.largeReads n, ∃ bytes, result = .data bytes
  created : ∀ n, world.created n = true
  written : ∀ n, world.written n = true
  readFileToString : ∀ n path data, world.readFileToString n path = some data →
    data.length < 2 ^ 32

section

variable {env : Nat → Answers} {world : World} {v2 batches : Bool} {out : Bytes} {s s' : Session}

theorem Reading.between (h : Reading v2 batches [] s) : Between v2 batches s :=
  ⟨h.logged, .inr ⟨h.buffer, h.out, h.phase⟩⟩

theorem Pending.between (h : Pending v2 batches 0 s) : Between v2 batches s := by
  cases h with
  | answers answers hcount hanswers hphase hreading =>
      obtain rfl : answers = [] := List.length_eq_zero_iff.mp hcount
      exact hreading.between
  | ended hphase hreading => exact hreading.between

theorem Logged.calls (h : Logged v2 batches s) (n : Nat) :
    Logged v2 batches { s with calls := n } :=
  ⟨h.version, h.inStep, h.single⟩

theorem Between.calls (h : Between v2 batches s) (n : Nat) :
    Between v2 batches { s with calls := n } :=
  ⟨h.1.calls n, h.2⟩

theorem Reading.calls (h : Reading v2 batches out s) (n : Nat) :
    Reading v2 batches out { s with calls := n } :=
  ⟨h.logged.calls n, h.broken, h.buffer, h.out, h.phase⟩

theorem Logged.setOut (h : Logged v2 batches s) (rest : Bytes) :
    Logged v2 batches (s.setOut rest) :=
  ⟨h.version, h.inStep, h.single⟩

theorem Reading.setOut (h : Reading v2 batches out s) (rest : Bytes) :
    Reading v2 batches rest (s.setOut rest) :=
  ⟨h.logged.setOut rest, h.broken, h.buffer, rfl, h.phase⟩

theorem ensures_ask {α : Type} {answer : Nat → α} {post : α → Session → Prop}
    {stop : Session → Prop} (h : post (answer s.calls) { s with calls := s.calls + 1 }) :
    Ensures (ask answer) s post stop :=
  ensures_of_ok (execute_ask answer s) h

theorem read_front (hs : Reading v2 batches out s) (front rest : Bytes)
    (hout : out = front ++ rest) :
    execute (readFdExactly front.length) s = (.ok (some front), s.setOut rest) := by
  have hlength : front.length ≤ s.service.state.out.length := by
    rw [hs.out, hout, List.length_append]
    omega
  rw [execute_readFdExactly hlength, hs.out, hout, List.take_left, List.drop_left]

theorem read_ended (hs : Reading v2 batches [] s) (hphase : s.service.state.phase = .ended)
    {n : Nat} (hn : n ≠ 0) : execute (readFdExactly n) s = (.ok none, s.setOut []) := by
  have hlength : ¬ n ≤ s.service.state.out.length := by
    rw [hs.out, List.length_nil]
    omega
  rw [readFdExactly, execute_bind_of_ok (execute_get s)]
  simp only [if_neg hlength, hphase, or_true, if_true]
  rw [execute_bind_of_ok (execute_modify _ s)]
  rfl

/-- A request that has been written moves the service. -/
structure Wrote (env : Nat → Answers) (v2 batches : Bool) (s : Session) (bytes : Bytes)
    (s' : Session) : Prop where
  logged : Logged v2 batches s'
  unbroken : s.broken = false
  broken : s'.broken = false
  service : s'.service = (fileSyncService env).feed s.service bytes

theorem ensures_writeRequest (env : Nat → Answers) (world : World)
    (hlogged : Logged v2 batches s) {id earlier : Nat}
    (hinStep : s.broken = true ∨ InStep v2
      ⟨id, s.service.state.phase, s.service.buffer, s.service.state.out, earlier⟩)
    (hsingle : batches = false → earlier = 0) (bytes : Bytes) :
    Ensures (writeRequest env world id earlier bytes) s
      (fun ok s' => if ok then Wrote env v2 batches s bytes s' else Between v2 batches s')
      (Logged v2 batches) := by
  show if (world.sent s.calls && !s.broken) = true then _ else _
  by_cases hok : (world.sent s.calls && !s.broken) = true
  · rw [if_pos hok]
    have hbroken : s.broken = false := by
      simpa using (Bool.and_eq_true_iff.mp hok).2
    have hnew := hinStep.resolve_left (by simp [hbroken])
    refine ⟨⟨?_, ?_, ?_⟩, hbroken, ?_, ?_⟩
    · simp [Session.write, Session.noteRequest, hok, hlogged.version]
    · intro r hr
      simp only [Session.write, Session.noteRequest, hok, if_true, List.mem_append,
        List.mem_singleton] at hr
      rcases hr with hr | rfl
      · exact hlogged.inStep r hr
      · exact hnew
    · intro hbatches r hr
      simp only [Session.write, Session.noteRequest, hok, if_true, List.mem_append,
        List.mem_singleton] at hr
      rcases hr with hr | rfl
      · exact hlogged.single hbatches r hr
      · exact hsingle hbatches
    · simp [Session.write, Session.noteRequest, (Bool.and_eq_true_iff.mp hok).1, hbroken]
    · simp [Session.write, Session.noteRequest, hok]
  · rw [if_neg hok]
    refine ⟨⟨?_, ?_, ?_⟩, .inl ?_⟩
    · simp [Session.write, Session.noteRequest, hok, hlogged.version]
    · simpa [Session.write, Session.noteRequest, hok] using hlogged.inStep
    · simpa [Session.write, Session.noteRequest, hok] using hlogged.single
    · simp [Session.write, Session.noteRequest, hok]

theorem AtRequest.inStep (h : AtRequest s.service) (v2 : Bool) (id : Nat) :
    InStep v2 ⟨id, s.service.state.phase, s.service.buffer, s.service.state.out, 0⟩ where
  waiting := by
    rcases h.phase with hphase | hphase
    · exact .inl ⟨hphase, h.buffer⟩
    · exact .inr hphase
  unread := ⟨[], Nat.le_refl 0, by simp, h.out⟩
  batch hne := absurd rfl hne

/-- A single request has been written to a service that waits for it. -/
def Asked (env : Nat → Answers) (v2 batches : Bool) (id : Nat) (s : Session) : Prop :=
  Logged v2 batches s ∧ s.broken = false ∧ ∃ p name, AtRequest p ∧
    name.length ≤ maxPathLength ∧ s.service = (fileSyncService env).feed p (frame id name)

theorem ensures_sendRequest (hs : Between v2 batches s) (id : Nat) (path : Bytes) :
    Ensures ((connection env world).sendRequest id 0 path) s
      (fun ok s' => if ok then Asked env v2 batches id s' else Between v2 batches s')
      (Logged v2 batches) := by
  rw [Socket.sendRequest]
  split
  · exact ensures_pure hs
  next hlength =>
      have hinStep := hs.2.imp_right fun h => AtRequest.inStep h v2 id
      refine (ensures_writeRequest env world hs.1 hinStep (fun _ => rfl)
        (frame id (cString path))).imp ?_ fun _ hstop => hstop
      intro ok s' hpost
      cases ok with
      | false => exact hpost
      | true =>
          have hwrote : Wrote env v2 batches s (frame id (cString path)) s' := hpost
          have hat := hs.2.resolve_left (by simp [hwrote.unbroken])
          exact ⟨hwrote.logged, hwrote.broken, s.service, cString path, hat, by omega,
            hwrote.service⟩

theorem Logged.reading (hlogged : Logged v2 batches s) (hbroken : s.broken = false)
    {p : Progress Service UInt8} (hp : AtRequest p) (hservice : s.service = p) :
    Reading v2 batches [] s := by
  subst hservice
  exact ⟨hlogged, hbroken, hp.buffer, hp.out, hp.phase⟩

theorem Logged.reading_answer (hlogged : Logged v2 batches s) (hbroken : s.broken = false)
    {d : Service} {answer : Bytes} (hservice : s.service = ⟨(d.write answer).again, []⟩) :
    Reading v2 batches (d.out ++ answer) s where
  logged := hlogged
  broken := hbroken
  buffer := by rw [hservice]
  out := by
    rw [hservice]
    rfl
  phase := by
    rw [hservice]
    exact .inl rfl

theorem handleName_lstat (answers : Answers) (d : Service) (v2 : Bool) (name : Bytes) :
    handleName answers d (if v2 then idLstatV2 else idLstatV1) name =
      (d.write (if v2 then statV2 answers idLstatV2 else statV1 answers)).again := by
  cases v2 with
  | true => rfl
  | false => rfl

theorem lstatId_lt (v2 : Bool) : (if v2 then idLstatV2 else idLstatV1) < 2 ^ 32 := by
  cases v2 with
  | true => decide
  | false => decide

theorem Pending.wrote {count : Nat} (hs : Pending v2 batches count s) {name : Bytes}
    (hname : name.length ≤ maxPathLength)
    (h : Wrote env v2 batches s (frame (if v2 then idLstatV2 else idLstatV1) name) s') :
    Pending v2 batches (count + 1) s' := by
  have hservice := h.service
  cases hs with
  | answers answers hcount hanswers hphase hreading =>
      have hstate : s.service = ⟨s.service.state, []⟩ := by rw [← hreading.buffer]
      rw [hstate, feed_request hphase (lstatId_lt v2) hname, handleName_lstat] at hservice
      have hnew := h.logged.reading_answer h.broken hservice
      rw [named_out, hreading.out] at hnew
      refine .answers (answers ++ [if v2 then statV2 (env s.service.state.commands) idLstatV2
        else statV1 (env s.service.state.commands)]) ?_ ?_ ?_ ?_
      · simp [hcount]
      · intro answer hanswer
        rcases List.mem_append.mp hanswer with hanswer | hanswer
        · exact hanswers answer hanswer
        · exact ⟨_, List.mem_singleton.mp hanswer⟩
      · rw [hservice]
        rfl
      · simpa using hnew
  | ended hphase hreading =>
      have hstate : s.service = ⟨s.service.state, []⟩ := by rw [← hreading.buffer]
      rw [hstate, feed_ended hphase, ← hstate] at hservice
      refine .ended (by rw [hservice, hphase]) ?_
      exact h.logged.reading h.broken ⟨hreading.buffer, hreading.out, hreading.phase⟩ hservice

theorem Reading.pending (h : Reading v2 batches [] s) : Pending v2 batches 0 s := by
  rcases h.phase with hphase | hphase
  · exact .answers [] rfl (by simp) hphase h
  · exact .ended hphase h

theorem Pending.reading {count : Nat} (h : Pending v2 batches count s) :
    ∃ answers : List Bytes, answers.length ≤ count ∧
      (∀ answer ∈ answers, LstatAnswer v2 answer) ∧ Reading v2 batches answers.flatten s := by
  cases h with
  | answers answers hcount hanswers hphase hreading =>
      exact ⟨answers, Nat.le_of_eq hcount, hanswers, hreading⟩
  | ended hphase hreading => exact ⟨[], Nat.zero_le _, by simp, hreading⟩

theorem Pending.inStep {count : Nat} (h : Pending v2 batches count s) :
    InStep v2 ⟨if v2 then idLstatV2 else idLstatV1, s.service.state.phase, s.service.buffer,
      s.service.state.out, count⟩ := by
  obtain ⟨answers, hlength, hanswers, hreading⟩ := h.reading
  refine ⟨?_, ⟨answers, hlength, hanswers, hreading.out⟩, fun _ => rfl⟩
  rcases hreading.phase with hphase | hphase
  · exact .inl ⟨hphase, hreading.buffer⟩
  · exact .inr hphase

theorem ensures_sendLstat {count : Nat} (hs : Pending v2 batches count s)
    (hbatches : batches = false → count = 0) {path : Bytes}
    (hpath : (cString path).length ≤ maxPathLength) :
    Ensures ((connection env world).sendLstat count path) s
      (fun ok s' => if ok then Pending v2 batches (count + 1) s' else Between v2 batches s')
      (Logged v2 batches) := by
  obtain ⟨answers, hlength, hanswers, hreading⟩ := hs.reading
  rw [SyncConnection.sendLstat]
  refine ensures_bind_of_ok (execute_haveStatV2 s) ?_
  rw [hreading.logged.version, Socket.sendRequest]
  simp only [if_neg (Nat.not_lt.mpr hpath)]
  refine (ensures_writeRequest env world hreading.logged (.inr hs.inStep) hbatches _).imp ?_
    fun _ hstop => hstop
  intro ok s' hpost
  cases ok with
  | false => exact hpost
  | true => exact hs.wrote hpath hpost

theorem ensures_sendLstat_single (hs : Between v2 batches s) (path : Bytes) :
    Ensures ((connection env world).sendLstat 0 path) s
      (fun ok s' => if ok then Pending v2 batches 1 s' else Between v2 batches s')
      (Logged v2 batches) := by
  rw [SyncConnection.sendLstat]
  refine ensures_bind_of_ok (execute_haveStatV2 s) ?_
  rw [hs.1.version, Socket.sendRequest]
  split
  · exact ensures_pure hs
  next hlength =>
      have hinStep := hs.2.imp_right fun h => AtRequest.inStep h v2
        (if v2 then idLstatV2 else idLstatV1)
      refine (ensures_writeRequest env world hs.1 hinStep (fun _ => rfl) _).imp ?_
        fun _ hstop => hstop
      intro ok s' hpost
      cases ok with
      | false => exact hpost
      | true =>
          have hwrote : Wrote env v2 batches s _ s' := hpost
          have hat := hs.2.resolve_left (by simp [hwrote.unbroken])
          have hreading := hs.1.reading hwrote.unbroken hat rfl
          exact hreading.pending.wrote (Nat.not_lt.mp hlength) hwrote

/-- An answer that `FinishStat` takes. -/
def StatAnswer (v2 : Bool) (answer : Bytes) : Prop :=
  if v2 then ∃ answers id, (id = idLstatV2 ∨ id = idStatV2) ∧ answer = statV2 answers id
  else ∃ answers, answer = statV1 answers

theorem LstatAnswer.statAnswer {answer : Bytes} (h : LstatAnswer v2 answer) :
    StatAnswer v2 answer := by
  obtain ⟨answers, rfl⟩ := h
  cases v2 with
  | true => exact ⟨answers, idLstatV2, .inl rfl, rfl⟩
  | false => exact ⟨answers, rfl⟩

theorem StatAnswer.length {answer : Bytes} (h : StatAnswer v2 answer) :
    answer.length = if v2 then statV2Size else statV1Size := by
  cases v2 with
  | true =>
      obtain ⟨answers, id, -, rfl⟩ := h
      exact length_statV2 answers id
  | false =>
      obtain ⟨answers, rfl⟩ := h
      exact length_statV1 answers

theorem StatAnswer.taken {answer : Bytes} (h : StatAnswer v2 answer)
    (errnoFromWire : Nat → ClientErrno) : ∃ r, statAnswer errnoFromWire v2 answer = some r := by
  cases v2 with
  | true =>
      obtain ⟨answers, id, hid, rfl⟩ := h
      exact statAnswer_statV2 errnoFromWire hid answers
  | false =>
      obtain ⟨answers, rfl⟩ := h
      exact statAnswer_statV1 errnoFromWire answers

theorem finishStat_answer (env : Nat → Answers) (world : World) (hs : Reading v2 batches out s)
    {answer rest : Bytes} (hanswer : StatAnswer v2 answer) (hout : out = answer ++ rest) :
    ∃ r, execute (connection env world).finishStat s = (.ok r, s.setOut rest) := by
  have hread := read_front hs _ _ hout
  obtain ⟨r, hr⟩ := hanswer.taken world.errnoFromWire
  rw [hanswer.length] at hread
  rw [SyncConnection.finishStat, execute_bind_of_ok (execute_haveStatV2 s), hs.logged.version,
    execute_bind_of_ok hread]
  simp only [Option.bind_some, hr]
  exact ⟨r, rfl⟩

theorem finishStat_ended {post : Except ClientErrno FileInfo → Session → Prop}
    (hs : Reading v2 batches [] s) (hphase : s.service.state.phase = .ended) :
    Ensures (connection env world).finishStat s post (Logged v2 batches) := by
  have hread := read_ended hs hphase (n := if s.haveStatV2 then statV2Size else statV1Size)
    (by split <;> decide)
  rw [SyncConnection.finishStat]
  refine ensures_bind_of_ok (execute_haveStatV2 s) (ensures_bind_of_ok hread ?_)
  exact ensures_throw (hs.logged.setOut [])

theorem ensures_finishStat {count : Nat} (hs : Pending v2 batches (count + 1) s) :
    Ensures (connection env world).finishStat s (fun _ => Pending v2 batches count)
      (Logged v2 batches) := by
  cases hs with
  | answers answers hcount hanswers hphase hreading =>
      obtain ⟨answer, answers, rfl⟩ := List.exists_cons_of_length_eq_add_one hcount
      obtain ⟨r, hrun⟩ := finishStat_answer env world hreading
        (hanswers answer (by simp)).statAnswer List.flatten_cons
      refine ensures_of_ok hrun (.answers answers ?_ ?_ hphase (hreading.setOut _))
      · simpa using hcount
      · intro other hother
        exact hanswers other (by simp [hother])
  | ended hphase hreading => exact finishStat_ended hreading hphase

theorem ensures_syncLstat (hs : Between v2 batches s) (path : Bytes) :
    Ensures ((connection env world).syncLstat path) s (fun _ => Between v2 batches)
      (Logged v2 batches) := by
  rw [SyncConnection.syncLstat]
  refine (ensures_sendLstat_single hs path).bind ?_
  intro ok s₁ hs₁
  cases ok with
  | false => exact ensures_pure hs₁
  | true =>
      exact (ensures_finishStat hs₁).imp (fun _ _ h => Pending.between h) fun _ hstop => hstop

theorem Asked.stat (h : Asked env true batches idStatV2 s) :
    (∃ answer, StatAnswer true answer ∧ Reading true batches answer s) ∨
      (s.service.state.phase = .ended ∧ Reading true batches [] s) := by
  obtain ⟨hlogged, hbroken, p, name, hp, hname, hservice⟩ := h
  rcases feed_atRequest env hp (show idStatV2 < 2 ^ 32 by decide) hname with
    ⟨-, hfeed⟩ | ⟨hphase, hfeed⟩
  · rw [hfeed] at hservice
    have hreading := hlogged.reading_answer hbroken hservice
    rw [named_out, hp.out, List.nil_append] at hreading
    exact .inl ⟨_, ⟨_, _, .inr rfl, rfl⟩, hreading⟩
  · rw [hfeed] at hservice
    exact .inr ⟨by rw [hservice, hphase], hlogged.reading hbroken hp hservice⟩

theorem ensures_syncStat (hs : Between v2 batches s) (path : Bytes) :
    Ensures ((connection env world).syncStat path) s (fun _ => Between v2 batches)
      (Logged v2 batches) := by
  rw [SyncConnection.syncStat]
  refine ensures_bind_of_ok (execute_haveStatV2 s) ?_
  rw [hs.1.version]
  cases v2 with
  | false => exact ensures_pure hs
  | true =>
      refine (ensures_sendRequest hs idStatV2 path).bind ?_
      intro ok s₁ hs₁
      cases ok with
      | false => exact ensures_pure hs₁
      | true =>
          have hasked : Asked env true batches idStatV2 s₁ := hs₁
          rcases hasked.stat with ⟨answer, hanswer, hreading⟩ | ⟨hphase, hreading⟩
          · obtain ⟨r, hrun⟩ := finishStat_answer env world hreading hanswer
              (List.append_nil answer).symm
            exact ensures_of_ok hrun (hreading.setOut []).between
          · exact finishStat_ended hreading hphase

theorem ensures_syncStatFallback (hs : Between v2 batches s) (path : Bytes) :
    Ensures ((pulling env world).syncStatFallback path) s (fun _ => Between v2 batches)
      (Logged v2 batches) := by
  rw [SyncPull.syncStatFallback, SyncClient.syncStatFallback]
  refine (ensures_syncStat hs path).bind ?_
  intro first s₁ hs₁
  split
  · exact ensures_pure hs₁
  · refine (ensures_syncLstat hs₁ path).bind ?_
    intro second s₂ hs₂
    split
    · exact ensures_pure hs₂
    · split
      · refine (ensures_syncLstat hs₂ _).bind ?_
        intro target s₃ hs₃
        split
        · exact ensures_pure hs₃
        · exact ensures_pure hs₃
      · exact ensures_pure hs₂
  · exact ensures_pure hs₁

/-- The client is in the middle of a push. -/
def Sending (v2 batches : Bool) (s : Session) : Prop :=
  Logged v2 batches s ∧ s.broken = false ∧ ∃ d, s.service = ⟨d, []⟩ ∧ SendState d

/-- The client has sent a file whole. -/
def Sent (v2 batches : Bool) (s : Session) : Prop :=
  Logged v2 batches s ∧ s.broken = false ∧ ∃ d, s.service = ⟨d, []⟩ ∧ SendAnswered d

theorem Logged.expectDone (h : Logged v2 batches s) (expected : Bool) :
    Logged v2 batches { s with expectDone := expected } :=
  ⟨h.version, h.inStep, h.single⟩

theorem Between.expectDone (h : Between v2 batches s) (expected : Bool) :
    Between v2 batches { s with expectDone := expected } :=
  ⟨h.1.expectDone expected, h.2⟩

theorem ensures_sendSmallFile (henv : Dependable env) (hs : Between v2 batches s)
    (pathAndMode : Bytes) (mtime : Nat) {data : Bytes} (hdata : data.length < 2 ^ 32) :
    Ensures ((pushing env world).sendSmallFile pathAndMode mtime data) s
      (fun ok s' => if ok then Sent v2 batches s' else Between v2 batches s')
      (Logged v2 batches) := by
  rw [SyncPush.sendSmallFile]
  split
  · exact ensures_pure hs
  next hlength =>
      have hinStep := hs.2.imp_right fun h => AtRequest.inStep h v2 idSend
      refine (ensures_writeRequest env world hs.1 hinStep (fun _ => rfl) _).bind ?_
      intro ok s₁ hs₁
      cases ok with
      | false => exact ensures_throw hs₁.1
      | true =>
          have hwrote : Wrote env v2 batches s _ s₁ := hs₁
          have hat := hs.2.resolve_left (by simp [hwrote.unbroken])
          obtain ⟨d₁, hfeed₁, hd₁⟩ := sendState_request henv hat (Nat.not_lt.mp hlength)
          obtain ⟨d₂, hfeed₂, hd₂⟩ := sendState_data henv hd₁ hdata
          obtain ⟨d₃, hfeed₃, hd₃⟩ := sendAnswered_done henv hd₂ mtime
          have hservice := hwrote.service
          rw [Consumer.feed_append, Consumer.feed_append, hfeed₁, hfeed₂, hfeed₃] at hservice
          exact ⟨hwrote.logged.expectDone true, hwrote.broken, d₃, hservice, hd₃⟩

theorem failure_cases {out : Bytes} (h : Failure out) :
    out = [] ∨ ∃ reason, headerId (header idFail reason.length) = idFail ∧
      headerLength (header idFail reason.length) = reason.length ∧
      out = header idFail reason.length ++ reason := by
  rcases h with hnil | ⟨reason, hreason, hout⟩
  · exact .inl hnil
  · exact .inr ⟨reason, headerId_header' (by decide) _, headerLength_header _ hreason, hout⟩

theorem ensures_reportCopyFailure (hs : Reading v2 batches out s) {msg : Bytes}
    (hmsg : headerLength msg = out.length) :
    Ensures ((connection env world).reportCopyFailure msg) s (fun _ => Reading v2 batches [])
      (Logged v2 batches) := by
  have hread := read_front hs _ _ (List.append_nil out).symm
  rw [Socket.reportCopyFailure, hmsg]
  exact ensures_bind_of_ok hread (ensures_pure (hs.setOut []))

theorem Sent.reading (h : Sent v2 batches s) :
    (∃ d, SendAnswered d ∧ s.service = ⟨d, []⟩ ∧ Reading v2 batches d.out s) := by
  obtain ⟨hlogged, hbroken, d, hservice, hd⟩ := h
  refine ⟨d, hd, hservice, hlogged, hbroken, by rw [hservice], by rw [hservice], ?_⟩
  rw [hservice]
  cases hd with
  | okay hphase hout => exact .inl hphase
  | ended hphase hout => exact .inr hphase

theorem ensures_copyDone (hs : Sent v2 batches s) :
    Ensures (pushing env world).copyDone s (fun _ => Between v2 batches)
      (Logged v2 batches) := by
  obtain ⟨d, hd, hservice, hreading⟩ := hs.reading
  rw [SyncPush.copyDone]
  cases hd with
  | okay hphase hout =>
      have hread := read_front hreading _ _ (hout.trans (List.append_nil _).symm)
      rw [length_header] at hread
      refine ensures_bind_of_ok hread ?_
      simp only [headerId_header' (show idOkay < 2 ^ 32 by decide), if_true]
      refine ensures_bind_of_ok (execute_expectDone _) ?_
      split
      · exact ((hreading.setOut []).between).expectDone false
      · exact ensures_pure (hreading.setOut []).between
  | ended hphase hout =>
      rcases failure_cases hout with hnil | ⟨reason, hid, hlength, hframe⟩
      · rw [hnil] at hreading
        have hread := read_ended hreading (by rw [hservice, hphase])
          (show headerSize ≠ 0 by decide)
        exact ensures_bind_of_ok hread (ensures_pure (hreading.setOut []).between)
      · have hread := read_front hreading _ _ hframe
        rw [length_header] at hread
        refine ensures_bind_of_ok hread ?_
        simp only [hid, if_neg (show idFail ≠ idOkay by decide), ne_eq, not_true, if_false]
        refine (ensures_reportCopyFailure (hreading.setOut reason) hlength).bind ?_
        intro _ s' hs'
        exact ensures_pure hs'.between

theorem Sending.calls (h : Sending v2 batches s) (n : Nat) :
    Sending v2 batches { s with calls := n } :=
  ⟨h.1.calls n, h.2⟩

theorem Sending.expectDone (h : Sending v2 batches s) (expected : Bool) :
    Sending v2 batches { s with expectDone := expected } :=
  ⟨h.1.expectDone expected, h.2⟩

theorem ensures_writeOrDie (hs : Sending v2 batches s) {bytes : Bytes}
    {state : Service → Prop} (hfeed : ∀ d, SendState d →
      ∃ d', (fileSyncService env).feed ⟨d, []⟩ bytes = ⟨d', []⟩ ∧ state d') :
    Ensures ((pushing env world).writeOrDie bytes) s
      (fun _ s' => Logged v2 batches s' ∧ s'.broken = false ∧
        ∃ d, s'.service = ⟨d, []⟩ ∧ state d)
      (Logged v2 batches) := by
  obtain ⟨hlogged, hbroken, d, hservice, hd⟩ := hs
  obtain ⟨d', hfeed', hd'⟩ := hfeed d hd
  rw [SyncPush.writeOrDie]
  cases hsent : world.sent s.calls with
  | true =>
      have hrun : execute (writeFdExactly env world bytes) s =
          (.ok true, ({ s with calls := s.calls + 1 }).write env true bytes) := by
        show (Except.ok (world.sent s.calls && !s.broken),
          ({ s with calls := s.calls + 1 }).write env (world.sent s.calls) bytes) = _
        rw [hsent, hbroken]
        rfl
      refine ensures_bind_of_ok hrun (ensures_pure ⟨⟨?_, ?_, ?_⟩, ?_, d', ?_, hd'⟩)
      · simp [Session.write, hbroken, hlogged.version]
      · simpa [Session.write, hbroken] using hlogged.inStep
      · simpa [Session.write, hbroken] using hlogged.single
      · simp [Session.write, hbroken]
      · simp [Session.write, hbroken, hservice, hfeed']
  | false =>
      have hrun : execute (writeFdExactly env world bytes) s =
          (.ok false, ({ s with calls := s.calls + 1 }).write env false bytes) := by
        show (Except.ok (world.sent s.calls && !s.broken),
          ({ s with calls := s.calls + 1 }).write env (world.sent s.calls) bytes) = _
        rw [hsent]
        rfl
      refine ensures_bind_of_ok hrun (ensures_throw ⟨?_, ?_, ?_⟩)
      · simp [Session.write, hlogged.version]
      · simpa [Session.write] using hlogged.inStep
      · simpa [Session.write] using hlogged.single

theorem ensures_receivedError (hs : Sending v2 batches s) :
    Ensures (receivedError world) s (fun _ => Sending v2 batches) (Logged v2 batches) := by
  rw [receivedError]
  refine ensures_bind_of_ok (execute_ask world.polled s)
    (ensures_bind_of_ok (execute_get _) ?_)
  cases world.polled s.calls with
  | failed => exact ensures_pure (hs.calls _)
  | seen => exact ensures_pure (hs.calls _)
  | quiet => exact ensures_pure (hs.calls _)

theorem ensures_sendChunks (henv : Dependable env) {reads : List ReadResult}
    (hreads : ∀ result ∈ reads, ∃ bytes, result = .data bytes) (hs : Sending v2 batches s) :
    Ensures ((pushing env world).sendChunks reads) s (fun ok s' => ok = true ∧ Sending v2 batches s')
      (Logged v2 batches) := by
  induction reads generalizing s with
  | nil => exact ensures_pure ⟨rfl, hs⟩
  | cons result reads ih =>
      obtain ⟨bytes, rfl⟩ := hreads result (by simp)
      cases bytes with
      | nil => exact ensures_pure ⟨rfl, hs⟩
      | cons b bs =>
          have hlength : ((b :: bs).take syncDataMax).length < 2 ^ 32 := by
            have hle := List.length_take_le syncDataMax (b :: bs)
            simp only [syncDataMax] at hle ⊢
            omega
          rw [SyncPush.sendChunks]
          refine (ensures_writeOrDie hs fun d hd => sendState_data henv hd hlength).bind ?_
          intro _ s₁ hs₁
          refine (ensures_receivedError hs₁).bind ?_
          intro failed s₂ hs₂
          cases failed with
          | true => exact ensures_pure ⟨rfl, hs₂⟩
          | false => exact ih (fun other hother => hreads other (by simp [hother])) hs₂

theorem ensures_sendLargeFile (henv : Dependable env) (hworld : Uninterrupted world)
    (hs : Between v2 batches s) (lpath pathAndMode : Bytes) (mtime : Nat) :
    Ensures ((pushing env world).sendLargeFile lpath pathAndMode mtime) s
      (fun ok s' => if ok then Sent v2 batches s' else Between v2 batches s')
      (Logged v2 batches) := by
  rw [SyncPush.sendLargeFile]
  refine (ensures_sendRequest hs idSend pathAndMode).bind ?_
  intro ok s₁ hs₁
  cases ok with
  | false => exact ensures_pure hs₁
  | true =>
      obtain ⟨hlogged, hbroken, p, name, hp, hname, hservice⟩ := hs₁
      obtain ⟨d₁, hfeed₁, hd₁⟩ := sendState_request henv hp hname
      have hsending : Sending v2 batches s₁ :=
        ⟨hlogged, hbroken, d₁, hservice.trans hfeed₁, hd₁⟩
      obtain ⟨info, hinfo⟩ := hworld.largeStat s₁.calls lpath
      refine ensures_bind_of_ok (execute_ask (fun n => world.largeStat n lpath) s₁) ?_
      simp only [hinfo]
      refine ensures_bind_of_ok (execute_ask _ _) ?_
      simp only [hworld.largeOpened]
      refine ensures_bind_of_ok (execute_ask _ _) ?_
      refine (ensures_sendChunks henv (hworld.largeReads _) (hsending.calls _)).bind ?_
      rintro done s₂ ⟨rfl, hs₂⟩
      refine ensures_bind_of_ok (execute_modify _ s₂) ?_
      refine (ensures_writeOrDie (hs₂.expectDone true)
        fun d hd => sendAnswered_done henv hd mtime).bind ?_
      intro _ s₃ hs₃
      exact ensures_pure hs₃

theorem ensures_syncSendFile (henv : Dependable env) (hworld : Uninterrupted world)
    (hs : Between v2 batches s) (lpath rpath : Bytes) (mtime mode : Nat) :
    Ensures ((pushing env world).syncSendFile lpath rpath mtime mode) s (fun _ => Between v2 batches)
      (Logged v2 batches) := by
  have hfinish : ∀ ok s₁, (if ok = true then Sent v2 batches s₁ else Between v2 batches s₁) →
      Ensures (if ok = true then (pushing env world).copyDone else pure false) s₁
        (fun _ => Between v2 batches) (Logged v2 batches) := by
    intro ok s₁ hs₁
    cases ok with
    | false => exact ensures_pure hs₁
    | true => exact ensures_copyDone hs₁
  rw [SyncPush.syncSendFile]
  split
  · refine ensures_bind_of_ok (execute_ask (fun n => world.readlink n lpath) s) ?_
    split
    · exact ensures_pure (hs.calls _)
    next target htarget =>
        have hlength : (target.take (pathMax - 1) ++ [0]).length < 2 ^ 32 := by
          have hle := List.length_take_le (pathMax - 1) target
          simp only [pathMax] at hle
          simp only [pathMax, List.length_append, List.length_singleton]
          omega
        exact (ensures_sendSmallFile henv (hs.calls _) _ mtime hlength).bind hfinish
  · refine ensures_bind_of_ok (execute_ask (fun n => world.stat n lpath) s) ?_
    split
    · exact ensures_pure (hs.calls _)
    · split
      · refine ensures_bind_of_ok (execute_ask (fun n => world.readFileToString n lpath) _) ?_
        split
        · exact ensures_pure (hs.calls _)
        next data hdata =>
            exact (ensures_sendSmallFile henv (hs.calls _) _ mtime
              (hworld.readFileToString _ _ data hdata)).bind hfinish
      · exact (ensures_sendLargeFile henv hworld (hs.calls _) lpath _ mtime).bind hfinish

theorem ensures_syncSend (henv : Dependable env) (hworld : Uninterrupted world)
    (hs : Between v2 batches s) (lpath rpath : Bytes) (mtime mode : Nat) (sync : Bool) :
    Ensures ((pushing env world).syncSend lpath rpath mtime mode sync) s (fun _ => Between v2 batches)
      (Logged v2 batches) := by
  rw [SyncPush.syncSend]
  split
  · refine (ensures_syncLstat hs rpath).bind ?_
    intro st s₁ hs₁
    split
    · split
      · exact ensures_pure hs₁
      · exact ensures_syncSendFile henv hworld hs₁ lpath rpath mtime mode
    · exact ensures_syncSendFile henv hworld hs₁ lpath rpath mtime mode
  · exact ensures_syncSendFile henv hworld hs lpath rpath mtime mode

end

end Adb.SyncLockstep
