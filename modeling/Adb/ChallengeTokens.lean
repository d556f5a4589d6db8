import Mathlib.Data.List.Induction
import Adb.AuthGate

/-!
The tokens that adbd sends to its transports, and the signatures that are
compared with them.
-/

namespace Adb.ChallengeTokens

open Adb.DescriptorIo
open Adb.WirePackets
open Adb.SocketTable
open Adb.ServerState
open Adb.ServerRuns
open Adb.ServerEffects
open Adb.AuthEffects
open Adb.AuthGate
open Adb.TransitionSystems
open Adb.Histories

/-- Every accepted signature belongs to a token that was sent to the transport
since it was created or last went offline. -/
def FreshChallenges (log : List AuthEvent) : Prop :=
  ∀ before t token signature after,
    log = before ++ .verified t (.signature token signature) :: after →
      ∃ earlier later, before = earlier ++ .challenged t token :: later ∧
        .created t ∉ later ∧ .wentOffline t ∉ later

/-- No token leads to `adbd_auth_verified` twice. -/
def TokensUsedOnce (log : List AuthEvent) : Prop :=
  ∀ before t token signature after,
    log = before ++ .verified t (.signature token signature) :: after →
      ∀ t' signature', .verified t' (.signature token signature') ∉ after

/-- How one event changes what is known of the transport's token. -/
def noteToken (t : TransportRef) (known : Option Bytes) : AuthEvent → Option Bytes
  | .created p => if p = t then none else known
  | .challenged p token => if p = t then some token else known
  | .tokenFailed p => if p = t then none else known
  | _ => known

/-- The token that was last generated for and sent to `t`, if there is one since
`t` was created and since generating a token last failed. -/
def lastChallenge (t : TransportRef) (log : List AuthEvent) : Option Bytes :=
  log.foldl (noteToken t) none

/-- The tokens that were generated and sent. -/
def sentTokens (log : List AuthEvent) : List Bytes :=
  log.filterMap fun
    | .challenged _ token => some token
    | _ => none

/-- Generated tokens are pairwise distinct and non-zero, and generating one never
fails. -/
structure ProperTokens (log : List AuthEvent) : Prop where
  distinct : (sentTokens log).Nodup
  nonzero : zeroToken ∉ sentTokens log
  succeeds : ∀ t, .tokenFailed t ∉ log

/-- Every accepted signature was compared with the last token sent to its
transport, if there is one. -/
def LatestChallenges (cfg : Config) (log : List AuthEvent) : Prop :=
  ∀ before t token signature after,
    log = before ++ .verified t (.signature token signature) :: after →
      cfg.adbdAuthVerify token signature = true ∧
        ∀ sent, lastChallenge t before = some sent → token = sent

/-- A token leads to `adbd_auth_verified` only on the transport that it was sent
to, and only until that transport gets its next token. -/
def TokensBound (log : List AuthEvent) : Prop :=
  ∀ before t token between t' signature after,
    log = before ++ .challenged t token ::
        (between ++ .verified t' (.signature token signature) :: after) →
      t' = t ∧ ∀ token', .challenged t token' ∉ between

/-- The tokens of the transports agree with the history. -/
structure Current (cfg : Config) (st : Server) : Prop where
  known : ∀ t sent, lastChallenge t st.authLog = some sent → (st.transports t).token = sent
  origin : ∀ t, (st.transports t).token = zeroToken ∨
    lastChallenge t st.authLog = some (st.transports t).token ∨ .tokenFailed t ∈ st.authLog
  latest : LatestChallenges cfg st.authLog
  started : ∀ before t token signature after,
    st.authLog = before ++ .verified t (.signature token signature) :: after →
      token = zeroToken ∨ lastChallenge t before = some token ∨ .tokenFailed t ∈ before

section Steps

variable {cfg : Config} {talks : Bool} {st st' : Server} {t : TransportRef} {e : AuthEvent}

theorem lastChallenge_append (t : TransportRef) (log : List AuthEvent) (e : AuthEvent) :
    lastChallenge t (log ++ [e]) = noteToken t (lastChallenge t log) e := by
  simp [lastChallenge]

theorem exists_of_lastChallenge {log : List AuthEvent} {token : Bytes}
    (h : lastChallenge t log = some token) :
    ∃ earlier later, log = earlier ++ .challenged t token :: later ∧
      ∀ token', .challenged t token' ∉ later := by
  induction log using List.reverseRecOn with
  | nil => simp [lastChallenge] at h
  | append_singleton log e ih =>
      have hkept : lastChallenge t log = some token → (∀ token', e ≠ .challenged t token') →
          ∃ earlier later, log ++ [e] = earlier ++ .challenged t token :: later ∧
            ∀ token', .challenged t token' ∉ later := by
        intro hlog he
        obtain ⟨earlier, later, hsplit, hlater⟩ := ih hlog
        refine ⟨earlier, later ++ [e], by simp [hsplit], ?_⟩
        intro token' hmem
        rcases List.mem_append.mp hmem with hmem | hmem
        · exact hlater token' hmem
        · exact he token' (List.mem_singleton.mp hmem).symm
      rw [lastChallenge_append] at h
      cases e with
      | challenged p sent =>
          by_cases hp : p = t
          · subst hp
            obtain rfl : sent = token := by simpa [noteToken] using h
            exact ⟨log, [], rfl, by simp⟩
          · exact hkept (by simpa [noteToken, hp] using h) (by simp [hp])
      | created p | tokenFailed p =>
          by_cases hp : p = t
          · simp [noteToken, hp] at h
          · exact hkept (by simpa [noteToken, hp] using h) (by simp)
      | _ => exact hkept h (by simp)

theorem Current.step (h : Current cfg st) (hlog : st'.authLog = st.authLog ++ [e])
    (htoken : ∀ t, (noteToken t (lastChallenge t st.authLog) e = some (st'.transports t).token) ∨
      (noteToken t (lastChallenge t st.authLog) e = none ∧
        ((st'.transports t).token = zeroToken ∨ .tokenFailed t ∈ st.authLog ++ [e])))
    (hverified : ∀ t token signature, e = .verified t (.signature token signature) →
      cfg.adbdAuthVerify token signature = true ∧ token = (st.transports t).token) :
    Current cfg st' := by
  have hsplits : ∀ {before after : List AuthEvent} {t : TransportRef} {token signature : Bytes},
      st'.authLog = before ++ .verified t (.signature token signature) :: after →
        (∃ middle, st.authLog = before ++ .verified t (.signature token signature) :: middle) ∨
          (before = st.authLog ∧ e = .verified t (.signature token signature)) := by
    intro before after t token signature hsplit
    rw [hlog] at hsplit
    rcases split_append hsplit with ⟨middle, hold, -⟩ | ⟨middle, hnew, hbefore⟩
    · exact .inl ⟨middle, hold⟩
    · cases middle with
      | nil =>
          obtain ⟨he, -⟩ : e = .verified t (.signature token signature) ∧ [] = after := by
            simpa using hnew
          exact .inr ⟨by simpa using hbefore, he⟩
      | cons d middle => simp at hnew
  refine ⟨?_, ?_, ?_, ?_⟩
  · intro t sent hsent
    rw [hlog, lastChallenge_append] at hsent
    rcases htoken t with hknown | ⟨hnone, -⟩
    · exact Option.some.inj (hknown.symm.trans hsent)
    · simp [hnone] at hsent
  · intro t
    rw [hlog, lastChallenge_append]
    rcases htoken t with hknown | ⟨-, horigin⟩
    · exact .inr (.inl hknown)
    · exact horigin.elim .inl fun hfailed => .inr (.inr hfailed)
  · intro before t token signature after hsplit
    rcases hsplits hsplit with ⟨middle, hold⟩ | ⟨rfl, he⟩
    · exact h.latest before t token signature middle hold
    · obtain ⟨hverify, rfl⟩ := hverified t token signature he
      exact ⟨hverify, fun sent hsent => h.known t sent hsent⟩
  · intro before t token signature after hsplit
    rcases hsplits hsplit with ⟨middle, hold⟩ | ⟨rfl, he⟩
    · exact h.started before t token signature middle hold
    · obtain ⟨-, rfl⟩ := hverified t token signature he
      exact h.origin t

theorem Current.keeps (h : Current cfg st) (hlog : st'.authLog = st.authLog)
    (htoken : ∀ t, (st'.transports t).token = (st.transports t).token) : Current cfg st' where
  known t := by
    rw [hlog, htoken]
    exact h.known t
  origin t := by
    rw [hlog, htoken]
    exact h.origin t
  latest := hlog ▸ h.latest
  started := hlog ▸ h.started

theorem Current.other (h : Current cfg st) {t' : TransportRef}
    (htoken : (st'.transports t').token = (st.transports t').token)
    (he : noteToken t' (lastChallenge t' st.authLog) e = lastChallenge t' st.authLog) :
    (noteToken t' (lastChallenge t' st.authLog) e = some (st'.transports t').token) ∨
      (noteToken t' (lastChallenge t' st.authLog) e = none ∧
        ((st'.transports t').token = zeroToken ∨ .tokenFailed t' ∈ st.authLog ++ [e])) := by
  rw [he, htoken]
  cases hknown : lastChallenge t' st.authLog with
  | some sent => exact .inl (congrArg some (h.known t' sent hknown).symm)
  | none =>
      refine .inr ⟨rfl, ?_⟩
      rcases h.origin t' with hzero | hsent | hfailed
      · exact .inl hzero
      · simp [hknown] at hsent
      · exact .inr (List.mem_append_left _ hfailed)

theorem Current.log (h : Current cfg st) (hlog : st'.authLog = st.authLog ++ [e])
    (htoken : ∀ t, (st'.transports t).token = (st.transports t).token)
    (he : ∀ t known, noteToken t known e = known)
    (hverified : ∀ t token signature, e = .verified t (.signature token signature) →
      cfg.adbdAuthVerify token signature = true ∧ token = (st.transports t).token) :
    Current cfg st' :=
  h.step hlog (fun t => h.other (htoken t) (he t _)) hverified

theorem Current.sendAuthRequest (h : Current cfg st) (env : Oracle) :
    Current cfg (sendAuthRequest env st t) := by
  unfold ServerState.sendAuthRequest
  split
  · refine h.step (e := .tokenFailed t) rfl (fun t' => ?_) (by simp)
    by_cases ht : t' = t
    · subst ht
      exact .inr ⟨by simp [noteToken], .inr (by simp)⟩
    · refine h.other ?_ ?_
      · simp [Server.modifyTransport, Server.log, ht]
      · simp [noteToken, Ne.symm ht]
  · rename_i token _
    refine h.step (e := .challenged t token) rfl (fun t' => ?_) (by simp)
    by_cases ht : t' = t
    · subst ht
      exact .inl (by simp [noteToken, Server.modifyTransport, Server.log, Server.send])
    · refine h.other ?_ ?_
      · simp [Server.modifyTransport, Server.log, Server.send, ht]
      · simp [noteToken, Ne.symm ht]

theorem Current.effect (heffect : AuthEffect cfg talks st st') (h : Current cfg st) :
    Current cfg st' := by
  induction heffect with
  | same hsame => exact h.keeps hsame.authLog hsame.token
  | received | acted | answer | delete =>
      exact h.log rfl (fun _ => rfl) (fun _ _ => rfl) (by simp)
  | @online st t _ =>
      refine h.keeps rfl fun t' => ?_
      by_cases ht : t' = t
      · subst ht
        simp [handleOnline, Server.modifyTransport]
      · simp [handleOnline, Server.modifyTransport, ht]
  | @offline st t =>
      refine h.log handleOffline_authLog (fun t' => ?_) (fun _ _ => rfl) (by simp)
      rw [handleOffline_transports]
      split
      · rename_i ht
        rw [ht]
      · rfl
  | challenge env t => exact h.sendAuthRequest env
  | @verify st t cause hcaused huses =>
      refine h.log rfl (fun t' => ?_) (fun _ _ => rfl) ?_
      · by_cases ht : t' = t
        · subst ht
          simp [handleOnline, Server.modifyTransport, Server.log]
        · simp [handleOnline, Server.modifyTransport, Server.log, ht]
      · intro t' token signature he
        obtain ⟨rfl, rfl⟩ : t = t' ∧ cause = .signature token signature := by simpa using he
        exact ⟨hcaused.1, huses⟩
  | @confirm st env t key _ =>
      have htoken : ∀ t', ((adbdAuthConfirmKey env st t key).transports t').token =
          (st.transports t').token := fun t' => by
        simpa using congrArg Atransport.token (adbdAuthConfirmKey_transports key t')
      rcases adbdAuthConfirmKey_log key with hlog | hlog
      · exact h.keeps hlog htoken
      · exact h.log hlog htoken (fun _ _ => rfl) (by simp)
  | framework => exact h.keeps rfl fun _ => rfl
  | @register st t state type _ =>
      refine h.step (e := .created t) rfl (fun t' => ?_) (by simp)
      by_cases ht : t' = t
      · subst ht
        refine .inr ⟨by simp [noteToken], .inl ?_⟩
        simp [Server.log, Server.modifyTransport, Atransport.blank]
      · refine h.other ?_ ?_
        · simp [Server.modifyTransport, Server.log, ht]
        · simp [noteToken, Ne.symm ht]
  | trans _ _ ih₁ ih₂ => exact ih₂ (ih₁ h)

theorem current_of_reachable (h : (serverSystem cfg).Reachable st) : Current cfg st := by
  refine h.invariant (I := Current cfg) ?_ ?_
  · rintro st rfl
    refine ⟨?_, ?_, ?_, ?_⟩ <;>
      simp [Server.initial, lastChallenge, LatestChallenges, Atransport.blank]
  · intro st l hinv henabled _
    exact hinv.effect (authEffect_step henabled.2)

theorem mem_sentTokens {log : List AuthEvent} {token : Bytes}
    (h : .challenged t token ∈ log) : token ∈ sentTokens log :=
  List.mem_filterMap.mpr ⟨_, h, rfl⟩

theorem ProperTokens.sent_once {log before after : List AuthEvent} {token : Bytes}
    (h : ProperTokens log) (hsplit : log = before ++ .challenged t token :: after)
    (t' : TransportRef) : .challenged t' token ∉ after := by
  intro hmem
  have hsent : sentTokens log = sentTokens before ++ token :: sentTokens after := by
    simp [hsplit, sentTokens]
  have hdistinct := h.distinct
  rw [hsent, List.nodup_append] at hdistinct
  exact (List.nodup_cons.mp hdistinct.2.1).1 (mem_sentTokens hmem)

/-- With proper tokens, the last token sent is the only way to a signature. -/
theorem tokensBound_of_current (h : Current cfg st) (hproper : ProperTokens st.authLog) :
    TokensBound st.authLog := by
  intro before t token between t' signature after hsplit
  have hverified : st.authLog = (before ++ .challenged t token :: between) ++
      .verified t' (.signature token signature) :: after := by simpa using hsplit
  have hnonzero : token ≠ zeroToken := by
    rintro rfl
    exact hproper.nonzero (mem_sentTokens (t := t) (by simp [hsplit]))
  have hsent : lastChallenge t' (before ++ .challenged t token :: between) = some token := by
    rcases h.started _ t' token signature after hverified with hzero | hsent | hfailed
    · exact absurd hzero hnonzero
    · exact hsent
    · exact absurd (by rw [hverified]; exact List.mem_append_left _ hfailed)
        (hproper.succeeds t')
  obtain ⟨earlier, later, hlast, hlater⟩ := exists_of_lastChallenge hsent
  rcases split_trichotomy hlast with ⟨-, hsame, rfl⟩ | hmem | hmem
  · obtain rfl : t = t' := by simpa using hsame
    exact ⟨rfl, hlater⟩
  · exact absurd (List.mem_append_left _ hmem) (hproper.sent_once hsplit t')
  · have hearlier : st.authLog = earlier ++ .challenged t' token ::
        (later ++ .verified t' (.signature token signature) :: after) := by
      rw [hverified, hlast, List.append_assoc, List.cons_append]
    exact absurd (List.mem_append_left _ hmem) (hproper.sent_once hearlier t)

end Steps

/-- Every accepted signature belongs to the last token of its transport, and a
proper token leads nowhere else. -/
theorem latestChallenges_of_reachable (cfg : Config) {st : Server}
    (h : (serverSystem cfg).Reachable st) :
    LatestChallenges cfg st.authLog ∧ (ProperTokens st.authLog → TokensBound st.authLog) :=
  ⟨(current_of_reachable h).latest, tokensBound_of_current (current_of_reachable h)⟩

/-- A device whose keys accept one signature of one token. -/
def oneKeyConfig : Config := { plainConfig false true with
  adbdAuthVerify := fun token signature => token = List.replicate 20 1 && signature = [2] }

/-- The transport connects, gets the token and answers with its signature. -/
def verifyOnce : List (Action × Oracle) :=
  [(.register 0 .offline .usb, {}),
    (.packet 0 { command := .aCnxn, arg0 := 0x01000000, arg1 := 4096, data := ascii "host::" },
      { token := .generated (List.replicate 20 1) }),
    (.packet 0 signaturePacket, {})]

/-- After the connection has ended, the same signature comes again. -/
def replaySignature : List (Action × Oracle) :=
  verifyOnce.append [(.packet 0 syncPacket, {}), (.packet 0 signaturePacket, {})]

theorem latestChallenges_verifyOnce :
    (serverSystem oneKeyConfig).Executable (fun _ _ => True) .initial verifyOnce ∧
      LatestChallenges oneKeyConfig
        ((serverSystem oneKeyConfig).execute .initial verifyOnce).authLog ∧
      TokensBound ((serverSystem oneKeyConfig).execute .initial verifyOnce).authLog := by
  have hrun : (serverSystem oneKeyConfig).Executable (fun _ _ => True) .initial verifyOnce := by
    decide
  have hlatest := latestChallenges_of_reachable oneKeyConfig
    (System.reachableWhen_execute ⟨.initial, rfl, .refl⟩ hrun)
  refine ⟨hrun, hlatest.1, hlatest.2 ⟨by decide, by decide, fun t => ?_⟩⟩
  have hlog : ((serverSystem oneKeyConfig).execute .initial verifyOnce).authLog =
      [.created 0, .received 0 _, .challenged 0 _, .received 0 _,
        .verified 0 (.signature (List.replicate 20 1) [2])] := rfl
  simp [hlog]

/-- A device whose keys accept one signature of the initial token. -/
def zeroKeyConfig : Config := { plainConfig false true with
  adbdAuthVerify := fun token signature => token = zeroToken && signature = [2] }

/-- A signature arrives before any token was generated. -/
def verifyUnasked : List (Action × Oracle) :=
  [(.register 0 .offline .usb, {}), (.packet 0 signaturePacket, {})]

/-- The token of the first connection is accepted a second time, after the
transport went offline; and a new transport has a token before one was sent. -/
theorem freshChallenges_fails_replaySignature :
    (serverSystem oneKeyConfig).Executable (fun _ _ => True) .initial replaySignature ∧
      ProperTokens ((serverSystem oneKeyConfig).execute .initial replaySignature).authLog ∧
      ¬ FreshChallenges ((serverSystem oneKeyConfig).execute .initial replaySignature).authLog ∧
      ¬ TokensUsedOnce ((serverSystem oneKeyConfig).execute .initial replaySignature).authLog ∧
      (serverSystem zeroKeyConfig).Executable (fun _ _ => True) .initial verifyUnasked ∧
      ¬ FreshChallenges ((serverSystem zeroKeyConfig).execute .initial verifyUnasked).authLog := by
  have hfirst : ((serverSystem oneKeyConfig).execute .initial replaySignature).authLog =
      [.created 0, .received 0 _, .challenged 0 _, .received 0 _] ++
        .verified 0 (.signature (List.replicate 20 1) [2]) ::
          [.received 0 _, .wentOffline 0, .received 0 _,
            .verified 0 (.signature (List.replicate 20 1) [2])] := rfl
  have hsecond : ((serverSystem oneKeyConfig).execute .initial replaySignature).authLog =
      ([.created 0, .received 0 _, .challenged 0 _, .received 0 _,
          .verified 0 (.signature (List.replicate 20 1) [2]), .received 0 _] ++
        .wentOffline 0 :: [.received 0 _]) ++ .verified 0 (.signature (List.replicate 20 1) [2]) :: [] := rfl
  have hunasked : ((serverSystem zeroKeyConfig).execute .initial verifyUnasked).authLog =
      [.created 0, .received 0 _] ++ .verified 0 (.signature zeroToken [2]) :: [] := rfl
  refine ⟨by decide, ⟨by decide, by decide, fun t => by simp [hfirst]⟩, fun hfresh => ?_,
    fun honce => ?_, by decide, fun hfresh => ?_⟩
  · obtain ⟨earlier, later, hsplit, -, hoffline⟩ := hfresh _ 0 _ _ _ hsecond
    rcases split_trichotomy hsplit with ⟨-, hsame, -⟩ | hmem | hmem
    · simp at hsame
    · simp at hmem
    · exact hoffline hmem
  · exact honce _ 0 _ _ _ hfirst 0 [2] (by simp)
  · obtain ⟨earlier, later, hsplit, -⟩ := hfresh _ 0 _ _ _ hunasked
    have hmem : AuthEvent.challenged 0 zeroToken ∈
        [AuthEvent.created 0, .received 0 signaturePacket] := by
      rw [hsplit]
      simp
    simp at hmem

end Adb.ChallengeTokens
