import Adb.AuthEffects
import Adb.Histories

/-!
The authentication gate of adbd: no stream message of a transport is acted on
before the transport has been verified.
-/

namespace Adb.AuthGate

open Adb.DescriptorIo
open Adb.WirePackets
open Adb.SocketTable
open Adb.ServerState
open Adb.ServerRuns
open Adb.ServerEffects
open Adb.AuthEffects
open Adb.TransitionSystems
open Adb.Histories

/-- `adbd_auth_verified(t)` has run since `t` was created or last went offline. -/
def VerifiedSince (cfg : Config) (t : TransportRef) (log : List AuthEvent) : Prop :=
  ∃ before cause after, log = before ++ .verified t cause :: after ∧
    .created t ∉ after ∧ .wentOffline t ∉ after ∧ CausedBy cfg t before cause

/-- Every stream message that was acted on came from a verified transport. -/
def Gated (cfg : Config) (log : List AuthEvent) : Prop :=
  ∀ before t p after, log = before ++ .acted t p :: after → VerifiedSince cfg t before

/-- The flag that lets stream messages through is backed by the history. -/
structure Guarded (cfg : Config) (st : Server) : Prop where
  online : ∀ t, (st.transports t).online = true → VerifiedSince cfg t st.authLog
  gated : Gated cfg st.authLog

section Invariant

variable {cfg : Config} {talks : Bool} {st st' : Server} {t : TransportRef}

theorem VerifiedSince.append {log events : List AuthEvent} (h : VerifiedSince cfg t log)
    (hcreated : .created t ∉ events) (hoffline : .wentOffline t ∉ events) :
    VerifiedSince cfg t (log ++ events) := by
  obtain ⟨before, cause, after, rfl, hafter, hafter', hcaused⟩ := h
  refine ⟨before, cause, after ++ events, by simp, ?_, ?_, hcaused⟩
  · simp [hafter, hcreated]
  · simp [hafter', hoffline]

theorem Gated.append {log events : List AuthEvent} (h : Gated cfg log)
    (hevents : ∀ t p, .acted t p ∉ events) : Gated cfg (log ++ events) := by
  intro before t p after hsplit
  rcases split_append hsplit with ⟨middle, hold, -⟩ | ⟨middle, hnew, -⟩
  · exact h before t p middle hold
  · exact absurd (by simp [hnew]) (hevents t p)

theorem Guarded.step {events : List AuthEvent} (h : Guarded cfg st)
    (hlog : st'.authLog = st.authLog ++ events) (hacted : ∀ t p, .acted t p ∉ events)
    (honline : ∀ t, (st'.transports t).online = true →
      (st.transports t).online = true ∧ .created t ∉ events ∧ .wentOffline t ∉ events) :
    Guarded cfg st' := by
  refine ⟨?_, hlog ▸ h.gated.append hacted⟩
  intro t ht
  obtain ⟨hold, hcreated, hoffline⟩ := honline t ht
  rw [hlog]
  exact (h.online t hold).append hcreated hoffline

theorem sendAuthRequest_log (env : Oracle) :
    ∃ e, (sendAuthRequest env st t).authLog = st.authLog ++ [e] ∧
      (e = .tokenFailed t ∨ ∃ token, e = .challenged t token) := by
  unfold sendAuthRequest
  split
  · exact ⟨_, rfl, .inl rfl⟩
  · exact ⟨_, rfl, .inr ⟨_, rfl⟩⟩

theorem sendAuthRequest_online (env : Oracle) (t' : TransportRef) :
    ((sendAuthRequest env st t).transports t').online = (st.transports t').online := by
  unfold sendAuthRequest
  by_cases ht : t' = t
  · subst ht
    split <;> simp [Server.modifyTransport, Server.log, Server.send]
  · split <;> simp [Server.modifyTransport, Server.log, Server.send, ht]

theorem Guarded.effect (heffect : AuthEffect cfg talks st st') (hhost : cfg.host = false)
    (hauth : cfg.authRequired = true) (h : Guarded cfg st) : Guarded cfg st' := by
  induction heffect with
  | same hsame =>
      refine h.step (hsame.authLog.trans (List.append_nil _).symm) (by simp) ?_
      intro t ht
      exact ⟨(hsame.online t).symm.trans ht, by simp⟩
  | received t p => exact h.step rfl (by simp) fun t' ht' => ⟨ht', by simp⟩
  | @acted st t p honline =>
      refine ⟨fun t' ht' => (h.online t' ht').append (by simp) (by simp), ?_⟩
      intro before t' p' after hsplit
      rcases split_append hsplit with ⟨middle, hold, -⟩ | ⟨middle, hnew, rfl⟩
      · exact h.gated before t' p' middle hold
      · cases middle with
        | nil =>
            obtain ⟨⟨rfl, rfl⟩, -⟩ : (t = t' ∧ p = p') ∧ [] = after := by simpa using hnew
            simpa using h.online t honline
        | cons e middle => simp at hnew
  | online t hopen =>
      rcases hopen with hopen | hopen
      · simp [hhost] at hopen
      · simp [hauth] at hopen
  | offline t =>
      refine h.step handleOffline_authLog (by simp) ?_
      intro t' ht'
      rw [handleOffline_transports] at ht'
      split at ht'
      · simp at ht'
      · rename_i hne
        exact ⟨ht', by simp, by simp [hne]⟩
  | challenge env t =>
      obtain ⟨e, hlog, he⟩ := @sendAuthRequest_log _ t env
      refine h.step hlog ?_ fun t' ht' => ⟨(sendAuthRequest_online env t').symm.trans ht', ?_⟩
      · rcases he with rfl | ⟨token, rfl⟩ <;> simp
      · rcases he with rfl | ⟨token, rfl⟩ <;> simp
  | @verify st t cause hcaused _ =>
      refine ⟨?_, h.gated.append (by simp)⟩
      intro t' ht'
      by_cases ht : t' = t
      · subst ht
        exact ⟨st.authLog, cause, [], rfl, by simp, by simp, hcaused⟩
      · have hold : (st.transports t').online = true := by
          simpa [handleOnline, Server.modifyTransport, Server.log, ht] using ht'
        exact (h.online t' hold).append (by simp) (by simp)
  | @confirm st env t key _ =>
      have hold : ∀ t', ((adbdAuthConfirmKey env st t key).transports t').online =
          (st.transports t').online := fun t' => by
        simpa using congrArg Atransport.online (adbdAuthConfirmKey_transports key t')
      rcases adbdAuthConfirmKey_log key with hlog | hlog
      · exact h.step (hlog.trans (List.append_nil _).symm) (by simp)
          fun t' ht' => ⟨(hold t').symm.trans ht', by simp⟩
      · exact h.step hlog (by simp) fun t' ht' => ⟨(hold t').symm.trans ht', by simp⟩
  | answer answered _ => exact h.step rfl (by simp) fun t' ht' => ⟨ht', by simp⟩
  | framework connected =>
      exact h.step (List.append_nil _).symm (by simp) fun t' ht' => ⟨ht', by simp⟩
  | @register st t state type _ =>
      refine h.step rfl (by simp) fun t' ht' => ?_
      by_cases ht : t' = t
      · subst ht
        simp [Server.log, Server.modifyTransport, Atransport.blank] at ht'
      · exact ⟨by simpa [Server.log, Server.modifyTransport, ht] using ht', by simp [ht], by simp⟩
  | delete t => exact h.step rfl (by simp) fun t' ht' => ⟨ht', by simp⟩
  | trans _ _ ih₁ ih₂ => exact ih₂ (ih₁ h)

theorem guarded_of_reachable (hhost : cfg.host = false) (hauth : cfg.authRequired = true)
    (h : (serverSystem cfg).Reachable st) : Guarded cfg st := by
  refine h.invariant (I := Guarded cfg) ?_ ?_
  · rintro st rfl
    exact ⟨by simp [Server.initial, Atransport.blank], by simp [Gated, Server.initial]⟩
  · intro st l hinv henabled _
    exact hinv.effect (authEffect_step henabled.2) hhost hauth

theorem authLog_grows (heffect : AuthEffect cfg talks st st') :
    ∃ events, st'.authLog = st.authLog ++ events := by
  induction heffect with
  | same hsame => exact ⟨[], by simp [hsame.authLog]⟩
  | online | framework => exact ⟨[], (List.append_nil _).symm⟩
  | received | acted | verify | answer | register | delete => exact ⟨_, rfl⟩
  | offline => exact ⟨_, handleOffline_authLog⟩
  | challenge env t =>
      obtain ⟨e, hlog, -⟩ := @sendAuthRequest_log _ t env
      exact ⟨[e], hlog⟩
  | @confirm st env t key _ =>
      rcases @adbdAuthConfirmKey_log env st t key with hlog | hlog
      · exact ⟨[], by simp [hlog]⟩
      · exact ⟨_, hlog⟩
  | trans _ _ ih₁ ih₂ =>
      obtain ⟨events₁, h₁⟩ := ih₁
      obtain ⟨events₂, h₂⟩ := ih₂
      exact ⟨events₁ ++ events₂, by rw [h₂, h₁, List.append_assoc]⟩

end Invariant

/-- The messages that take a transport off line: a new connection message, an
authentication message of unknown type, and the end of the connection. -/
def Silences (st : Server) (t : TransportRef) (p : Apacket) : Prop :=
  (p.command = .aCnxn ∧ (st.transports t).connectionState ≠ .offline) ∨
    (p.command = .aAuth ∧ p.arg0 ≠ adbAuthSignature ∧ p.arg0 ≠ adbAuthRsaPublicKey) ∨
    (p.command = .aSync ∧ p.arg0 = 0)

section Silence

variable {cfg : Config} {env : Oracle} {st st' : Server} {t : TransportRef} {p : Apacket}

/-- The transport is off line, and nothing has verified it since it went there. -/
def Silenced (t : TransportRef) (st : Server) : Prop :=
  (st.transports t).online = false ∧
    ∃ before after, st.authLog = before ++ .wentOffline t :: after ∧
      ∀ cause, .verified t cause ∉ after

theorem silenced_handleOffline : Silenced t (handleOffline st t) := by
  refine ⟨by simp [handleOffline_transports], st.authLog, [], handleOffline_authLog, by simp⟩

theorem Silenced.modifyTransport {f : Atransport → Atransport} (h : Silenced t st)
    (hf : ∀ a, (f a).online = a.online) : Silenced t (st.modifyTransport t f) := by
  refine ⟨?_, h.2⟩
  simp [Server.modifyTransport, hf, h.1]

theorem Silenced.sendAuthRequest (h : Silenced t st) :
    Silenced t (sendAuthRequest env st t) := by
  obtain ⟨honline, before, after, hlog, hafter⟩ := h
  obtain ⟨e, hlog', he⟩ := @sendAuthRequest_log st t env
  refine ⟨(sendAuthRequest_online env t).trans honline, before, after ++ [e], ?_, ?_⟩
  · rw [hlog', hlog, List.append_assoc, List.cons_append]
  · rcases he with rfl | ⟨token, rfl⟩ <;> simpa using hafter

theorem Silenced.updateTransports (h : Silenced t st) :
    Silenced t (updateTransports cfg env st) := by
  unfold ServerState.updateTransports
  split
  · exact h
  · exact h

theorem silenced_handleNewConnection (hhost : cfg.host = false) (hauth : cfg.authRequired = true)
    (hstate : (st.transports t).connectionState ≠ .offline) :
    Silenced t (handleNewConnection cfg env st t p) := by
  unfold handleNewConnection
  dsimp only
  refine Silenced.updateTransports ?_
  rw [if_pos hstate, if_neg (by simp [hhost]), if_neg (by simp [hauth])]
  refine Silenced.sendAuthRequest (Silenced.modifyTransport silenced_handleOffline ?_)
  exact fun _ => rfl

theorem silenced_handlePacket (hhost : cfg.host = false) (hauth : cfg.authRequired = true)
    (h : Silences st t p) : Silenced t (handlePacket cfg env st t p) := by
  unfold handlePacket
  dsimp only
  rcases h with ⟨hcommand, hstate⟩ | ⟨hcommand, hsignature, hkey⟩ | ⟨hcommand, hzero⟩
  · simp only [hcommand]
    exact silenced_handleNewConnection hhost hauth hstate
  · simp only [hcommand, handleAuth]
    rw [if_neg (by simp [hhost]), if_neg (by simp [hsignature]), if_neg (by simp [hkey])]
    exact silenced_handleOffline
  · simp only [hcommand]
    rw [if_neg (by simp [hzero])]
    exact silenced_handleOffline

/-- A silenced transport is verified before one of its stream messages is acted
on. -/
theorem verified_of_acted {before after new : List AuthEvent} (h : Silenced t st)
    (hgated : Gated cfg (st.authLog ++ new)) (hnew : new = before ++ .acted t p :: after) :
    ∃ cause, .verified t cause ∈ before := by
  obtain ⟨-, earlier, later, hlog, hlater⟩ := h
  have hsplit : st.authLog ++ new = (st.authLog ++ before) ++ .acted t p :: after := by
    rw [hnew, List.append_assoc]
  obtain ⟨before', cause, after', hverified, -, hoffline, -⟩ :=
    hgated (st.authLog ++ before) t p after hsplit
  rw [hlog, List.append_assoc, List.cons_append] at hverified
  have hmem : .verified t cause ∈ later ++ before := by
    rcases split_trichotomy hverified with ⟨-, hsame, -⟩ | hmem | hmem
    · simp at hsame
    · exact hmem
    · exact absurd hmem hoffline
  rcases List.mem_append.mp hmem with hmem | hmem
  · exact absurd hmem (hlater cause)
  · exact ⟨cause, hmem⟩

end Silence

/-- The authentication gate: stream messages are acted on for verified
transports only, and a silenced transport has to be verified again. -/
theorem authentication_gate (cfg : Config) (hhost : cfg.host = false)
    (hauth : cfg.authRequired = true) {st : Server} (h : (serverSystem cfg).Reachable st) :
    Gated cfg st.authLog ∧
      ∀ env t p, (serverSystem cfg).enabled st (.packet t p, env) → Silences st t p →
        ((step cfg env st (.packet t p)).transports t).online = false ∧
          ∀ st', (serverSystem cfg).ReachableFrom (fun _ _ => True)
              (step cfg env st (.packet t p)) st' →
            ∃ new, st'.authLog = (step cfg env st (.packet t p)).authLog ++ new ∧
              ∀ before q after, new = before ++ .acted t q :: after →
                ∃ cause, .verified t cause ∈ before := by
  refine ⟨(guarded_of_reachable hhost hauth h).gated, ?_⟩
  intro env t p henabled hsilences
  have hsilenced : Silenced t (step cfg env st (.packet t p)) :=
    silenced_handlePacket hhost hauth hsilences
  refine ⟨hsilenced.1, ?_⟩
  intro st' hrun
  have hreachable : (serverSystem cfg).Reachable st' := (h.next henabled trivial).from hrun
  have hgrows : ∃ new, st'.authLog = (step cfg env st (.packet t p)).authLog ++ new := by
    refine hrun.preserves (I := fun st' => ∃ new,
      st'.authLog = (step cfg env st (.packet t p)).authLog ++ new) ⟨[], by simp⟩ ?_
    rintro st₁ l ⟨new, hnew⟩ henabled₁ _
    obtain ⟨events, hevents⟩ := authLog_grows (authEffect_step henabled₁.2)
    exact ⟨new ++ events, hevents.trans (by rw [hnew, List.append_assoc])⟩
  obtain ⟨new, hnew⟩ := hgrows
  refine ⟨new, hnew, ?_⟩
  intro before q after hsplit
  exact verified_of_acted hsilenced (hnew ▸ (guarded_of_reachable hhost hauth hreachable).gated)
    hsplit

/-- A device that requires authentication and accepts every signature. -/
def trustingConfig : Config := { plainConfig false true with adbdAuthVerify := fun _ _ => true }

/-- The transport connects and gets a token. -/
def connectWithToken : List (Action × Oracle) :=
  [(.register 0 .offline .usb, {}),
    (.packet 0 { command := .aCnxn, arg0 := 0x01000000, arg1 := 4096, data := ascii "host::" },
      { token := .generated [1] })]

def signaturePacket : Apacket :=
  { command := .aAuth, arg0 := adbAuthSignature, arg1 := 0, data := [2] }

def openPacket : Apacket := { command := .aOpen, arg0 := 7, arg1 := 0, data := ascii "tcp:5 " }

def syncPacket : Apacket := { command := .aSync, arg0 := 0, arg1 := 0, data := [] }

/-- It answers with a signature and opens a stream. -/
def verifyAndOpen : List (Action × Oracle) :=
  connectWithToken.append [(.packet 0 signaturePacket, {}), (.packet 0 openPacket, {})]

theorem authentication_gate_verifyAndOpen :
    (serverSystem trustingConfig).Executable (fun _ _ => True) .initial verifyAndOpen ∧
      .acted 0 openPacket ∈
        ((serverSystem trustingConfig).execute .initial verifyAndOpen).authLog ∧
      Gated trustingConfig ((serverSystem trustingConfig).execute .initial verifyAndOpen).authLog ∧
      ((step trustingConfig {} ((serverSystem trustingConfig).execute .initial verifyAndOpen)
        (.packet 0 syncPacket)).transports 0).online = false := by
  have hrun : (serverSystem trustingConfig).Executable (fun _ _ => True) .initial verifyAndOpen := by
    decide
  have hgate := authentication_gate trustingConfig rfl rfl
    (System.reachableWhen_execute ⟨.initial, rfl, .refl⟩ hrun)
  refine ⟨hrun, by decide, hgate.1, (hgate.2 {} 0 syncPacket ?_ ?_).1⟩
  · decide
  · exact .inr (.inr ⟨rfl, rfl⟩)

end Adb.AuthGate
