import Adb.ServerEffects

/-!
What a callback can do to the authentication state of a process: the flags and
tokens of the transports, the framework connection and the history.
-/

namespace Adb.AuthEffects

open Adb.DescriptorIo
open Adb.WirePackets
open Adb.SocketTable
open Adb.SocketOperations
open Adb.SmartSockets
open Adb.SocketEvents
open Adb.ServerState
open Adb.ServerRuns
open Adb.ServerEffects

/-- Two servers with the same authentication state. -/
structure SameAuth (st st' : Server) : Prop where
  online : ∀ t, (st'.transports t).online = (st.transports t).online
  token : ∀ t, (st'.transports t).token = (st.transports t).token
  usb : ∀ t, .usb ∈ (st'.transports t).disconnects ↔ .usb ∈ (st.transports t).disconnects
  usbTransport : st'.usbTransport = st.usbTransport
  frameworkConnected : st'.frameworkConnected = st.frameworkConnected
  unanswered : st'.unanswered = st.unanswered
  authLog : st'.authLog = st.authLog

/-- What leads to `adbd_auth_verified`: a signature packet that was just received
and fits the token, or an `OK` that was just read while `usb_transport == t`. -/
def CausedBy (cfg : Config) (t : TransportRef) (log : List AuthEvent) : AuthCause → Prop
  | .signature token signature => cfg.adbdAuthVerify token signature = true ∧
      ∃ before p, log = before ++ [.received t p] ∧ p.command = .aAuth ∧
        p.arg0 = adbAuthSignature ∧ p.data = signature
  | .framework => ∃ before answered, log = before ++ [.frameworkOk (some t) answered]

/-- The token that a signature was compared with is the current one. -/
def UsesToken (st : Server) (t : TransportRef) : AuthCause → Prop
  | .signature token _ => token = (st.transports t).token
  | .framework => st.usbTransport = some t

/-- The steps of a callback on the authentication state.  `talks` says whether a
key may be sent to the framework or an answer be read from it. -/
inductive AuthEffect (cfg : Config) (talks : Bool) : Server → Server → Prop where
  | same {st st' : Server} (h : SameAuth st st') : AuthEffect cfg talks st st'
  | received {st : Server} (t : TransportRef) (p : Apacket) :
      AuthEffect cfg talks st (st.log (.received t p))
  | acted {st : Server} {t : TransportRef} (p : Apacket)
      (honline : (st.transports t).online = true) :
      AuthEffect cfg talks st (st.log (.acted t p))
  | online {st : Server} (t : TransportRef) (h : cfg.host = true ∨ cfg.authRequired = false) :
      AuthEffect cfg talks st (handleOnline st t)
  | offline {st : Server} (t : TransportRef) : AuthEffect cfg talks st (handleOffline st t)
  | challenge {st : Server} (env : Oracle) (t : TransportRef) :
      AuthEffect cfg talks st (sendAuthRequest env st t)
  | verify {st : Server} {t : TransportRef} {cause : AuthCause}
      (hcaused : CausedBy cfg t st.authLog cause) (huses : UsesToken st t cause) :
      AuthEffect cfg talks st (handleOnline (st.log (.verified t cause)) t)
  | confirm {st : Server} (env : Oracle) (t : TransportRef) (key : Bytes) (h : talks = true) :
      AuthEffect cfg talks st (adbdAuthConfirmKey env st t key)
  | answer {st : Server} (answered : Nat) (h : talks = true) :
      AuthEffect cfg talks st ({ st with unanswered := st.unanswered.drop (answered + 1) }.log
        (.frameworkOk st.usbTransport st.unanswered[answered]?))
  | framework {st : Server} (connected : Bool) :
      AuthEffect cfg talks st { st with frameworkConnected := connected, unanswered := [] }
  | register {st : Server} {t : TransportRef} (state : ConnectionState) (type : TransportType)
      (h : .created t ∉ st.authLog) :
      AuthEffect cfg talks st ((st.modifyTransport t fun _ => .blank state type).log (.created t))
  | delete {st : Server} (t : TransportRef) : AuthEffect cfg talks st (st.log (.deleted t))
  | trans {st₁ st₂ st₃ : Server} (h₁ : AuthEffect cfg talks st₁ st₂)
      (h₂ : AuthEffect cfg talks st₂ st₃) : AuthEffect cfg talks st₁ st₃

section Offline

variable {st : Server} {t : TransportRef}

theorem foldl_runDisconnect (disconnects : List Disconnect) (st : Server) :
    (disconnects.foldl runDisconnect st).transports = st.transports ∧
      (disconnects.foldl runDisconnect st).usbTransport =
        (if .usb ∈ disconnects then none else st.usbTransport) ∧
      (disconnects.foldl runDisconnect st).frameworkConnected = st.frameworkConnected ∧
      (disconnects.foldl runDisconnect st).unanswered = st.unanswered ∧
      (disconnects.foldl runDisconnect st).authLog = st.authLog := by
  induction disconnects generalizing st with
  | nil => simp
  | cons d disconnects ih =>
      obtain ⟨h₁, h₂, h₃, h₄, h₅⟩ := ih (runDisconnect st d)
      rw [List.foldl_cons, h₁, h₂, h₃, h₄, h₅]
      cases d <;> simp [runDisconnect]

theorem handleOffline_authLog : (handleOffline st t).authLog = st.authLog ++ [.wentOffline t] := by
  unfold handleOffline runDisconnects
  simp only [Server.modifyTransport]
  rw [(foldl_runDisconnect _ _).2.2.2.2]
  rfl

theorem handleOffline_transports (t' : TransportRef) :
    (handleOffline st t).transports t' =
      if t' = t then { st.transports t with online := false, disconnects := [] }
      else st.transports t' := by
  unfold handleOffline runDisconnects
  simp only [Server.modifyTransport]
  rw [(foldl_runDisconnect _ _).1]
  by_cases ht : t' = t
  · subst ht
    simp [Server.log]
  · simp [Server.log, ht]

theorem handleOffline_usbTransport : (handleOffline st t).usbTransport =
    if .usb ∈ (st.transports t).disconnects then none else st.usbTransport := by
  unfold handleOffline runDisconnects
  simp only [Server.modifyTransport]
  rw [(foldl_runDisconnect _ _).2.1]
  simp [Server.log]

theorem handleOffline_unanswered : (handleOffline st t).unanswered = st.unanswered := by
  unfold handleOffline runDisconnects
  simp only [Server.modifyTransport]
  rw [(foldl_runDisconnect _ _).2.2.2.1]
  rfl

end Offline

section Rules

variable {cfg : Config} {talks : Bool} {env : Oracle} {st st' : Server} {t : TransportRef}

theorem SameAuth.refl : SameAuth st st :=
  ⟨fun _ => rfl, fun _ => rfl, fun _ => Iff.rfl, rfl, rfl, rfl, rfl⟩

theorem AuthEffect.refl : AuthEffect cfg talks st st := .same .refl

theorem sameAuth_of_listenerChange (h : ListenerChange st st') : SameAuth st st' where
  online t := by simpa using congrArg Atransport.online (h.transports t)
  token t := by simpa using congrArg Atransport.token (h.transports t)
  usb := h.usb
  usbTransport := h.usbTransport
  frameworkConnected := h.frameworkConnected
  unanswered := h.unanswered
  authLog := h.authLog

theorem authEffect_modifyTransport {f : Atransport → Atransport}
    (honline : ∀ a, (f a).online = a.online) (htoken : ∀ a, (f a).token = a.token)
    (husb : ∀ a, (f a).disconnects = a.disconnects) :
    AuthEffect cfg talks st (st.modifyTransport t f) := by
  refine .same ⟨?_, ?_, ?_, rfl, rfl, rfl, rfl⟩
  · intro t'
    by_cases ht : t' = t
    · subst ht
      simp [Server.modifyTransport, honline]
    · simp [Server.modifyTransport, ht]
  · intro t'
    by_cases ht : t' = t
    · subst ht
      simp [Server.modifyTransport, htoken]
    · simp [Server.modifyTransport, ht]
  · intro t'
    by_cases ht : t' = t
    · subst ht
      simp [Server.modifyTransport, husb]
    · simp [Server.modifyTransport, ht]

theorem authEffect_setConnectionState (state : ConnectionState) :
    AuthEffect cfg talks st (setConnectionState st t state) :=
  authEffect_modifyTransport (fun _ => rfl) (fun _ => rfl) fun _ => rfl

theorem authEffect_sockets (sockets : Sockets) :
    AuthEffect cfg talks st { st with sockets := sockets } :=
  .same ⟨fun _ => rfl, fun _ => rfl, fun _ => Iff.rfl, rfl, rfl, rfl, rfl⟩

theorem authEffect_send (p : Apacket) : AuthEffect cfg talks st (st.send t p) :=
  authEffect_sockets _

theorem authEffect_sendConnect : AuthEffect cfg talks st (sendConnect cfg st t) :=
  authEffect_send _

theorem authEffect_updateTransports : AuthEffect cfg talks st (updateTransports cfg env st) := by
  unfold updateTransports
  split
  · exact authEffect_sockets _
  · exact .refl

theorem authEffect_adbdAuthVerified {cause : AuthCause}
    (hcaused : CausedBy cfg t st.authLog cause) (huses : UsesToken st t cause) :
    AuthEffect cfg talks st (adbdAuthVerified cfg st t cause) :=
  (AuthEffect.verify hcaused huses).trans authEffect_sendConnect

theorem authEffect_goOffline :
    AuthEffect cfg talks st (handleOffline (setConnectionState st t .offline) t) :=
  (authEffect_setConnectionState .offline).trans (.offline t)

theorem authEffect_handleNewConnection (p : Apacket) :
    AuthEffect cfg talks st (handleNewConnection cfg env st t p) := by
  unfold handleNewConnection
  dsimp only
  refine AuthEffect.trans ?_ authEffect_updateTransports
  have hoffline : AuthEffect cfg talks st
      (if (st.transports t).connectionState ≠ .offline then
        handleOffline (setConnectionState st t .offline) t
      else st) := by
    split
    · exact authEffect_goOffline
    · exact .refl
  refine hoffline.trans ?_
  generalize (if (st.transports t).connectionState ≠ .offline then
    handleOffline (setConnectionState st t .offline) t else st) = st₁
  have hfields : AuthEffect cfg talks st₁ (st₁.modifyTransport t fun a =>
      { a with
        protocolVersion := min (wordToInt p.arg0) aVersion
        maxPayload := min p.arg1 maxPayloadConst
        connectionState := bannerState p.data }) :=
    authEffect_modifyTransport (fun _ => rfl) (fun _ => rfl) fun _ => rfl
  refine hfields.trans ?_
  split
  · rename_i hhost
    exact .online t (.inl hhost)
  · split
    · rename_i hauth
      exact (AuthEffect.online t (.inr (by simpa using hauth))).trans authEffect_sendConnect
    · exact .challenge env t

theorem authEffect_handleAuth {before : List AuthEvent} (p : Apacket) (hcommand : p.command = .aAuth)
    (hreceived : st.authLog = before ++ [.received t p])
    (htalks : p.arg0 = adbAuthRsaPublicKey → talks = true) :
    AuthEffect cfg talks st (handleAuth cfg env st t p) := by
  unfold handleAuth
  split
  · dsimp only
    have hstate : AuthEffect cfg talks st
        (if (st.transports t).connectionState = .offline then
          setConnectionState st t .unauthorized
        else st) := by
      split
      · exact authEffect_setConnectionState _
      · exact .refl
    refine hstate.trans ?_
    cases env.hostAuthResponse with
    | some response => exact authEffect_send _
    | none => exact .refl
  · split
    · rename_i hsignature
      dsimp only
      split
      · rename_i hverified
        have hcaused : CausedBy cfg t st.authLog (.signature (st.transports t).token p.data) :=
          ⟨hverified, before, p, hreceived, hcommand, hsignature.2, rfl⟩
        exact (authEffect_adbdAuthVerified hcaused rfl).trans
          (authEffect_modifyTransport (fun _ => rfl) (fun _ => rfl) fun _ => rfl)
      · have hcounted : AuthEffect cfg talks st (st.modifyTransport t fun a =>
            { a with failedAuthAttempts := a.failedAuthAttempts + 1 }) :=
          authEffect_modifyTransport (fun _ => rfl) (fun _ => rfl) fun _ => rfl
        exact hcounted.trans (.challenge env t)
    · split
      · rename_i hkey
        exact .confirm env t p.data (htalks hkey.2)
      · exact authEffect_goOffline

theorem authEffect_handlePacket (p : Apacket)
    (htalks : p.command = .aAuth → p.arg0 = adbAuthRsaPublicKey → talks = true) :
    AuthEffect cfg talks st (handlePacket cfg env st t p) := by
  have hreceived : AuthEffect cfg talks st
      ({ st with sockets := st.sockets.record (.received t p) }.log (.received t p)) :=
    (authEffect_sockets _).trans (.received t p)
  have hlog : ({ st with sockets := st.sockets.record (.received t p) }.log
      (.received t p)).authLog = st.authLog ++ [.received t p] := rfl
  unfold handlePacket
  dsimp only
  refine hreceived.trans ?_
  generalize { st with sockets := st.sockets.record (.received t p) }.log
    (.received t p) = st₁ at hlog ⊢
  split
  · split
    · split
      · exact ((authEffect_send p).trans (authEffect_send _)).trans authEffect_sendConnect
      · exact authEffect_send p
    · exact authEffect_goOffline.trans (authEffect_send p)
  · exact authEffect_handleNewConnection p
  · rename_i hcommand
    exact authEffect_handleAuth p hcommand hlog (htalks hcommand)
  · split
    · rename_i hacts
      refine (authEffect_sockets _).trans (.acted p ?_)
      simp only [actsOn, Bool.and_eq_true] at hacts
      exact hacts.1
    · exact .refl

theorem authEffect_adbdAuthEvent (response : Bytes) (answered : Nat) (htalks : talks = true) :
    AuthEffect cfg talks st (adbdAuthEvent cfg st response answered) := by
  unfold adbdAuthEvent
  split
  · exact .framework false
  · split
    · dsimp only
      refine (AuthEffect.answer answered htalks).trans ?_
      split
      · rename_i t' husb
        have husb' : st.usbTransport = some t' := husb
        refine authEffect_adbdAuthVerified ⟨st.authLog, st.unanswered[answered]?, ?_⟩ husb'
        rw [← husb']
        rfl
      · exact .refl
    · exact .refl

theorem authEffect_adbdAuthListener : AuthEffect cfg talks st (adbdAuthListener env st) := by
  unfold adbdAuthListener
  dsimp only
  refine (AuthEffect.framework true).trans ?_
  split
  · have hretry : AuthEffect cfg talks
        { st with frameworkConnected := true, unanswered := [] }
        { st with frameworkConnected := true, unanswered := [], needsRetry := false } :=
      .same ⟨fun _ => rfl, fun _ => rfl, fun _ => Iff.rfl, rfl, rfl, rfl, rfl⟩
    refine hretry.trans ?_
    split
    · exact .challenge env _
    · exact authEffect_sockets _
  · exact .refl

theorem adbdAuthConfirmKey_log (key : Bytes) :
    (adbdAuthConfirmKey env st t key).authLog = st.authLog ∨
      (adbdAuthConfirmKey env st t key).authLog = st.authLog ++ [.keySent t (cString key)] := by
  unfold adbdAuthConfirmKey
  cases husb : st.usbTransport.isNone <;> simp only [Bool.false_eq_true, if_true, if_false]
  all_goals
    split
    · exact .inl rfl
    · split
      · exact .inl rfl
      · split
        · exact .inl rfl
        · exact .inr rfl

theorem adbdAuthConfirmKey_transports (key : Bytes) (t' : TransportRef) :
    { (adbdAuthConfirmKey env st t key).transports t' with disconnects := [] } =
      { st.transports t' with disconnects := [] } := by
  have hclaimed : ∀ st' : Server, { (addDisconnect st' t .usb).transports t' with disconnects := [] } =
      { st'.transports t' with disconnects := [] } := by
    intro st'
    by_cases ht : t' = t
    · subst ht
      simp [addDisconnect, Server.modifyTransport]
    · simp [addDisconnect, Server.modifyTransport, ht]
  unfold adbdAuthConfirmKey
  cases husb : st.usbTransport.isNone <;> simp only [Bool.false_eq_true, if_true, if_false]
  · split
    · rfl
    · split
      · rfl
      · split <;> rfl
  · split
    · exact hclaimed _
    · split
      · exact hclaimed _
      · split <;> exact hclaimed _

theorem authEffect_runSockets (f : ServiceContext → Sockets → Sockets) :
    AuthEffect cfg talks st (runSockets cfg env st f) :=
  (authEffect_sockets _).trans (.same (sameAuth_of_listenerChange (listenerChange_runSockets f)))

/-- Whether a callback is about a public key of a transport or about an answer of
the framework. -/
def talksToFramework : Action → Bool
  | .packet _ p => p.command = .aAuth && p.arg0 = adbAuthRsaPublicKey
  | .frameworkRead _ _ => true
  | _ => false

/-- Every callback is made of these steps. -/
theorem authEffect_step {l : Action × Oracle} (henabled : Enabled cfg st l.1) :
    AuthEffect cfg (talksToFramework l.1) st (step cfg l.2 st l.1) := by
  obtain ⟨action, env⟩ := l
  have hscripted : AuthEffect cfg (talksToFramework action) st
      { st with sockets := scripted env st } := authEffect_sockets _
  refine hscripted.trans ?_
  cases action with
  | packet t p =>
      refine authEffect_handlePacket p fun hcommand hkey => ?_
      simp [talksToFramework, hcommand, hkey]
  | poll s revents => exact authEffect_sockets _
  | dispatch s => exact authEffect_runSockets fun ctx sockets => dispatchSocket ctx sockets s
  | subprocExited s unread =>
      exact authEffect_runSockets fun ctx sockets => subprocExited ctx sockets s unread
  | acceptSmart | jdwpUpdated => exact authEffect_runSockets _
  | accept l =>
      simp only [step]
      split
      · exact .refl
      · exact authEffect_runSockets _
  | register t state type =>
      refine AuthEffect.trans ?_ authEffect_updateTransports
      exact AuthEffect.trans (.register state type henabled) (.same
        ⟨fun _ => rfl, fun _ => rfl, fun _ => Iff.rfl, rfl, rfl, rfl, rfl⟩)
  | remove t =>
      refine AuthEffect.trans ?_ authEffect_updateTransports
      exact AuthEffect.trans (.delete t) (.same
        ⟨fun _ => rfl, fun _ => rfl, fun _ => Iff.rfl, rfl, rfl, rfl, rfl⟩)
  | reverseRequest service =>
      exact .same (sameAuth_of_listenerChange (listenerChange_applyForwardRequest _))
  | frameworkConnect => exact authEffect_adbdAuthListener
  | frameworkRead response answered => exact authEffect_adbdAuthEvent response answered rfl

end Rules

end Adb.AuthEffects
