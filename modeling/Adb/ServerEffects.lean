import Adb.CallbackEffects

/-! What one step of the process does to the sockets. -/

namespace Adb.ServerEffects

open Adb.DescriptorIo
open Adb.EventInterest
open Adb.WirePackets
open Adb.SocketTable
open Adb.SocketOperations
open Adb.SmartSockets
open Adb.SocketEvents
open Adb.SocketClosing
open Adb.SocketGraph
open Adb.SocketEffects
open Adb.OperationEffects
open Adb.SmartEffects
open Adb.StreamEffects
open Adb.CallbackEffects
open Adb.EnqueueContract
open Adb.ServerState
open Adb.ServerRuns
open Adb.TransitionSystems

section Loops

variable {R : TransportRef → Prop} {st : Sockets}

theorem effect_closeAllSocketsFuel (h : WellFormed st) (rounds : Nat) (t : TransportRef) :
    Effect true (fun _ => True) R st (closeAllSocketsFuel rounds st t) := by
  induction rounds generalizing st with
  | zero => exact .refl
  | succ rounds ih =>
      rw [closeAllSocketsFuel]
      split
      · exact .refl
      · rename_i s hs
        obtain ⟨a, ha, -, hclosing⟩ := (h.listed s).mp (List.mem_of_find?_eq_some hs)
        have hclosed : Effect true (fun _ => True) R st (asocketClose st s) :=
          .close ha hclosing fun _ _ => trivial
        exact hclosed.trans (ih (hclosed.wellFormed h))

theorem effect_foldl {α : Type} {f : Sockets → α → Sockets}
    (hf : ∀ st x, WellFormed st → Effect true (fun _ => True) R st (f st x)) (l : List α)
    (h : WellFormed st) : Effect true (fun _ => True) R st (l.foldl f st) := by
  induction l generalizing st with
  | nil => exact .refl
  | cons x l ih => exact (hf st x h).trans (ih ((hf st x h).wellFormed h))

theorem effect_enqueue (h : WellFormed st) {s q : SocketRef} (hq : st.peerOf s = some q)
    (data : Bytes) : Effect true (fun _ => True) R st (asocketEnqueue st q data).2 :=
  (effect_asocketEnqueue h (active_peer h hq) (.inl rfl) (.inl rfl) data).mono id (fun _ _ => trivial)
    fun _ ht => ht

theorem effect_deviceTrackerSend (h : WellFormed st) (s : SocketRef) (list : Bytes) :
    Effect true (fun _ => True) R st (deviceTrackerSend st s list) := by
  unfold deviceTrackerSend
  split
  · exact effect_halt _
  · rename_i q hq
    exact effect_enqueue h hq _

theorem effect_jdwpProcessListUpdated (ctx : ServiceContext) (h : WellFormed st) :
    Effect true (fun _ => True) R st (jdwpProcessListUpdated ctx st) := by
  refine effect_foldl (fun st tracker hwf => ?_) _ h
  split
  · rename_i q hq
    exact effect_enqueue hwf hq _
  · exact .refl

/-- The socket of an accepted client refers to the listener's transport. -/
theorem effect_listenerSocket {free : Bool} {T : SocketRef → Prop} (h : WellFormed st)
    (l : Alistener) (hT : T st.nextRef) (hR : ∀ t, l.transport = some t → R t) :
    Effect free T R st ((createLocalSocket st).2.modify (createLocalSocket st).1 fun a =>
      { a with transport := l.transport }) := by
  have hcreated : Effect free T R st (createLocalSocket st).2 := effect_createLocalSocket hT
  have hnew := @hostSocket_createLocalSocket st
  have hok := (hcreated.wellFormed h).socket _ _ hnew.cell
  refine hcreated.trans (.update hnew.cell hT
    ⟨.of_kind rfl rfl rfl rfl hok.queue hok.fde ?_, rfl, ?_, .inr ?_, ?_, .inr fun _ => .inl rfl⟩)
  · intro hk
    simp [Asocket.blank] at hk
  · simp [Asocket.blank]
  · rintro ⟨q, hq, -⟩
    simp [Sockets.peerOf, hnew.cell, Asocket.blank] at hq
  · cases ht : l.transport with
    | none => exact .inl rfl
    | some t => exact .inr ⟨t, rfl, hR t ht⟩

theorem effect_listenerEventFunc {free : Bool} (ctx : ServiceContext) (h : WellFormed st)
    (l : Alistener) (hR : ∀ t, l.transport = some t → R t) :
    Effect free (fun _ => True) R st (listenerEventFunc ctx st l) :=
  (effect_listenerSocket h l trivial hR).trans (effect_connectToRemote ctx _ _)

theorem effect_ssListenerEventFunc {free : Bool} (ctx : ServiceContext) (h : WellFormed st) :
    Effect free (fun _ => True) R st (ssListenerEventFunc ctx st) := by
  have hcreated : Effect free (fun _ => True) R st (createLocalSocket st).2 :=
    effect_createLocalSocket trivial
  have hnew := @hostSocket_createLocalSocket st
  exact hcreated.trans (effect_connectToSmartsocket (hcreated.wellFormed h) hnew.cell rfl rfl rfl
    trivial trivial)

end Loops

section Server

variable {lossy drops : SocketRef → Prop} {R : TransportRef → Prop} {cfg : Config} {env : Oracle}
  {st : Server}

@[simp] theorem modifyTransport_sockets (t : TransportRef) (f : Atransport → Atransport) :
    (st.modifyTransport t f).sockets = st.sockets := rfl

@[simp] theorem log_sockets (e : AuthEvent) : (st.log e).sockets = st.sockets := rfl

@[simp] theorem addDisconnect_sockets (t : TransportRef) (d : Disconnect) :
    (addDisconnect st t d).sockets = st.sockets := rfl

@[simp] theorem removeDisconnect_sockets (t : TransportRef) (d : Disconnect) :
    (removeDisconnect st t d).sockets = st.sockets := rfl

@[simp] theorem setConnectionState_sockets (t : TransportRef) (state : ConnectionState) :
    (setConnectionState st t state).sockets = st.sockets := rfl

@[simp] theorem handleOnline_sockets (t : TransportRef) :
    (handleOnline st t).sockets = st.sockets := rfl

theorem runDisconnects_sockets (t : TransportRef) :
    (runDisconnects st t).sockets = st.sockets := by
  have hfold : ∀ (l : List Disconnect) (st : Server),
      (l.foldl runDisconnect st).sockets = st.sockets := by
    intro l
    induction l with
    | nil => intro st; rfl
    | cons d l ih =>
        intro st
        rw [List.foldl_cons, ih]
        cases d <;> rfl
  simp only [runDisconnects, modifyTransport_sockets]
  exact hfold _ st

theorem handleOffline_sockets (t : TransportRef) :
    (handleOffline st t).sockets = closeAllSockets st.sockets t := by
  simp [handleOffline, runDisconnects_sockets]

theorem effect_handleOffline (h : WellFormed st.sockets) (t : TransportRef) :
    Effect true (fun _ => True) R st.sockets (handleOffline st t).sockets := by
  rw [handleOffline_sockets]
  exact effect_closeAllSocketsFuel h _ t

theorem effect_send (t : TransportRef) (p : Apacket) :
    Effect true (fun _ => True) R st.sockets (st.send t p).sockets :=
  .send t (.inl rfl)

theorem effect_sendAuthRequest (t : TransportRef) :
    Effect true (fun _ => True) R st.sockets (sendAuthRequest env st t).sockets := by
  unfold sendAuthRequest
  split
  · exact .refl
  · exact .send t (.inl rfl)

theorem effect_updateTransports (h : WellFormed st.sockets) :
    Effect true (fun _ => True) R st.sockets (updateTransports cfg env st).sockets := by
  unfold updateTransports
  split
  · exact effect_foldl (fun st tracker hwf => effect_deviceTrackerSend hwf tracker _) _ h
  · exact .refl

theorem effect_handleNewConnection (h : WellFormed st.sockets) (t : TransportRef)
    (p : Apacket) :
    Effect true (fun _ => True) R st.sockets (handleNewConnection cfg env st t p).sockets := by
  have hoffline : Effect true (fun _ => True) R st.sockets
      (if (st.transports t).connectionState ≠ .offline then
        handleOffline (setConnectionState st t .offline) t else st).sockets := by
    split
    · exact @effect_handleOffline R (setConnectionState st t .offline) h t
    · exact .refl
  unfold handleNewConnection
  dsimp only
  generalize (if (st.transports t).connectionState ≠ .offline then
    handleOffline (setConnectionState st t .offline) t else st) = st₁ at hoffline ⊢
  have hwf := hoffline.wellFormed h
  refine hoffline.trans ?_
  split
  · exact @effect_updateTransports R cfg env (handleOnline (st₁.modifyTransport t fun a =>
      { a with
        protocolVersion := min (wordToInt p.arg0) aVersion
        maxPayload := min p.arg1 maxPayloadConst
        connectionState := bannerState p.data }) t) hwf
  · split
    · have hsent : Effect true (fun _ => True) R st₁.sockets
          (sendConnect cfg (handleOnline (st₁.modifyTransport t fun a => { a with
            protocolVersion := min (wordToInt p.arg0) aVersion
            maxPayload := min p.arg1 maxPayloadConst
            connectionState := bannerState p.data }) t) t).sockets := .send t (.inl rfl)
      exact hsent.trans (effect_updateTransports (hsent.wellFormed hwf))
    · have hsent : Effect true (fun _ => True) R st₁.sockets
          (sendAuthRequest env (st₁.modifyTransport t fun a => { a with
            protocolVersion := min (wordToInt p.arg0) aVersion
            maxPayload := min p.arg1 maxPayloadConst
            connectionState := bannerState p.data }) t).sockets :=
        @effect_sendAuthRequest R env (st₁.modifyTransport t _) t
      exact hsent.trans (effect_updateTransports (hsent.wellFormed hwf))

theorem adbdAuthConfirmKey_sockets (t : TransportRef) (key : Bytes) :
    (adbdAuthConfirmKey env st t key).sockets = st.sockets := by
  unfold adbdAuthConfirmKey
  have hmark : (if st.usbTransport.isNone then
      addDisconnect { st with usbTransport := some t } t .usb else st).sockets = st.sockets := by
    split <;> rfl
  dsimp only
  generalize (if st.usbTransport.isNone then
    addDisconnect { st with usbTransport := some t } t .usb else st) = st₁ at hmark ⊢
  split
  · exact hmark
  split
  · exact hmark
  split
  · exact hmark
  · exact hmark

theorem effect_handleAuth (h : WellFormed st.sockets) (t : TransportRef) (p : Apacket) :
    Effect true (fun _ => True) R st.sockets (handleAuth cfg env st t p).sockets := by
  have hunauthorized : (if (st.transports t).connectionState = .offline then
      setConnectionState st t .unauthorized else st).sockets = st.sockets := by
    split <;> rfl
  unfold handleAuth
  split
  · dsimp only
    split
    · refine Effect.trans (.same ?_) (effect_send t _)
      rw [hunauthorized]
      exact .rfl'
    · rw [hunauthorized]
      exact .refl
  split
  · dsimp only
    split
    · exact .send t (.inl rfl)
    · exact @effect_sendAuthRequest R env (st.modifyTransport t _) t
  split
  · rw [adbdAuthConfirmKey_sockets]
    exact .refl
  · exact @effect_handleOffline R (setConnectionState st t .offline) h t

theorem effect_handlePacket (h : WellFormed st.sockets) {t : TransportRef} (ht : R t)
    (p : Apacket) :
    Effect true (fun _ => True) R (st.sockets.record (.received t p))
      (handlePacket cfg env st t p).sockets := by
  have hwf : WellFormed (st.sockets.record (.received t p)) := h.congr rfl rfl rfl ⟨rfl, rfl⟩
  unfold handlePacket
  dsimp only
  generalize hst₁ : ({ st with sockets := st.sockets.record (.received t p) }.log
    (.received t p)) = st₁
  have hsockets : st₁.sockets = st.sockets.record (.received t p) := by
    rw [← hst₁]
    rfl
  rw [← hsockets] at hwf ⊢
  have hstream : Effect true (fun _ => True) R st₁.sockets
      (if actsOn (st₁.transports t).online p then
        { st₁ with sockets := handleStream (serviceContext cfg env st₁) st₁.sockets t p }.log
          (.acted t p)
      else st₁).sockets := by
    split
    · exact effect_handleStream hwf (fun _ _ => trivial) ht p fun _ _ _ _ _ => trivial
    · exact .refl
  split
  · split
    · split
      · exact ((effect_send t p).trans (effect_send t _)).trans (effect_send t _)
      · exact effect_send t p
    · exact (@effect_handleOffline R (setConnectionState st₁ t .offline) hwf t).trans
        (effect_send t p)
  · exact effect_handleNewConnection hwf t p
  · exact effect_handleAuth hwf t p
  · exact hstream

end Server

/-- What the functions on listeners change: the listeners, and the callbacks of
listeners that are registered on transports. -/
structure ListenerChange (st st' : Server) : Prop where
  sockets : SameTable st.sockets st'.sockets
  transports : ∀ t, { st'.transports t with disconnects := [] } =
    { st.transports t with disconnects := [] }
  usb : ∀ t, .usb ∈ (st'.transports t).disconnects ↔ .usb ∈ (st.transports t).disconnects
  transportList : st'.transportList = st.transportList
  usbTransport : st'.usbTransport = st.usbTransport
  frameworkConnected : st'.frameworkConnected = st.frameworkConnected
  needsRetry : st'.needsRetry = st.needsRetry
  unanswered : st'.unanswered = st.unanswered
  authLog : st'.authLog = st.authLog

theorem ListenerChange.refl {st : Server} : ListenerChange st st :=
  ⟨.rfl', fun _ => rfl, fun _ => Iff.rfl, rfl, rfl, rfl, rfl, rfl, rfl⟩

theorem ListenerChange.trans {st₁ st₂ st₃ : Server} (h₁ : ListenerChange st₁ st₂)
    (h₂ : ListenerChange st₂ st₃) : ListenerChange st₁ st₃ where
  sockets := h₁.sockets.trans h₂.sockets
  transports t := (h₂.transports t).trans (h₁.transports t)
  usb t := (h₂.usb t).trans (h₁.usb t)
  transportList := h₂.transportList.trans h₁.transportList
  usbTransport := h₂.usbTransport.trans h₁.usbTransport
  frameworkConnected := h₂.frameworkConnected.trans h₁.frameworkConnected
  needsRetry := h₂.needsRetry.trans h₁.needsRetry
  unanswered := h₂.unanswered.trans h₁.unanswered
  authLog := h₂.authLog.trans h₁.authLog

section Listeners

variable {cfg : Config} {env : Oracle} {st : Server}

theorem listenerChange_modifyTransport {t : TransportRef} {f : Atransport → Atransport}
    (hf : ∀ a, { f a with disconnects := [] } = { a with disconnects := [] })
    (husb : ∀ a, .usb ∈ (f a).disconnects ↔ .usb ∈ a.disconnects) :
    ListenerChange st (st.modifyTransport t f) := by
  refine ⟨.rfl', ?_, ?_, rfl, rfl, rfl, rfl, rfl, rfl⟩
  · intro t'
    by_cases ht : t' = t
    · subst ht
      simpa [Server.modifyTransport] using hf (st.transports t')
    · simp [Server.modifyTransport, ht]
  · intro t'
    by_cases ht : t' = t
    · subst ht
      simpa [Server.modifyTransport] using husb (st.transports t')
    · simp [Server.modifyTransport, ht]

theorem listenerChange_addDisconnect (t : TransportRef) (l : ListenerRef) :
    ListenerChange st (addDisconnect st t (.listener l)) :=
  listenerChange_modifyTransport (fun _ => rfl) (by simp)

theorem listenerChange_removeDisconnect (t : TransportRef) (l : ListenerRef) :
    ListenerChange st (removeDisconnect st t (.listener l)) :=
  listenerChange_modifyTransport (fun _ => rfl) (by simp)

theorem listenerChange_listeners (listeners : List Alistener) (next : ListenerRef) :
    ListenerChange st { st with listeners := listeners, nextListener := next } :=
  ⟨.rfl', fun _ => rfl, fun _ => Iff.rfl, rfl, rfl, rfl, rfl, rfl, rfl⟩

theorem listenerChange_removeListener (localName : Bytes) :
    ListenerChange st (removeListener st localName) := by
  unfold removeListener
  split
  · exact .refl
  · dsimp only
    split
    · exact (listenerChange_listeners _ _).trans (listenerChange_removeDisconnect _ _)
    · exact listenerChange_listeners _ _

theorem listenerChange_foldl {α : Type} {change : Server → α → Server} {l : List α}
    (hchange : ∀ st l, ListenerChange st (change st l)) :
    ListenerChange st (l.foldl change st) := by
  induction l generalizing st with
  | nil => exact .refl
  | cons x l ih =>
      rw [List.foldl_cons]
      exact (hchange st x).trans ih

theorem listenerChange_removeAllListeners : ListenerChange st (removeAllListeners st) := by
  refine (listenerChange_listeners _ _).trans (listenerChange_foldl fun st l => ?_)
  split
  · exact listenerChange_removeDisconnect _ _
  · exact .refl

theorem listenerChange_addListener (localName connectTo : Bytes)
    (transport : Option TransportRef) :
    ListenerChange st (addListener env st localName connectTo transport) := by
  unfold addListener
  split
  · exact .refl
  · dsimp only
    split
    · exact (listenerChange_listeners _ _).trans (listenerChange_addDisconnect _ _)
    · exact listenerChange_listeners _ _

theorem listenerChange_rebindListener (l : Alistener) (connectTo : Bytes) (t : TransportRef) :
    ListenerChange st (rebindListener st l connectTo t) := by
  unfold rebindListener
  dsimp only
  split
  · exact listenerChange_listeners _ _
  · refine ListenerChange.trans ?_ (listenerChange_addDisconnect _ _)
    split
    · exact (listenerChange_listeners _ _).trans (listenerChange_removeDisconnect _ _)
    · exact ⟨⟨rfl, rfl, rfl, ⟨rfl, rfl⟩, rfl, rfl, rfl, ⟨rfl, rfl⟩, check_orElse (by decide)⟩,
        fun _ => rfl, fun _ => Iff.rfl, rfl, rfl, rfl, rfl, rfl, rfl⟩

theorem listenerChange_installListener (localName connectTo : Bytes) (t : TransportRef)
    (noRebind : Bool) :
    ListenerChange st (installListener env st localName connectTo t noRebind) := by
  unfold installListener
  split
  · exact listenerChange_addListener _ _ _
  · split
    · exact .refl
    · exact listenerChange_rebindListener _ _ _

theorem listenerChange_applyForwardRequest (request : ForwardRequest) :
    ListenerChange st (applyForwardRequest cfg env st request) := by
  unfold applyForwardRequest
  dsimp only
  split
  · exact listenerChange_removeAllListeners
  split
  · split
    · split
      · exact .refl
      · split
        · exact .refl
        · exact listenerChange_removeListener _
    · exact .refl
  split
  · exact .refl
  · split
    · split
      · exact .refl
      · split
        · exact .refl
        · exact listenerChange_installListener _ _ _ _
    · exact .refl

theorem listenerChange_runSockets (f : ServiceContext → Sockets → Sockets) :
    ListenerChange { st with sockets := f (serviceContext cfg env st) st.sockets }
      (runSockets cfg env st f) := by
  refine ListenerChange.trans ?_ (listenerChange_foldl fun _ => listenerChange_applyForwardRequest)
  exact ⟨⟨rfl, rfl, rfl, ⟨rfl, rfl⟩, rfl, rfl, rfl, ⟨rfl, rfl⟩, id⟩, fun _ => rfl,
    fun _ => Iff.rfl, rfl, rfl, rfl, rfl, rfl, rfl⟩

end Listeners

/-- The sockets as a callback finds them. -/
def scripted (env : Oracle) (st : Server) : Sockets :=
  { st.sockets with readScript := env.reads, writeScript := env.writes }

/-- The socket that a callback reads from first, with its cell: a read event that
comes alone, or the exit of a process whose descriptor is idle. -/
def readsFirst (st : Sockets) : Action → Option (SocketRef × Asocket)
  | .dispatch s => (st.heap s).bind fun a =>
      if a.fde.events.read && !a.fde.events.write then some (s, a) else none
  | .subprocExited s unread => (st.heap s).bind fun a =>
      if !unread && !a.fde.pending then some (s, markEof a) else none
  | _ => none

/-- The callback loses no bytes that it reads from `s`. -/
def HandsOver (cfg : Config) (s : SocketRef) (st : Server) (l : Action × Oracle) : Prop :=
  ∀ a, readsFirst st.sockets l.1 = some (s, a) →
    ReadHandsOver (serviceContext cfg l.2 st) (scripted l.2 st) s a

/-- The callback does not destroy `s` while it is closing because of a read. -/
def Spares (cfg : Config) (s : SocketRef) (st : Server) (l : Action × Oracle) : Prop :=
  ∀ a, readsFirst st.sockets l.1 = some (s, a) →
    ReadSpares (serviceContext cfg l.2 st) (scripted l.2 st) s a

/-- A condition on what a callback reads first can be decided. -/
instance decidableFirst (first : Option (SocketRef × Asocket)) (s : SocketRef)
    (p : Asocket → Prop) [DecidablePred p] : Decidable (∀ a, first = some (s, a) → p a) :=
  match first with
  | none => .isTrue (by simp)
  | some (s', a) => decidable_of_iff (s' = s → p a) (by simp)

instance (ctx : ServiceContext) (st : Sockets) (s : SocketRef) :
    DecidablePred (ReadHandsOver ctx st s) := fun _ =>
  inferInstanceAs (Decidable (_ → _))

instance (cfg : Config) (s : SocketRef) (st : Server) (l : Action × Oracle) :
    Decidable (HandsOver cfg s st l) :=
  decidableFirst _ s _

instance (st : Sockets) (b : Asocket) (data : Bytes) : Decidable (WriteFails st b data) :=
  inferInstanceAs (Decidable (_ ∧ _))

instance (ctx : ServiceContext) (st : Sockets) (s : SocketRef) :
    DecidablePred (ReadSpares ctx st s) := fun a =>
  let out := readLoop true st.readScript (getMaxPayload ctx.limit st s)
  decidable_of_iff
    ((a.closing = true → ((a.fde.forceEof && out.lastZero) || out.isEof) = false) ∧
      ∀ q ∈ a.peer, ∀ b ∈ st.heap q, SocketKind.isLocal b.kind = true →
        WriteFails st b out.bytes → a.pkts ≠ [] → out.isEof = false)
    ⟨fun h => ⟨h.1, fun q b hq => h.2 q hq b⟩, fun h => ⟨h.1, fun q hq b => h.2 q b hq⟩⟩

instance (cfg : Config) (s : SocketRef) (st : Server) (l : Action × Oracle) :
    Decidable (Spares cfg s st l) :=
  decidableFirst _ s _

/-- The transports that a callback may bring into use. -/
def Uses (cfg : Config) (st : Server) : Action → TransportRef → Prop
  | .packet t _, t' => t' = t
  | .dispatch _, t' | .subprocExited _ _, t' =>
      ∃ type serial, acquireOneTransport cfg st type serial false = .ok t'
  | .accept l, t' => ∃ listener ∈ st.listeners, listener.ref = l ∧ listener.transport = some t'
  | _, _ => False

section Step

variable {lossy drops : SocketRef → Prop} {cfg : Config} {st : Server} {l : Action × Oracle}

theorem callback_same {R : TransportRef → Prop} {st st' : Sockets} (h : SameTable st st') :
    Callback lossy drops R st st' :=
  .effect (.same h)

theorem callback_runSockets {R : TransportRef → Prop} {env : Oracle}
    {f : ServiceContext → Sockets → Sockets}
    (hf : Callback lossy drops R st.sockets (f (serviceContext cfg env st) st.sockets)) :
    Callback lossy drops R st.sockets (runSockets cfg env st f).sockets :=
  hf.trans (callback_same (listenerChange_runSockets f).sockets)

theorem acquireOneTransport_sockets (sockets : Sockets) :
    acquireOneTransport cfg { st with sockets := sockets } = acquireOneTransport cfg st := by
  have hloop : ∀ (l : List TransportRef) type serial result error,
      acquireLoop cfg { st with sockets := sockets } type serial l result error =
        acquireLoop cfg st type serial l result error := by
    intro l type serial
    induction l with
    | nil =>
        intro result error
        rfl
    | cons t l ih =>
        intro result error
        simp only [acquireLoop, isRequested, ih]
        rfl
  funext type serial acceptAnyState
  simp only [acquireOneTransport, hloop]

theorem serviceContext_sockets (env : Oracle) (sockets : Sockets) :
    serviceContext cfg env { st with sockets := sockets } = serviceContext cfg env st := by
  simp only [serviceContext, acquireOneTransport_sockets]

theorem isLocal_of_kind {a : Asocket} (h : a.kind = .localSocket ∨ a.kind = .localNotify) :
    SocketKind.isLocal a.kind = true := by
  rcases h with h | h <;> simp [h, SocketKind.isLocal]

/-- The callbacks of a local socket's descriptor. -/
def IsSocketEvent : Action → Prop
  | .poll _ _ | .dispatch _ | .subprocExited _ _ => True
  | _ => False

/-- The sockets when a callback starts: the message it is about has been noted. -/
def noted (env : Oracle) (st : Server) : Action → Sockets
  | .packet t p => (scripted env st).record (.received t p)
  | _ => scripted env st

theorem effect_runSockets {R : TransportRef → Prop} {env : Oracle}
    {f : ServiceContext → Sockets → Sockets}
    (hf : Effect true (fun _ => True) R st.sockets (f (serviceContext cfg env st) st.sockets)) :
    Effect true (fun _ => True) R st.sockets (runSockets cfg env st f).sockets :=
  hf.trans (.same (listenerChange_runSockets f).sockets)

theorem effect_step (h : WellFormed st.sockets) (hother : ¬ IsSocketEvent l.1) :
    Effect true (fun _ => True) (Uses cfg st l.1) (noted l.2 st l.1)
      (step cfg l.2 st l.1).sockets := by
  obtain ⟨action, env⟩ := l
  have hwf : WellFormed (scripted env st) := h.congr rfl rfl rfl ⟨rfl, rfl⟩
  cases action with
  | packet t p =>
      exact @effect_handlePacket (Uses cfg st (.packet t p)) cfg env
        { st with sockets := scripted env st } hwf t rfl p
  | poll | dispatch | subprocExited => exact absurd trivial hother
  | accept r =>
      simp only [step]
      split
      · exact .refl
      · rename_i listener hlistener
        have hmem := List.mem_of_find?_eq_some hlistener
        have href : listener.ref = r := by simpa using List.find?_some hlistener
        exact @effect_runSockets cfg { st with sockets := scripted env st } _ env _
          (effect_listenerEventFunc _ hwf listener fun t ht => ⟨listener, hmem, href, ht⟩)
  | acceptSmart =>
      exact @effect_runSockets cfg { st with sockets := scripted env st } _ env _
        (effect_ssListenerEventFunc _ hwf)
  | jdwpUpdated =>
      exact @effect_runSockets cfg { st with sockets := scripted env st } _ env _
        (effect_jdwpProcessListUpdated _ hwf)
  | register t state type =>
      exact @effect_updateTransports _ cfg env
        ({ { st with sockets := scripted env st }.modifyTransport t (fun _ => .blank state type)
          with transportList := t :: st.transportList }.log (.created t)) hwf
  | remove t =>
      exact @effect_updateTransports _ cfg env
        ({ st with
          sockets := scripted env st
          transportList := st.transportList.filter (· ≠ t) }.log (.deleted t)) hwf
  | reverseRequest service =>
      exact .same (@listenerChange_applyForwardRequest cfg env
        { st with sockets := scripted env st } _).sockets
  | frameworkConnect =>
      simp only [step, adbdAuthListener]
      split
      · split
        · exact @effect_sendAuthRequest _ env { st with
            sockets := scripted env st
            frameworkConnected := true
            unanswered := []
            needsRetry := false } _
        · exact effect_halt _
      · exact .refl
  | frameworkRead response answered =>
      simp only [step, adbdAuthEvent]
      split
      · exact .refl
      split
      · split
        · exact .send _ (.inl rfl)
        · exact .refl
      · exact .refl

theorem callback_noted {R : TransportRef → Prop} (env : Oracle) (st : Server) (action : Action) :
    Callback lossy drops R st.sockets (noted env st action) := by
  have hscripted : Callback lossy drops R st.sockets (scripted env st) :=
    callback_same ⟨rfl, rfl, rfl, ⟨rfl, rfl⟩, rfl, rfl, rfl, ⟨rfl, rfl⟩, id⟩
  cases action with
  | packet t p => exact hscripted.trans (.received t p)
  | _ => exact hscripted

/-- One step of the process, as the sockets see it. -/
theorem callback_step (h : WellFormed st.sockets) (henabled : Enabled cfg st l.1)
    (hloss : ∀ s, lossy s ∨ HandsOver cfg s st l) (hdrop : ∀ s, drops s ∨ Spares cfg s st l) :
    Callback lossy drops (Uses cfg st l.1) st.sockets (step cfg l.2 st l.1).sockets := by
  obtain ⟨action, env⟩ := l
  have hnoted := @callback_noted lossy drops (Uses cfg st action) env st action
  have hwf : WellFormed (scripted env st) := h.congr rfl rfl rfl ⟨rfl, rfl⟩
  refine hnoted.trans ?_
  cases action with
  | poll s revents =>
      obtain ⟨a, ha, -, hallowed⟩ := henabled
      exact callback_pollSocket (show (scripted env st).heap s = some a from ha) hallowed
  | dispatch s =>
      obtain ⟨a, ha, hkind, -⟩ := henabled
      have hread : a.fde.events.read = true → a.fde.events.write = false →
          readsFirst st.sockets (.dispatch s) = some (s, a) := by
        intro hread hwrite
        simp [readsFirst, ha, hread, hwrite]
      refine @callback_runSockets lossy drops cfg { st with sockets := scripted env st } _ env _ ?_
      rw [serviceContext_sockets]
      exact (callback_dispatchSocket _ hwf (fun type serial t ht => ⟨type, serial, ht⟩) ha
          (isLocal_of_kind hkind)
          ((hloss s).imp_right fun hhands hr hw => hhands a (hread hr hw))
          ((hdrop s).imp_right fun hspares hr hw => hspares a (hread hr hw)))
  | subprocExited s unread =>
      obtain ⟨-, a, ha, hkind⟩ := henabled
      have hread : unread = false → a.fde.pending = false →
          readsFirst st.sockets (.subprocExited s unread) = some (s, markEof a) := by
        intro hunread hidle
        simp [readsFirst, ha, hunread, hidle]
      refine @callback_runSockets lossy drops cfg { st with sockets := scripted env st } _ env _ ?_
      rw [serviceContext_sockets]
      exact (callback_subprocExited _ hwf (fun type serial t ht => ⟨type, serial, ht⟩) ha
          (isLocal_of_kind hkind) unread
          ((hloss s).imp_right fun hhands hu hp => hhands (markEof a) (hread hu hp))
          ((hdrop s).imp_right fun hspares hu hp => hspares (markEof a) (hread hu hp)))
  | _ => exact .effect (effect_step (l := (_, env)) h not_false)

theorem wellFormed_of_reachable (h : (serverSystem cfg).Reachable st) :
    WellFormed st.sockets := by
  refine h.invariant (I := fun st => WellFormed st.sockets) ?_ ?_
  · rintro st rfl
    exact wellFormed_initial
  · intro st l hwf henabled _
    have hstep : Callback (fun _ => True) (fun _ => True) (Uses cfg st l.1) st.sockets
        (step cfg l.2 st l.1).sockets :=
      callback_step hwf henabled.2 (fun _ => .inl trivial) fun _ => .inl trivial
    exact hstep.wellFormed hwf

end Step

end Adb.ServerEffects
