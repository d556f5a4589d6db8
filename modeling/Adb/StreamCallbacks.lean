import Adb.StreamLinks

/-!
No callback joins or loses a stream of a transport, apart from the stream
messages of that transport itself.
-/

namespace Adb.StreamCallbacks

open Adb.DescriptorIo
open Adb.EventInterest
open Adb.WirePackets
open Adb.SocketTable
open Adb.SocketOperations
open Adb.SmartSockets
open Adb.SocketEvents
open Adb.SocketClosing
open Adb.SocketGraph
open Adb.SocketEffects
open Adb.OperationEffects
open Adb.SmartEffects
open Adb.StreamEffects
open Adb.CallbackEffects
open Adb.GraphInvariants
open Adb.ServerState
open Adb.ServerRuns
open Adb.ServerEffects
open Adb.TransportIsolation
open Adb.StreamLinks

section Loops

variable {t : TransportRef} {st : Sockets}

theorem kept_listenerEventFunc (ctx : ServiceContext) (h : WellFormed st) (l : Alistener) :
    Kept t st (listenerEventFunc ctx st l) := by
  have hnew := @hostSocket_createLocalSocket st
  have hset : Effect false (fun p => p = st.nextRef) (fun _ => True) st
      ((createLocalSocket st).2.modify (createLocalSocket st).1 fun a =>
        { a with transport := l.transport }) :=
    effect_listenerSocket h l rfl fun _ _ => trivial
  have hkept : Kept t st ((createLocalSocket st).2.modify (createLocalSocket st).1 fun a =>
      { a with transport := l.transport }) :=
    kept_silent h hset (fun p hp => .inl (Nat.le_of_eq hp.symm)) rfl
  refine hkept.trans (kept_connectToRemote hkept.after (fun a t' ha ht' => ?_) _)
  have hcell : ((createLocalSocket st).2.modify (createLocalSocket st).1 fun a =>
      { a with transport := l.transport }).heap (createLocalSocket st).1 =
        some { Asocket.blank .localSocket with
          id := st.localSocketNextId, transport := l.transport } := by
    simp [Sockets.modify, hnew.cell]
  obtain rfl := Option.some.inj (hcell.symm.trans ha)
  exact ⟨_, hcell, rfl, rfl, rfl, rfl, ht'⟩

theorem kept_ssListenerEventFunc (ctx : ServiceContext) (h : WellFormed st) :
    Kept t st (ssListenerEventFunc ctx st) := by
  have hnew := @hostSocket_createLocalSocket st
  have hcreated : Effect false (fun p => st.nextRef ≤ p) (fun _ => True) st
      (createLocalSocket st).2 := effect_createLocalSocket (Nat.le_refl _)
  have hlinked : Effect false (fun p => st.nextRef ≤ p) (fun _ => True) (createLocalSocket st).2
      (linkNew (createLocalSocket st).2 (createLocalSocket st).1 (.blank .smart)) :=
    effect_linkNew (hcreated.wellFormed h) hnew.cell (newSocket_blank (by simp)) rfl rfl rfl rfl
      (.inr (by simp [Asocket.blank])) (by simp [Asocket.blank]) (by simp [Asocket.blank]) rfl
      (Nat.le_refl _) (Nat.le_succ _)
  have hkept : Kept t st
      (linkNew (createLocalSocket st).2 (createLocalSocket st).1 (.blank .smart)) :=
    kept_silent h (hcreated.trans hlinked) (fun _ hp => .inl hp) rfl
  exact hkept.trans (kept_asocketReady ctx hkept.after _)

theorem kept_jdwpProcessListUpdated (ctx : ServiceContext) (h : WellFormed st)
    (htrackers : TrackersOk st) : Kept t st (jdwpProcessListUpdated ctx st) := by
  unfold jdwpProcessListUpdated
  generalize hlist : st.jdwpTrackers = trackers
  have hkind := htrackers.jdwp
  rw [hlist] at hkind
  clear htrackers hlist
  induction trackers generalizing st with
  | nil => exact .refl h
  | cons s trackers ih =>
      have hrest := fun p hp => hkind p (List.mem_cons_of_mem s hp)
      rw [List.foldl_cons]
      cases hq : st.peerOf s with
      | none => exact ih h hrest
      | some q =>
          obtain ⟨a, ha, -⟩ := peerOf_eq_some.mp hq
          have hs : Kept t st (asocketEnqueue st q (jdwpProcessListMsg ctx.jdwpPids 1024)).2 := by
            refine kept_asocketEnqueue h (unjoined_peer h hq ?_) _
            rw [kindOf_eq ha ((hkind s List.mem_cons_self).2 a ha)]
            simp
          refine hs.trans (ih hs.after fun p hp => ?_)
          exact kind_kept hs.kinds hs.next rfl (hrest p hp)

end Loops

/-- A relation that holds across what the process does apart from streams: it closes
sockets, sends other messages, and tells the trackers of the device list. -/
structure Carries (P : Sockets → Sockets → Prop) : Prop where
  after : ∀ {st st'}, P st st' → WellFormed st'
  trans : ∀ {st₁ st₂ st₃}, P st₁ st₂ → P st₂ st₃ → P st₁ st₃
  same : ∀ {st st'}, WellFormed st → SameTable st st' → P st st'
  received : ∀ {st}, WellFormed st → ∀ t p, P st (st.record (.received t p))
  close : ∀ {st s a}, WellFormed st → st.heap s = some a → P st (asocketClose st s)
  send : ∀ {st}, WellFormed st → ∀ t {p}, Command.isStream p.command = false →
    P st (st.sendPacket t p)
  notify : ∀ {st s}, WellFormed st → (∀ a, st.heap s = some a → a.kind = .deviceTracker) →
    ∀ list, P st (deviceTrackerSend st s list)

/-- The callbacks that are about transports and their authentication. -/
def Administrative : Action → Prop
  | .packet _ p => Command.isStream p.command = false
  | .register _ _ _ | .remove _ | .reverseRequest _ | .frameworkConnect | .frameworkRead _ _ => True
  | _ => False

section Administration

variable {P : Sockets → Sockets → Prop} {cfg : Config} {env : Oracle} {st : Server}
  (hP : Carries P)

include hP

theorem Carries.refl {st : Sockets} (h : WellFormed st) : P st st := hP.same h .rfl'

theorem Carries.closeAll {st : Sockets} (h : WellFormed st) (rounds : Nat) (t : TransportRef) :
    P st (closeAllSocketsFuel rounds st t) := by
  induction rounds generalizing st with
  | zero => exact hP.refl h
  | succ rounds ih =>
      rw [closeAllSocketsFuel]
      split
      · exact hP.refl h
      · rename_i s hs
        obtain ⟨a, ha, -⟩ := (h.listed s).mp (List.mem_of_find?_eq_some hs)
        have hclosed := hP.close h ha
        exact hP.trans hclosed (ih (hP.after hclosed))

theorem Carries.offline (h : WellFormed st.sockets) (t : TransportRef) :
    P st.sockets (handleOffline st t).sockets := by
  rw [handleOffline_sockets]
  exact hP.closeAll h _ t

theorem Carries.authRequest (h : WellFormed st.sockets) (t : TransportRef) :
    P st.sockets (sendAuthRequest env st t).sockets := by
  unfold sendAuthRequest
  split
  · exact hP.refl h
  · exact hP.send h t rfl

theorem Carries.connect (h : WellFormed st.sockets) (t : TransportRef) :
    P st.sockets (sendConnect cfg st t).sockets := hP.send h t rfl

theorem Carries.transports (h : WellFormed st.sockets) (htrackers : TrackersOk st.sockets) :
    P st.sockets (updateTransports cfg env st).sockets := by
  have hloop : ∀ (trackers : List SocketRef) (st : Sockets), WellFormed st →
      (∀ s ∈ trackers, s < st.nextRef ∧ ∀ a, st.heap s = some a → a.kind = .deviceTracker) →
        P st (trackers.foldl (fun st s => deviceTrackerSend st s env.deviceList) st) := by
    intro trackers
    induction trackers with
    | nil => exact fun st h _ => hP.refl h
    | cons s trackers ih =>
        intro st h hkind
        have hsent := hP.notify h (hkind s List.mem_cons_self).2 env.deviceList
        have heffect : Effect true (fun _ => True) (fun _ => True) st
            (deviceTrackerSend st s env.deviceList) := effect_deviceTrackerSend h s _
        refine hP.trans hsent (ih _ (hP.after hsent) fun s' hs' => ?_)
        exact kind_kept (fun _ _ hp hb => heffect.cell h hp hb) (heffect.counters h).1 rfl
          (hkind s' (List.mem_cons_of_mem _ hs'))
  unfold updateTransports
  split
  · exact hloop _ _ h htrackers.device
  · exact hP.refl h

theorem Carries.newConnection (h : WellFormed st.sockets) (htrackers : TrackersOk st.sockets)
    (t : TransportRef) (p : Apacket) :
    P st.sockets (handleNewConnection cfg env st t p).sockets := by
  have hoffline : P st.sockets
      (if (st.transports t).connectionState ≠ .offline then
        handleOffline (setConnectionState st t .offline) t else st).sockets ∧
      Effect true (fun _ => True) (fun _ => True) st.sockets
      (if (st.transports t).connectionState ≠ .offline then
        handleOffline (setConnectionState st t .offline) t else st).sockets := by
    split
    · exact ⟨@Carries.offline P (setConnectionState st t .offline) hP h t,
        @effect_handleOffline _ (setConnectionState st t .offline) h t⟩
    · exact ⟨hP.refl h, .refl⟩
  unfold handleNewConnection
  dsimp only
  generalize (if (st.transports t).connectionState ≠ .offline then
    handleOffline (setConnectionState st t .offline) t else st) = st₁ at hoffline ⊢
  obtain ⟨hcarried, heffect⟩ := hoffline
  refine hP.trans hcarried ?_
  have hwf := hP.after hcarried
  have htrackers₁ := htrackers.effect heffect h
  generalize hst₂ : (st₁.modifyTransport t fun a =>
    { a with
      protocolVersion := min (wordToInt p.arg0) aVersion
      maxPayload := min p.arg1 maxPayloadConst
      connectionState := bannerState p.data }) = st₂
  have hsockets : st₂.sockets = st₁.sockets := by
    rw [← hst₂]
    rfl
  rw [← hsockets] at hwf htrackers₁ ⊢
  split
  · exact @Carries.transports P cfg env (handleOnline st₂ t) hP hwf htrackers₁
  · split
    · have hsent : P st₂.sockets (sendConnect cfg (handleOnline st₂ t) t).sockets :=
        @Carries.connect P cfg (handleOnline st₂ t) hP hwf t
      have heffect : Effect true (fun _ => True) (fun _ => True) st₂.sockets
          (sendConnect cfg (handleOnline st₂ t) t).sockets := .send t (.inl rfl)
      exact hP.trans hsent (hP.transports (hP.after hsent) (htrackers₁.effect heffect hwf))
    · have hsent : P st₂.sockets (sendAuthRequest env st₂ t).sockets := hP.authRequest hwf t
      have heffect : Effect true (fun _ => True) (fun _ => True) st₂.sockets
          (sendAuthRequest env st₂ t).sockets := effect_sendAuthRequest t
      exact hP.trans hsent (hP.transports (hP.after hsent) (htrackers₁.effect heffect hwf))

theorem Carries.auth (h : WellFormed st.sockets) (t : TransportRef) (p : Apacket) :
    P st.sockets (handleAuth cfg env st t p).sockets := by
  have hunauthorized : (if (st.transports t).connectionState = .offline then
      setConnectionState st t .unauthorized else st).sockets = st.sockets := by
    split <;> rfl
  unfold handleAuth
  split
  · dsimp only
    generalize (if (st.transports t).connectionState = .offline then
      setConnectionState st t .unauthorized else st) = st₁ at hunauthorized ⊢
    rw [← hunauthorized] at h ⊢
    split
    · exact hP.send h t rfl
    · exact hP.refl h
  split
  · dsimp only
    split
    · exact hP.send h t rfl
    · exact @Carries.authRequest P env (st.modifyTransport t _) hP h t
  split
  · rw [adbdAuthConfirmKey_sockets]
    exact hP.refl h
  · exact @Carries.offline P (setConnectionState st t .offline) hP h t

theorem Carries.packet (h : WellFormed st.sockets) (htrackers : TrackersOk st.sockets)
    (t : TransportRef) {p : Apacket} (hp : Command.isStream p.command = false) :
    P st.sockets (handlePacket cfg env st t p).sockets := by
  have hnoted : P st.sockets (st.sockets.record (.received t p)) := hP.received h t p
  have htrackers' : TrackersOk (st.sockets.record (.received t p)) :=
    ⟨htrackers.jdwp, htrackers.device⟩
  refine hP.trans hnoted ?_
  have hwf := hP.after hnoted
  unfold handlePacket
  dsimp only
  generalize hst₁ : ({ st with sockets := st.sockets.record (.received t p) }.log
    (.received t p)) = st₁
  have hsockets : st₁.sockets = st.sockets.record (.received t p) := by
    rw [← hst₁]
    rfl
  rw [← hsockets] at hwf htrackers' ⊢
  split
  · split
    · have hecho : P st₁.sockets (st₁.send t p).sockets := hP.send hwf t hp
      split
      · have hempty : P (st₁.send t p).sockets ((st₁.send t p).send t
            { command := .other 0, arg0 := 0, arg1 := 0, data := [] }).sockets :=
          hP.send (hP.after hecho) t rfl
        exact hP.trans (hP.trans hecho hempty) (hP.connect (hP.after hempty) t)
      · exact hecho
    · have hoffline := @Carries.offline P (setConnectionState st₁ t .offline) hP hwf t
      exact hP.trans hoffline (hP.send (hP.after hoffline) t hp)
  · exact hP.newConnection hwf htrackers' t p
  · exact hP.auth hwf t p
  · rename_i hsync hcnxn hauth
    have hidle : actsOn (st₁.transports t).online p = false := by
      cases hc : p.command <;> simp_all [actsOn, Command.isStream]
    rw [hidle]
    exact hP.refl hwf

theorem Carries.run {f : ServiceContext → Sockets → Sockets}
    (hf : P st.sockets (f (serviceContext cfg env st) st.sockets)) :
    P st.sockets (runSockets cfg env st f).sockets :=
  hP.trans hf (hP.same (hP.after hf) (@listenerChange_runSockets cfg env st f).sockets)

theorem Carries.scripted (h : WellFormed st.sockets) (env : Oracle) :
    P st.sockets (ServerEffects.scripted env st) :=
  hP.same h ⟨rfl, rfl, rfl, ⟨rfl, rfl⟩, rfl, rfl, rfl, ⟨rfl, rfl⟩, id⟩

theorem Carries.step {action : Action} (h : WellFormed st.sockets)
    (htrackers : TrackersOk st.sockets) (haction : Administrative action) :
    P st.sockets (step cfg env st action).sockets := by
  have hscripted := hP.scripted h env
  have hwf := hP.after hscripted
  have htrackers' : TrackersOk (ServerEffects.scripted env st) :=
    ⟨htrackers.jdwp, htrackers.device⟩
  refine hP.trans hscripted ?_
  cases action with
  | packet t p =>
      exact @Carries.packet P cfg env { st with sockets := ServerEffects.scripted env st } hP hwf
        htrackers' t p haction
  | register t state type =>
      exact @Carries.transports P cfg env (({ st with
        sockets := ServerEffects.scripted env st
        transports := Function.update st.transports t (.blank state type)
        transportList := t :: st.transportList } : Server).log (.created t)) hP hwf htrackers'
  | remove t =>
      exact @Carries.transports P cfg env (({ st with
        sockets := ServerEffects.scripted env st
        transportList := st.transportList.filter (· ≠ t) } : Server).log (.deleted t)) hP hwf
        htrackers'
  | reverseRequest service =>
      exact hP.same hwf (@listenerChange_applyForwardRequest cfg env
        { st with sockets := ServerEffects.scripted env st } ⟨service, .any, none⟩).sockets
  | frameworkConnect =>
      simp only [ServerRuns.step, adbdAuthListener]
      split
      · split
        · exact @Carries.authRequest P env { st with
            sockets := ServerEffects.scripted env st, frameworkConnected := true,
            unanswered := [], needsRetry := false } hP hwf _
        · exact hP.same hwf ⟨rfl, rfl, rfl, ⟨rfl, rfl⟩, rfl, rfl, rfl, ⟨rfl, rfl⟩,
            check_orElse (by decide)⟩
      · exact hP.refl hwf
  | frameworkRead response answered =>
      simp only [ServerRuns.step, adbdAuthEvent]
      split
      · exact hP.refl hwf
      · split
        · split
          · exact hP.send hwf _ rfl
          · exact hP.refl hwf
        · exact hP.refl hwf
  | _ => exact haction.elim

end Administration

theorem carries_kept (t : TransportRef) : Carries (Kept t) where
  after h := h.after
  trans := Kept.trans
  same h hsame := .of_heap h hsame.heap hsame.listed hsame.closing hsame.counters (.refl hsame.trace)
  received h _ _ := kept_record h trivial
  close := kept_asocketClose
  send h t' p hp := by
    refine kept_sendPacket h t' (tells_sent ?_ ?_ ?_)
    all_goals
      intro hc
      simp [hc, Command.isStream] at hp
  notify h hs list := by
    refine kept_deviceTrackerSend h (fun hremote => ?_) list
    obtain ⟨a, ha, hk⟩ := Option.map_eq_some_iff.mp hremote
    simp [hs a ha] at hk

section Connections

variable {t : TransportRef} {st : Sockets} {s : SocketRef} {a : Asocket} {remoteId : Nat}
  {t' : TransportRef} (h : WellFormed st) (hs : Connectable st s a)

include h hs

omit h in
theorem connectable_kind : a.kind ≠ .remote := by
  intro hk
  have hlisted := hs.listed
  simp [hk, SocketKind.isListed] at hlisted

theorem joined_connectRemote {p : SocketRef} {i j : Nat} :
    Joined t (connectRemote st s remoteId t') p i j ↔
      Joined t st p i j ∨ (t' = t ∧ p = s ∧ i = a.id ∧ j = remoteId) := by
  obtain ⟨hself, hnew, hother, -⟩ := connectRemote_cells h hs.cell remoteId t'
  have hfresh : ∀ {p b}, st.heap p = some b → p ≠ st.nextRef := fun hp =>
    Nat.ne_of_lt (h.socket _ _ hp).fresh
  constructor
  · rintro ⟨c, q, d, hc, hid, hpeer, hd, hk, hid', ht⟩
    by_cases hps : p = s
    · subst hps
      obtain rfl := Option.some.inj (hself.symm.trans hc)
      obtain rfl := Option.some.inj hpeer
      obtain rfl := Option.some.inj (hnew.symm.trans hd)
      exact .inr ⟨Option.some.inj ht, rfl, hid.symm, hid'.symm⟩
    · by_cases hpn : p = st.nextRef
      · subst hpn
        obtain rfl := Option.some.inj (hnew.symm.trans hc)
        obtain rfl := Option.some.inj hpeer
        obtain rfl := Option.some.inj (hself.symm.trans hd)
        exact absurd (show a.kind = .remote from hk) (connectable_kind hs)
      · rw [hother p hps hpn] at hc
        obtain ⟨-, d', hd', hback, -⟩ := (h.socket p c hc).peer q hpeer
        have hqs : q ≠ s := by
          rintro rfl
          obtain rfl := Option.some.inj (hs.cell.symm.trans hd')
          simp [hs.peer] at hback
        rw [hother q hqs (hfresh hd')] at hd
        exact .inl ⟨c, q, d, hc, hid, hpeer, hd, hk, hid', ht⟩
  · rintro (⟨c, q, d, hc, hid, hpeer, hd, hk, hid', ht⟩ | ⟨rfl, rfl, rfl, rfl⟩)
    · have hps : p ≠ s := by
        rintro rfl
        obtain rfl := Option.some.inj (hs.cell.symm.trans hc)
        simp [hs.peer] at hpeer
      have hqs : q ≠ s := by
        rintro rfl
        obtain rfl := Option.some.inj (hs.cell.symm.trans hd)
        exact connectable_kind hs hk
      exact ⟨c, q, d, (hother p hps (hfresh hc)).trans hc, hid, hpeer,
        (hother q hqs (hfresh hd)).trans hd, hk, hid', ht⟩
    · exact ⟨_, _, _, hself, rfl, rfl, hnew, rfl, rfl, rfl⟩

theorem waiting_connectRemote {p : SocketRef} {i : Nat} :
    Waiting t (connectRemote st s remoteId t') p i ↔ Waiting t st p i ∧ p ≠ s := by
  obtain ⟨hself, hnew, hother, -⟩ := connectRemote_cells h hs.cell remoteId t'
  constructor
  · rintro ⟨c, hc, hlisted, hclosing, hid, hpeer, ht⟩
    have hps : p ≠ s := by
      rintro rfl
      obtain rfl := Option.some.inj (hself.symm.trans hc)
      simp at hpeer
    have hpn : p ≠ st.nextRef := by
      rintro rfl
      obtain rfl := Option.some.inj (hnew.symm.trans hc)
      simp at hpeer
    exact ⟨⟨c, hother p hps hpn ▸ hc, hlisted, hclosing, hid, hpeer, ht⟩, hps⟩
  · rintro ⟨⟨c, hc, hwaiting⟩, hps⟩
    exact ⟨c, (hother p hps (Nat.ne_of_lt (h.socket p c hc).fresh)).trans hc, hwaiting⟩

theorem over_connectRemote {p : SocketRef} (hp : p < st.nextRef) :
    Over (connectRemote st s remoteId t') p ↔ Over st p := by
  obtain ⟨hself, -, hother, -⟩ := connectRemote_cells h hs.cell remoteId t'
  by_cases hps : p = s
  · subst hps
    simp [Over, hself, hs.cell]
  · rw [Over, Over, hother p hps (Nat.ne_of_lt hp)]

theorem kept_connectRemote (ht : t' ≠ t) (hwaits : a.transport ≠ some t) :
    Kept t st (connectRemote st s remoteId t') := by
  have heffect : Effect true (fun _ => True) (fun _ => True) st (connectRemote st s remoteId t') :=
    effect_connectRemote h hs trivial trivial remoteId trivial
  refine ⟨h, heffect.wellFormed h, (heffect.counters h).1, fun _ _ hp hb => heffect.cell h hp hb,
    idsKept_effect heffect h, fun p hp => (over_connectRemote h hs hp).mpr, ?_, ?_, ?_, ?_⟩
  · intro p i j hp
    exact ((joined_connectRemote h hs).mp hp).resolve_right fun hnew => ht hnew.1
  · exact fun p i j hp => .inl ((joined_connectRemote h hs).mpr (.inl hp))
  · refine fun p i hp => .inl ((waiting_connectRemote h hs).mpr ⟨hp, ?_⟩)
    rintro rfl
    obtain ⟨c, hc, -, -, -, -, htc⟩ := hp
    obtain rfl := Option.some.inj (hs.cell.symm.trans hc)
    exact hwaits htc
  · obtain ⟨-, -, -, htrace⟩ := connectRemote_cells h hs.cell remoteId t'
    exact .single htrace ht

omit hs in
theorem kept_service {R : TransportRef → Prop} {st' : Sockets}
    (heffect : Effect true (fun _ => True) R st st') (hs : ServiceSocket st st' s a) :
    Kept t st st' := by
  have hsame : ∀ {p}, p < st.nextRef → st'.heap p = st.heap p := fun hp =>
    hs.heap _ (hs.ref ▸ Nat.ne_of_lt hp)
  have hcell := hs.connectable.cell
  have hfresh : ∀ {p b}, st'.heap p = some b → b.peer.isSome = true → p < st.nextRef := by
    intro p b hb hpeer
    by_cases hp : p = s
    · subst hp
      obtain rfl := Option.some.inj (hcell.symm.trans hb)
      simp [hs.connectable.peer] at hpeer
    · exact (h.socket p b (hs.heap p hp ▸ hb)).fresh
  refine ⟨h, heffect.wellFormed h, (heffect.counters h).1, fun _ _ hp hb => heffect.cell h hp hb,
    idsKept_effect heffect h, fun p hp hover => ?_, ?_, ?_, ?_, .refl hs.trace⟩
  · rwa [Over, hsame hp]
  · rintro p i j ⟨c, q, d, hc, hid, hpeer, hd, hk, hid', ht⟩
    obtain ⟨-, d', hd', hback, -⟩ := ((heffect.wellFormed h).socket p c hc).peer q hpeer
    obtain rfl := Option.some.inj (hd.symm.trans hd')
    have hp := hfresh hc (by simp [hpeer])
    have hq := hfresh hd (by simp [hback])
    exact ⟨c, q, d, hsame hp ▸ hc, hid, hpeer, hsame hq ▸ hd, hk, hid', ht⟩
  · rintro p i j ⟨c, q, d, hc, hid, hpeer, hd, hk, hid', ht⟩
    exact .inl ⟨c, q, d, (hsame (h.socket p c hc).fresh).trans hc, hid, hpeer,
      (hsame (h.socket q d hd).fresh).trans hd, hk, hid', ht⟩
  · rintro p i ⟨c, hc, hwaiting⟩
    exact .inl ⟨c, (hsame (h.socket p c hc).fresh).trans hc, hwaiting⟩

end Connections

section Streams

variable {t t' : TransportRef} {st : Sockets} {ctx : ServiceContext} {p : Apacket}

theorem kept_sendOther (h : WellFormed st) (ht : t' ≠ t) (p : Apacket) :
    Kept t st (st.sendPacket t' p) :=
  kept_sendPacket h t' fun heq => absurd heq ht

theorem kept_handleClse (h : WellFormed st) : Kept t st (handleClse st t' p) := by
  unfold handleClse
  split
  · exact .refl h
  · rename_i s hfound
    obtain ⟨-, a, ha, -⟩ := mem_list_of_findLocalSocket hfound
    dsimp only
    split
    · exact .refl h
    · exact kept_asocketClose h ha

theorem kept_handleStream_other (h : WellFormed st) (ht : t' ≠ t)
    (hforeign : ∀ s, addressed st t' p = some s → ¬ Belongs st s t) :
    Kept t st (handleStream ctx st t' p) := by
  unfold handleStream
  split
  · unfold handleOpen
    split
    · exact kept_sendOther h ht _
    · rename_i s st₁ hservice
      obtain ⟨hcreated, a, hs⟩ : Effect true (fun _ => True) (fun _ => True) st st₁ ∧
          ∃ a, ServiceSocket st st₁ s a := createLocalServiceSocket_spec hservice h trivial
      have hnew : Kept t st st₁ := kept_service h hcreated hs
      have hconnected : Kept t st₁ (connectRemote st₁ s p.arg0 t') :=
        kept_connectRemote hnew.after hs.connectable ht (by simp [hs.transport])
      have hsent := (hnew.trans hconnected).trans (kept_sendOther hconnected.after ht
        { command := .aOkay
          arg0 := ((connectRemote st₁ s p.arg0 t').heap s |>.map Asocket.id).getD 0
          arg1 := p.arg0
          data := [] })
      exact hsent.trans (kept_asocketReady ctx hsent.after s)
  · rename_i hcommand
    unfold handleOkay
    split
    · exact kept_sendOther h ht _
    · rename_i s hfound
      split
      · rename_i hpeer
        obtain ⟨hmem, -⟩ := mem_list_of_findLocalSocket hfound
        obtain ⟨a, ha, hlisted, hclosing⟩ := (h.listed s).mp hmem
        have hs : Connectable st s a :=
          ⟨ha, by simpa [Sockets.peerOf, ha] using hpeer, hclosing, hlisted⟩
        have hnamed : addressed st t' p = some s := by
          simp [addressed, hcommand, hfound, Option.filter, hpeer]
        have hconnected : Kept t st (connectRemote st s p.arg0 t') :=
          kept_connectRemote h hs ht fun hat => hforeign s hnamed ⟨a, ha, .inl hat⟩
        exact hconnected.trans (kept_asocketReady ctx hconnected.after s)
      · split
        · exact kept_asocketReady ctx h s
        · exact .refl h
  · exact kept_handleClse h
  · rename_i hcommand
    unfold handleWrte
    split
    · exact .refl h
    · rename_i s hfound
      have hnamed : addressed st t' p = some s := by simpa only [addressed, hcommand] using hfound
      obtain ⟨hmem, -⟩ := mem_list_of_findLocalSocket hfound
      obtain ⟨a, ha, -, hclosing⟩ := (h.listed s).mp hmem
      have hunjoined : Unjoined t st s := by
        refine .inr ⟨a, ha, hclosing, ?_⟩
        rintro i j ⟨c, q, d, hc, -, hpeer, hd, -, -, htd⟩
        exact hforeign s hnamed ⟨c, hc, .inr ⟨q, d, hpeer, hd, htd⟩⟩
      have henqueued := kept_asocketEnqueue h hunjoined p.data
      dsimp only
      split
      · exact henqueued.trans (kept_sendOther henqueued.after ht _)
      · exact henqueued
  · exact .refl h

end Streams

/-- The messages of other transports leave the sockets of `t` alone. -/
def Apart (t : TransportRef) (st : Server) : Action → Prop
  | .packet t' p => t' ≠ t → actsOn (st.transports t').online p = true →
      ∀ s, addressed st.sockets t' p = some s → ¬ Belongs st.sockets s t
  | _ => True

/-- The message is about a stream of `t`. -/
def IsMessage (t : TransportRef) : Action → Prop
  | .packet t' p => t' = t ∧ Command.isStream p.command = true
  | _ => False

section Step

variable {t : TransportRef} {cfg : Config} {env : Oracle} {st : Server}

/-- A callback that is no message about a stream of `t`. -/
theorem kept_step {l : Action × Oracle} (h : Settled st.sockets) (henabled : Enabled cfg st l.1)
    (hother : ¬ IsMessage t l.1) (hapart : Apart t st l.1) :
    Kept t st.sockets (step cfg l.2 st l.1).sockets := by
  obtain ⟨action, env⟩ := l
  have hscripted : Kept t st.sockets (scripted env st) :=
    (carries_kept t).scripted h.wellFormed env
  have hwf := hscripted.after
  have hsockets : ∀ (f : ServiceContext → Sockets → Sockets),
      Kept t (scripted env st) (f (serviceContext cfg env
        { st with sockets := scripted env st }) (scripted env st)) →
      Kept t st.sockets (runSockets cfg env { st with sockets := scripted env st } f).sockets :=
    fun f hf => hscripted.trans
      (@Carries.run _ cfg env { st with sockets := scripted env st } (carries_kept t) f hf)
  cases action with
  | packet t' p =>
      by_cases hstream : Command.isStream p.command = true
      · have ht : t' ≠ t := fun ht => hother ⟨ht, hstream⟩
        obtain ⟨ctx, -, hstep⟩ := @step_packet_sockets cfg env st t' p hstream
        have hnoted : Kept t (scripted env st) ((scripted env st).record (.received t' p)) :=
          kept_record hwf trivial
        rw [hstep]
        refine (hscripted.trans hnoted).trans ?_
        split
        · rename_i hacts
          exact kept_handleStream_other hnoted.after ht (hapart ht hacts)
        · exact .refl hnoted.after
      · exact (carries_kept t).step h.wellFormed h.trackers (Bool.eq_false_iff.mpr hstream)
  | poll s revents =>
      obtain ⟨a, hs, -, hallowed⟩ := henabled
      have hok := hwf.socket s a hs
      refine hscripted.trans
        (kept_local hwf hs rfl rfl rfl rfl rfl ?_ (hok.fde.fdeventProcess hallowed))
      intro hlocal hpkts
      simpa using hok.queue hlocal hpkts
  | dispatch s =>
      obtain ⟨a, hs, hkind, -⟩ := henabled
      exact hsockets _ (kept_dispatchSocket _ hwf hs (isLocal_of_kind hkind))
  | subprocExited s unread =>
      obtain ⟨-, a, hs, hkind⟩ := henabled
      exact hsockets _ (kept_subprocExited _ hwf hs (isLocal_of_kind hkind) unread)
  | accept l =>
      simp only [step]
      split
      · exact hscripted
      · exact hsockets _ (kept_listenerEventFunc _ hwf _)
  | acceptSmart => exact hsockets _ (kept_ssListenerEventFunc _ hwf)
  | jdwpUpdated =>
      exact hsockets _ (kept_jdwpProcessListUpdated _ hwf ⟨h.trackers.jdwp, h.trackers.device⟩)
  | register | remove | reverseRequest | frameworkConnect | frameworkRead =>
      exact (carries_kept t).step h.wellFormed h.trackers trivial

end Step

end Adb.StreamCallbacks
