import Adb.TransportIsolation

/-!
Which messages a callback puts on the transports.  The socket functions send
messages about streams, and a SYNC is only ever an echo of the one received.
-/

namespace Adb.StreamSends

open Adb.DescriptorIo
open Adb.WirePackets
open Adb.SocketTable
open Adb.SocketOperations
open Adb.SmartSockets
open Adb.SocketEvents
open Adb.SocketClosing
open Adb.SocketGraph
open Adb.SocketEffects
open Adb.OperationEffects
open Adb.SmartEffects
open Adb.StreamEffects
open Adb.CallbackEffects
open Adb.ServerState
open Adb.ServerRuns
open Adb.ServerEffects
open Adb.TransportIsolation

/-- The packets of a history that were sent on a transport. -/
def sentOn (t : TransportRef) (trace : List Event) : List Apacket :=
  trace.filterMap fun
    | .sent t' p => if t' = t then some p else none
    | _ => none

theorem sentOn_append (t : TransportRef) (trace events : List Event) :
    sentOn t (trace ++ events) = sentOn t trace ++ sentOn t events :=
  List.filterMap_append

theorem mem_sentOn {t : TransportRef} {trace : List Event} {p : Apacket} :
    p ∈ sentOn t trace ↔ .sent t p ∈ trace := by
  rw [sentOn, List.mem_filterMap]
  constructor
  · rintro ⟨e, he, heq⟩
    split at heq
    · split at heq
      · rename_i ht
        cases heq
        exact ht ▸ he
      · cases heq
    · cases heq
  · intro h
    exact ⟨_, h, if_pos rfl⟩

/-- A message that is sent is about a stream. -/
def Streams : Event → Prop
  | .sent _ p => Command.isStream p.command = true
  | _ => True

variable {st : Sockets}

theorem streams_sendOn (t : Option TransportRef) {p : Apacket}
    (hp : Command.isStream p.command = true) : Emits Streams st (sendOn st t p) := by
  cases t with
  | none => exact .refl rfl
  | some t => exact .single rfl hp

/-! ### Closing -/

theorem streams_asocketShutdown (s : SocketRef) : Emits Streams st (asocketShutdown st s) := by
  unfold asocketShutdown
  split
  · unfold remoteSocketShutdown
    split
    · exact .refl rfl
    · exact streams_sendOn _ rfl
  · exact .refl rfl

theorem streams_localSocketFinish (s : SocketRef) : Emits Streams st (localSocketFinish st s) := by
  unfold localSocketFinish
  split
  · exact .refl rfl
  · rename_i a ha
    split
    · unfold localSocketDestroy
      rw [ha]
      exact .single rfl trivial
    · exact .single rfl trivial

section Close

variable {close : Sockets → SocketRef → Sockets}
  (hclose : ∀ st s, Emits Streams st (close st s))

include hclose

theorem streams_localSocketClose (s : SocketRef) :
    Emits Streams st (localSocketClose close st s) := by
  unfold localSocketClose
  split
  · exact streams_localSocketFinish s
  · rename_i q hq
    have hunlinked : Emits Streams st
        ((asocketShutdown st q).modify q fun a => { a with peer := none }) :=
      (streams_asocketShutdown q).trans (.refl rfl)
    refine (hunlinked.trans (hclose _ q)).trans ?_
    exact (Emits.refl rfl).trans (streams_localSocketFinish s)

theorem streams_closePeer (s : SocketRef) : Emits Streams st (closePeer close st s) := by
  unfold closePeer
  split
  · exact .refl rfl
  · rename_i q hq
    have hunlinked : Emits Streams st (st.modify q fun a => { a with peer := none }) := .refl rfl
    exact hunlinked.trans (hclose _ q)

end Close

theorem streams_asocketCloseFuel (fuel : Nat) (s : SocketRef) :
    Emits Streams st (asocketCloseFuel fuel st s) := by
  induction fuel generalizing st s with
  | zero => exact .refl rfl
  | succ fuel ih =>
      have hpeer : ∀ {st : Sockets} s, Emits Streams st (closePeer (asocketCloseFuel fuel) st s) :=
        fun s => streams_closePeer (fun _ s => ih s) s
      have hlocal : ∀ {st : Sockets} s,
          Emits Streams st (localSocketClose (asocketCloseFuel fuel) st s) :=
        fun s => streams_localSocketClose (fun _ s => ih s) s
      rw [asocketCloseFuel]
      split
      · exact .refl rfl
      · have hcalled : Emits Streams st (st.record (.closeCalled s)) := .single rfl trivial
        refine hcalled.trans ?_
        dsimp only
        split
        · exact hlocal s
        · refine Emits.trans ?_ (hlocal s)
          exact .single rfl trivial
        all_goals exact (hpeer s).trans (.refl rfl)

theorem streams_asocketClose (s : SocketRef) : Emits Streams st (asocketClose st s) :=
  streams_asocketCloseFuel 2 s

theorem streams_closeAllSocketsFuel (rounds : Nat) (t : TransportRef) :
    Emits Streams st (closeAllSocketsFuel rounds st t) := by
  induction rounds generalizing st with
  | zero => exact .refl rfl
  | succ rounds ih =>
      rw [closeAllSocketsFuel]
      split
      · exact .refl rfl
      · exact (streams_asocketClose _).trans ih

/-! ### `enqueue` and `ready` -/

theorem streams_localSocketEnqueue (s : SocketRef) (data : Bytes) :
    Emits Streams st (localSocketEnqueue st s data).2 := by
  have hwrote : Emits Streams st (st.afterWrite s (writeAll st.writeScript data)) :=
    .single rfl trivial
  unfold localSocketEnqueue
  split
  · exact .refl rfl
  · split
    · dsimp only
      split
      · exact hwrote
      · have hfailed : Emits Streams st ((st.afterWrite s
            (writeAll st.writeScript data)).record (.fdWriteFailed s)) :=
          hwrote.trans (.single rfl trivial)
        exact (hfailed.trans (.refl rfl)).trans (streams_asocketClose s)
      · exact hwrote.trans (.refl rfl)
    · exact .refl rfl

theorem streams_asocketEnqueue (s : SocketRef) (data : Bytes) :
    Emits Streams st (asocketEnqueue st s data).2 := by
  have hcalled : Emits Streams st (st.record (.enqueueCalled s data)) := .single rfl trivial
  have hjdwp : ∀ {st : Sockets}, Emits Streams st (jdwpSocketEnqueue st s).2 := by
    intro st
    unfold jdwpSocketEnqueue
    split
    · exact .refl rfl
    · exact streams_asocketClose _
  refine hcalled.trans ?_
  unfold asocketEnqueue
  dsimp only
  split
  · exact streams_localSocketEnqueue s data
  · exact streams_localSocketEnqueue s data
  · unfold remoteSocketEnqueue
    split
    · exact .refl rfl
    · exact streams_sendOn _ rfl
  · exact hjdwp
  · exact hjdwp
  · exact streams_asocketClose s
  · exact .refl rfl
  · exact .refl rfl

theorem streams_deviceTrackerSend (s : SocketRef) (list : Bytes) :
    Emits Streams st (deviceTrackerSend st s list) := by
  unfold deviceTrackerSend
  split
  · exact .refl rfl
  · exact streams_asocketEnqueue _ _

theorem streams_asocketReady (ctx : ServiceContext) (s : SocketRef) :
    Emits Streams st (asocketReady ctx st s) := by
  have hcalled : Emits Streams st (st.record (.readyCalled s)) := .single rfl trivial
  refine hcalled.trans ?_
  unfold asocketReady
  dsimp only
  split
  · exact .refl rfl
  · exact .refl rfl
  · exact .single rfl trivial
  · unfold remoteSocketReady
    split
    · exact .refl rfl
    · exact streams_sendOn _ rfl
  · exact .refl rfl
  · unfold jdwpSocketReady
    split
    · exact .refl rfl
    · split
      · exact .refl rfl
      · split
        · exact streams_asocketClose _
        · exact (streams_asocketEnqueue _ _).trans (.refl rfl)
  · unfold jdwpTrackerReady
    split
    · exact .refl rfl
    · split
      · split
        · exact .refl rfl
        · dsimp only
          split
          · exact .refl rfl
          · refine Emits.trans ?_ (streams_asocketEnqueue _ _)
            exact .refl rfl
      · exact .refl rfl
  · unfold deviceTrackerReady
    split
    · exact .refl rfl
    · split
      · refine Emits.trans ?_ (streams_deviceTrackerSend s _)
        exact .refl rfl
      · exact .refl rfl

theorem streams_of_quiet {e : Event} (h : Quiet false e) : Streams e := by
  cases e with
  | sent t p =>
      rcases h with h | h | h
      · cases h
      · simp [Streams, h, Command.isStream]
      · simp [Streams, h, Command.isStream]
  | _ => trivial

theorem streams_peerEnqueue (ctx : ServiceContext) (h : WellFormed st) {s q : SocketRef}
    (hq : st.peerOf s = some q) (data : Bytes) : Emits Streams st (peerEnqueue ctx st q data).2 := by
  unfold peerEnqueue
  split
  · rename_i hsmart
    have hcalled : Emits Streams st (st.record (.enqueueCalled q data)) := .single rfl trivial
    have hwf : WellFormed (st.record (.enqueueCalled q data)) := h.congr rfl rfl rfl ⟨rfl, rfl⟩
    have hattached : ¬ Attached st q := by
      rintro ⟨r, hr, hremote⟩
      obtain ⟨b, hb, hpeer⟩ := peerOf_eq_some.mp hr
      obtain ⟨-, c, hc, -, hcompat⟩ := (h.socket q b hb).peer r hpeer
      have hbkind : b.kind = .smart := by simpa [Sockets.kindOf, hb] using hsmart
      have hckind : c.kind = .remote := by simpa [Sockets.kindOf, hc] using hremote
      rw [hbkind, hckind] at hcompat
      cases hcompat
    have heffect : Effect false (fun _ => True) (fun _ => True)
        (st.record (.enqueueCalled q data))
        (smartSocketEnqueue ctx (st.record (.enqueueCalled q data)) q data).2 :=
      effect_smartSocketEnqueue hwf (fun _ _ _ _ => trivial) trivial (fun _ _ => trivial) hsmart
        (active_peer h hq) (.inr hattached) (fun _ _ => trivial) data
    exact hcalled.trans ((heffect.emits hwf).mono fun e he => streams_of_quiet he.1)
  · exact streams_asocketEnqueue q data

/-! ### The events of a descriptor -/

theorem streams_closeAtEof (s : SocketRef) (lastZero isEof : Bool) :
    Emits Streams st (closeAtEof st s lastZero isEof) := by
  unfold closeAtEof
  split
  · exact .refl rfl
  · split
    · exact streams_asocketClose s
    · exact .refl rfl

theorem streams_localSocketWriteEvent (ctx : ServiceContext) (s : SocketRef) :
    Emits Streams st (localSocketWriteEvent ctx st s).2 := by
  unfold localSocketWriteEvent
  split
  · exact .refl rfl
  · rename_i a ha
    have hdrained : Emits Streams st
        ((st.afterWrite s (drain st.writeScript a.pkts)).modify s fun b =>
          { b with pkts := (drain st.writeScript a.pkts).rest }) := .single rfl trivial
    dsimp only
    generalize (st.afterWrite s (drain st.writeScript a.pkts)).modify s (fun b =>
      { b with pkts := (drain st.writeScript a.pkts).rest }) = st₁ at hdrained
    split
    · exact hdrained
    · have hfailed : Emits Streams st₁ ((st₁.record (.fdWriteFailed s)).modify s fun a =>
          { a with hasWriteError := true }) := .single rfl trivial
      exact (hdrained.trans hfailed).trans (streams_asocketClose s)
    · split
      · exact hdrained.trans (streams_asocketClose s)
      · split
        · exact hdrained.trans (.refl rfl)
        · exact (hdrained.trans (.refl rfl)).trans (streams_asocketReady ctx _)

theorem streams_localSocketReadEvent (ctx : ServiceContext) (h : WellFormed st) (s : SocketRef) :
    Emits Streams st (localSocketReadEvent ctx st s) := by
  have hread : ∀ out, Emits Streams st (st.afterRead s out) := fun _ => .single rfl trivial
  unfold localSocketReadEvent
  split
  · exact .refl rfl
  · rename_i a ha
    dsimp only
    split
    · exact (hread _).trans (streams_closeAtEof s _ _)
    · rename_i q hpeer
      split
      · exact (hread _).trans (streams_closeAtEof s _ _)
      · generalize readLoop true st.readScript (getMaxPayload ctx.limit st s) = out
        have hhanded : Emits Streams st
            ((st.afterRead s out).record (.handedOver s out.bytes)) :=
          (hread out).trans (.single rfl trivial)
        have hwf : WellFormed ((st.afterRead s out).record (.handedOver s out.bytes)) :=
          h.congr rfl rfl rfl ⟨rfl, rfl⟩
        have hq : ((st.afterRead s out).record (.handedOver s out.bytes)).peerOf s = some q :=
          peerOf_eq_some.mpr ⟨a, ha, hpeer⟩
        have henqueued := hhanded.trans (streams_peerEnqueue ctx hwf hq out.bytes)
        generalize peerEnqueue ctx ((st.afterRead s out).record (.handedOver s out.bytes)) q
          out.bytes = result at henqueued
        obtain ⟨r, st₁⟩ := result
        dsimp only
        split
        · exact henqueued
        split
        · split
          · exact henqueued.trans (.refl rfl)
          · exact (henqueued.trans (.refl rfl)).trans (streams_closeAtEof s _ _)
        · exact henqueued.trans (streams_closeAtEof s _ _)

theorem streams_localSocketEventFunc (ctx : ServiceContext) (h : WellFormed st) {s : SocketRef}
    {a : Asocket} (hs : st.heap s = some a) (hlocal : SocketKind.isLocal a.kind = true)
    (ev : EventInterest.EventMask) : Emits Streams st (localSocketEventFunc ctx st s ev) := by
  unfold localSocketEventFunc
  cases ev.write with
  | false =>
      simp only [Bool.false_eq_true, if_false, Bool.true_and]
      split
      · exact streams_localSocketReadEvent ctx h s
      · exact .refl rfl
  | true =>
      simp only [if_true]
      have hwrite := @streams_localSocketWriteEvent st ctx s
      have hcallback : Callback (fun _ => True) (fun _ => True) (fun _ => False) st
          (localSocketWriteEvent ctx st s).2 := callback_localSocketWriteEvent ctx h hs hlocal
      split
      · exact hwrite.trans (streams_localSocketReadEvent ctx (hcallback.wellFormed h) s)
      · exact hwrite

theorem streams_dispatchSocket (ctx : ServiceContext) (h : WellFormed st) {s : SocketRef}
    {a : Asocket} (hs : st.heap s = some a) (hlocal : SocketKind.isLocal a.kind = true) :
    Emits Streams st (dispatchSocket ctx st s) := by
  have htaken : Callback (fun _ => True) (fun _ => True) (fun _ => False) st
      (st.modify s fun a => { a with fde := EventInterest.fdeventTake a.fde }) :=
    .own hs ⟨rfl, rfl, rfl, rfl, rfl, rfl, EventInterest.Fdevent.Sound.fdeventTake, fun _ => id⟩
  have hcell : (st.modify s fun a => { a with fde := EventInterest.fdeventTake a.fde }).heap s =
      some { a with fde := EventInterest.fdeventTake a.fde } := by
    simp [Sockets.modify, hs]
  unfold dispatchSocket
  simp only [hs]
  exact (Emits.refl rfl).trans (streams_localSocketEventFunc ctx (htaken.wellFormed h) hcell hlocal _)

theorem streams_subprocExited (ctx : ServiceContext) (h : WellFormed st) {s : SocketRef}
    {a : Asocket} (hs : st.heap s = some a) (hlocal : SocketKind.isLocal a.kind = true)
    (unread : Bool) : Emits Streams st (subprocExited ctx st s unread) := by
  have hmarked : Callback (fun _ => True) (fun _ => True) (fun _ => False) st
      (st.modify s markEof) :=
    .own hs ⟨rfl, rfl, rfl, rfl, rfl, rfl, fun hfde => ⟨hfde.writeWanted, hfde.idle⟩, fun _ => id⟩
  have hcell : (st.modify s markEof).heap s = some (markEof a) := by simp [Sockets.modify, hs]
  have hfaked : Callback (fun _ => True) (fun _ => True) (fun _ => False) (st.modify s markEof)
      ((st.modify s markEof).modify s fun a => { a with fde := { a.fde with
        events := a.fde.events.union .fdeRead, pending := true } }) := by
    refine .own hcell ⟨rfl, rfl, rfl, rfl, rfl, rfl, fun hfde => ⟨fun hw => ?_, by simp⟩,
      fun _ => id⟩
    refine hfde.writeWanted ?_
    simpa [EventInterest.EventMask.union, EventInterest.EventMask.fdeRead,
      EventInterest.EventMask.empty] using hw
  have hcell' : ((st.modify s markEof).modify s fun a => { a with fde := { a.fde with
      events := a.fde.events.union .fdeRead, pending := true } }).heap s =
        some { markEof a with fde := { (markEof a).fde with
          events := (markEof a).fde.events.union .fdeRead, pending := true } } := by
    simp [Sockets.modify, hs]
  unfold subprocExited
  simp only [hs]
  split
  · exact .refl rfl
  · split
    · exact .refl rfl
    · exact (Emits.refl rfl).trans
        (streams_dispatchSocket ctx (hfaked.wellFormed (hmarked.wellFormed h)) hcell' hlocal)

/-! ### The other callbacks -/

theorem streams_foldl {α : Type} {f : Sockets → α → Sockets}
    (hf : ∀ st x, Emits Streams st (f st x)) (l : List α) : Emits Streams st (l.foldl f st) := by
  induction l generalizing st with
  | nil => exact .refl rfl
  | cons x l ih => exact (hf st x).trans ih

theorem streams_jdwpProcessListUpdated (ctx : ServiceContext) :
    Emits Streams st (jdwpProcessListUpdated ctx st) := by
  refine streams_foldl (fun st tracker => ?_) _
  split
  · exact streams_asocketEnqueue _ _
  · exact .refl rfl

theorem streams_connectToRemote (ctx : ServiceContext) (s : SocketRef) (destination : Bytes) :
    Emits Streams st (connectToRemote ctx st s destination) := by
  unfold connectToRemote
  split
  · exact .refl rfl
  · dsimp only
    split
    · exact .refl rfl
    · exact streams_sendOn _ rfl

theorem streams_listenerEventFunc (ctx : ServiceContext) (l : Alistener) :
    Emits Streams st (listenerEventFunc ctx st l) :=
  (Emits.refl rfl).trans (streams_connectToRemote ctx _ _)

theorem streams_ssListenerEventFunc (ctx : ServiceContext) :
    Emits Streams st (ssListenerEventFunc ctx st) := by
  exact (Emits.refl rfl).trans (streams_asocketReady ctx _)

/-! ### `handle_packet` -/

section Packets

variable {ctx : ServiceContext} {t : TransportRef}

theorem streams_connectRemote (s : SocketRef) (remoteId : Nat) :
    Emits Streams st (connectRemote st s remoteId t) :=
  .single rfl trivial

theorem streams_handleOpen (h : WellFormed st) (p : Apacket) :
    Emits Streams st (handleOpen ctx st t p) := by
  unfold handleOpen
  split
  · exact .single rfl rfl
  next s st₁ hservice =>
      obtain ⟨-, a, hs⟩ : Effect true (fun _ => True) (fun _ => True) st st₁ ∧
          ∃ a, ServiceSocket st st₁ s a := createLocalServiceSocket_spec hservice h trivial
      have hlinked : Emits Streams st (connectRemote st₁ s p.arg0 t) :=
        (Emits.refl hs.trace).trans (streams_connectRemote s p.arg0)
      refine hlinked.trans (Emits.trans ?_ (streams_asocketReady ctx s))
      exact .single rfl rfl

theorem streams_handleOkay (p : Apacket) : Emits Streams st (handleOkay ctx st t p) := by
  unfold handleOkay
  split
  · exact .single rfl rfl
  · split
    · exact (streams_connectRemote _ _).trans (streams_asocketReady ctx _)
    · split
      · exact streams_asocketReady ctx _
      · exact .refl rfl

theorem streams_handleClse (p : Apacket) : Emits Streams st (handleClse st t p) := by
  unfold handleClse
  split
  · exact .refl rfl
  · dsimp only
    split
    · exact .refl rfl
    · exact streams_asocketClose _

theorem streams_handleWrte (p : Apacket) : Emits Streams st (handleWrte st t p) := by
  unfold handleWrte
  split
  · exact .refl rfl
  · rename_i s hs
    have henqueued := @streams_asocketEnqueue st s p.data
    generalize asocketEnqueue st s p.data = out at henqueued
    obtain ⟨r, st'⟩ := out
    dsimp only
    split
    · exact henqueued.trans (.single rfl rfl)
    · exact henqueued

theorem streams_handleStream (h : WellFormed st) (p : Apacket) :
    Emits Streams st (handleStream ctx st t p) := by
  unfold handleStream
  split
  · exact streams_handleOpen h p
  · exact streams_handleOkay p
  · exact streams_handleClse p
  · exact streams_handleWrte p
  · exact .refl rfl

end Packets

/-! ### One step of the process -/

/-- A SYNC that is sent while a callback runs is the one that it handles. -/
def Echoes (action : Action) : Event → Prop
  | .sent t p => p.command = .aSync → action = .packet t p
  | _ => True

theorem echoes_of_streams {action : Action} {e : Event} (h : Streams e) : Echoes action e := by
  cases e with
  | sent t p =>
      intro hsync
      simp [Streams, hsync, Command.isStream] at h
  | _ => trivial

section Server

variable {cfg : Config} {env : Oracle} {st : Server} {action : Action}

theorem echoes_send (t : TransportRef) {p : Apacket} (hp : p.command ≠ .aSync) :
    Emits (Echoes action) st.sockets (st.send t p).sockets :=
  .single rfl fun hsync => absurd hsync hp

theorem streams_updateTransports :
    Emits Streams st.sockets (updateTransports cfg env st).sockets := by
  unfold updateTransports
  split
  · exact streams_foldl (fun _ _ => streams_deviceTrackerSend _ _) _
  · exact .refl rfl

theorem streams_handleOffline (t : TransportRef) :
    Emits Streams st.sockets (handleOffline st t).sockets := by
  rw [handleOffline_sockets]
  exact streams_closeAllSocketsFuel _ t

theorem echoes_sendAuthRequest (t : TransportRef) :
    Emits (Echoes action) st.sockets (sendAuthRequest env st t).sockets := by
  unfold sendAuthRequest
  split
  · exact .refl rfl
  · exact .single rfl (by simp [Echoes])

theorem echoes_handleNewConnection (t : TransportRef) (p : Apacket) :
    Emits (Echoes action) st.sockets (handleNewConnection cfg env st t p).sockets := by
  have hoffline : Emits (Echoes action) st.sockets
      (if (st.transports t).connectionState ≠ .offline then
        handleOffline (setConnectionState st t .offline) t else st).sockets := by
    split
    · exact (@streams_handleOffline (setConnectionState st t .offline) t).mono
        fun _ => echoes_of_streams
    · exact .refl rfl
  have hupdated : ∀ {st : Server},
      Emits (Echoes action) st.sockets (updateTransports cfg env st).sockets :=
    streams_updateTransports.mono fun _ => echoes_of_streams
  unfold handleNewConnection
  dsimp only
  generalize (if (st.transports t).connectionState ≠ .offline then
    handleOffline (setConnectionState st t .offline) t else st) = st₁ at hoffline ⊢
  refine hoffline.trans (Emits.trans ?_ hupdated)
  split
  · exact .refl rfl
  · split
    · exact .single rfl (by simp [Echoes])
    · exact @echoes_sendAuthRequest env (st₁.modifyTransport t _) action t

theorem echoes_handleAuth (t : TransportRef) (p : Apacket) :
    Emits (Echoes action) st.sockets (handleAuth cfg env st t p).sockets := by
  have hunauthorized : (if (st.transports t).connectionState = .offline then
      setConnectionState st t .unauthorized else st).sockets = st.sockets := by
    split <;> rfl
  unfold handleAuth
  split
  · dsimp only
    split
    · refine (Emits.refl (congrArg Sockets.trace hunauthorized)).trans (echoes_send t ?_)
      simp
    · exact .refl (congrArg Sockets.trace hunauthorized)
  split
  · dsimp only
    split
    · exact .single rfl (by simp [Echoes])
    · exact @echoes_sendAuthRequest env (st.modifyTransport t _) action t
  split
  · exact .refl (congrArg Sockets.trace (adbdAuthConfirmKey_sockets t p.data))
  · exact (@streams_handleOffline (setConnectionState st t .offline) t).mono
      fun _ => echoes_of_streams

theorem echoes_handlePacket (h : WellFormed st.sockets) (t : TransportRef) (p : Apacket) :
    Emits (Echoes (.packet t p)) st.sockets (handlePacket cfg env st t p).sockets := by
  have hnoted : Emits (Echoes (.packet t p)) st.sockets (st.sockets.record (.received t p)) :=
    .single rfl trivial
  have hwf : WellFormed (st.sockets.record (.received t p)) := h.congr rfl rfl rfl ⟨rfl, rfl⟩
  refine hnoted.trans ?_
  unfold handlePacket
  dsimp only
  generalize hst₁ : ({ st with sockets := st.sockets.record (.received t p) }.log
    (.received t p)) = st₁
  have hsockets : st₁.sockets = st.sockets.record (.received t p) := by
    rw [← hst₁]
    rfl
  rw [← hsockets] at hwf ⊢
  have hstream : Emits (Echoes (.packet t p)) st₁.sockets
      (if actsOn (st₁.transports t).online p then
        { st₁ with sockets := handleStream (serviceContext cfg env st₁) st₁.sockets t p }.log
          (.acted t p)
      else st₁).sockets := by
    split
    · exact (streams_handleStream hwf p).mono fun _ => echoes_of_streams
    · exact .refl rfl
  have hecho : ∀ {st : Server}, Emits (Echoes (.packet t p)) st.sockets (st.send t p).sockets :=
    .single rfl fun _ => rfl
  split
  · split
    · split
      · refine (hecho.trans (echoes_send t ?_)).trans (echoes_send t ?_)
        · simp
        · simp
      · exact hecho
    · exact ((@streams_handleOffline (setConnectionState st₁ t .offline) t).mono
        fun _ => echoes_of_streams).trans hecho
  · exact echoes_handleNewConnection t p
  · exact echoes_handleAuth t p
  · exact hstream

theorem streams_runSockets {f : ServiceContext → Sockets → Sockets}
    (hf : Emits Streams st.sockets (f (serviceContext cfg env st) st.sockets)) :
    Emits Streams st.sockets (runSockets cfg env st f).sockets :=
  hf.trans (.refl (listenerChange_runSockets f).sockets.trace)

theorem echoes_step {l : Action × Oracle} (h : WellFormed st.sockets)
    (henabled : Enabled cfg st l.1) :
    Emits (Echoes l.1) st.sockets (step cfg l.2 st l.1).sockets := by
  obtain ⟨action, env⟩ := l
  have hquiet : ∀ {st' : Sockets}, Emits Streams (scripted env st) st' →
      Emits (Echoes action) st.sockets st' := fun hemits =>
    (Emits.refl rfl).trans (hemits.mono fun _ => echoes_of_streams)
  have hwf : WellFormed (scripted env st) := h.congr rfl rfl rfl ⟨rfl, rfl⟩
  have hsockets : ∀ (f : ServiceContext → Sockets → Sockets),
      Emits Streams (scripted env st) (f (serviceContext cfg env
        { st with sockets := scripted env st }) (scripted env st)) →
      Emits (Echoes action) st.sockets (runSockets cfg env
        { st with sockets := scripted env st } f).sockets := fun f hf =>
    hquiet (@streams_runSockets cfg env { st with sockets := scripted env st } f hf)
  cases action with
  | packet t p =>
      exact (Emits.refl rfl).trans
        (@echoes_handlePacket cfg env { st with sockets := scripted env st } hwf t p)
  | poll s revents => exact hquiet (.refl rfl)
  | dispatch s =>
      obtain ⟨a, hs, hkind, -⟩ := henabled
      have hlocal : SocketKind.isLocal a.kind = true := by
        rcases hkind with hk | hk <;> simp [hk, SocketKind.isLocal]
      exact hsockets _ (streams_dispatchSocket _ hwf hs hlocal)
  | subprocExited s unread =>
      obtain ⟨-, a, hs, hkind⟩ := henabled
      have hlocal : SocketKind.isLocal a.kind = true := by
        rcases hkind with hk | hk <;> simp [hk, SocketKind.isLocal]
      exact hsockets _ (streams_subprocExited _ hwf hs hlocal unread)
  | accept l =>
      simp only [step]
      split
      · exact hquiet (.refl rfl)
      · exact hsockets _ (streams_listenerEventFunc _ _)
  | acceptSmart => exact hsockets _ (streams_ssListenerEventFunc _)
  | jdwpUpdated => exact hsockets _ (streams_jdwpProcessListUpdated _)
  | register t state type =>
      exact (Emits.refl rfl).trans (streams_updateTransports.mono fun _ => echoes_of_streams)
  | remove t =>
      exact (Emits.refl rfl).trans (streams_updateTransports.mono fun _ => echoes_of_streams)
  | reverseRequest service =>
      have hchange := @listenerChange_applyForwardRequest cfg env
        { st with sockets := scripted env st } ⟨service, .any, none⟩
      exact hquiet (.refl hchange.sockets.trace)
  | frameworkConnect =>
      simp only [step, adbdAuthListener]
      split
      · split
        · exact (Emits.refl rfl).trans (@echoes_sendAuthRequest env { st with
            sockets := scripted env st, frameworkConnected := true, unanswered := [],
            needsRetry := false } _ _)
        · exact .refl rfl
      · exact .refl rfl
  | frameworkRead response answered =>
      simp only [step, adbdAuthEvent]
      split
      · exact .refl rfl
      · split
        · split
          · exact .single rfl (by simp [Echoes])
          · exact .refl rfl
        · exact .refl rfl

end Server

end Adb.StreamSends
