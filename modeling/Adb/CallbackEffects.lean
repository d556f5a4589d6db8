import Adb.EnqueueContract
import Adb.StreamEffects

/-!
What a whole callback of the main thread can do to the sockets.  Besides the
effects of the socket functions there are the steps of the event function on
its own socket, which may be closing.
-/

namespace Adb.CallbackEffects

open Adb.DescriptorIo
open Adb.EventInterest
open Adb.WirePackets
open Adb.SocketTable
open Adb.SocketOperations
open Adb.SmartSockets
open Adb.SocketEvents
open Adb.SocketClosing
open Adb.SocketGraph
open Adb.SocketEffects
open Adb.OperationEffects
open Adb.SmartEffects
open Adb.EnqueueContract
open Adb.StreamEffects
open Adb.ServerState
open Adb.ServerRuns

/-- A change of a socket's own event record or of its error mark. -/
structure OwnChange (a a' : Asocket) : Prop where
  kind : a'.kind = a.kind
  peer : a'.peer = a.peer
  id : a'.id = a.id
  closing : a'.closing = a.closing
  pkts : a'.pkts = a.pkts
  transport : a'.transport = a.transport
  fde : a.fde.Sound → a'.fde.Sound
  write : a.pkts ≠ [] → a.fde.state.write = true → a'.fde.state.write = true

/-- The steps of a callback.  The sockets in `lossy` may read bytes that are not
handed over, and those in `drops` may be destroyed with their queue. -/
inductive Callback (lossy drops : SocketRef → Prop) (R : TransportRef → Prop) :
    Sockets → Sockets → Prop where
  | effect {st st' : Sockets} (h : Effect true (fun _ => True) R st st') :
      Callback lossy drops R st st'
  | own {st : Sockets} {s : SocketRef} {a : Asocket} {f : Asocket → Asocket}
      (hs : st.heap s = some a) (hf : OwnChange a (f a)) :
      Callback lossy drops R st (st.modify s f)
  | drained {st : Sockets} {s : SocketRef} {a : Asocket} (hs : st.heap s = some a)
      (hlocal : SocketKind.isLocal a.kind = true) :
      Callback lossy drops R st
        ((st.afterWrite s (drain st.writeScript a.pkts)).modify s fun b =>
          { b with pkts := (drain st.writeScript a.pkts).rest })
  | failed {st : Sockets} (s : SocketRef) :
      Callback lossy drops R st (st.record (.fdWriteFailed s))
  | finish {st : Sockets} {s : SocketRef} {a : Asocket} (hs : st.heap s = some a)
      (hclosing : a.closing = true)
      (hdrained : drops s ∨ a.pkts = [] ∨
        st.trace.getLast? = some (.fdWriteFailed s)) :
      Callback lossy drops R st (asocketClose st s)
  | readSilent {st : Sockets} (s : SocketRef) {out : ReadOutcome}
      (hout : lossy s ∨ out.bytes = []) : Callback lossy drops R st (st.afterRead s out)
  | readHanded {st : Sockets} (s : SocketRef) (out : ReadOutcome) :
      Callback lossy drops R st
        ((st.afterRead s out).record (.handedOver s out.bytes))
  | received {st : Sockets} (t : TransportRef) (p : Apacket) :
      Callback lossy drops R st (st.record (.received t p))
  | trans {st₁ st₂ st₃ : Sockets} (h₁ : Callback lossy drops R st₁ st₂)
      (h₂ : Callback lossy drops R st₂ st₃) : Callback lossy drops R st₁ st₃

section Rules

variable {lossy drops : SocketRef → Prop} {R : TransportRef → Prop} {st st' : Sockets}

theorem Callback.refl : Callback lossy drops R st st := .effect .refl

theorem OwnChange.respects {a a' : Asocket} (h : OwnChange a a') {s : SocketRef}
    (hok : SocketOk st s a) : Respects a a' := by
  refine .of_kind h.kind h.peer h.id h.closing ?_ (h.fde hok.fde) ?_
  · intro hlocal hpkts
    rw [h.pkts] at hpkts
    exact h.write hpkts (hok.queue hlocal hpkts)
  · rw [h.transport]
    exact hok.transport

theorem drain_nil_rest {script : List WriteResult} {pkts : List Bytes}
    (h : (drain script pkts).rest ≠ []) : pkts ≠ [] := by
  rintro rfl
  exact h rfl

theorem Callback.wellFormed (h : Callback lossy drops R st st') (hwf : WellFormed st) :
    WellFormed st' := by
  induction h with
  | effect h => exact h.wellFormed hwf
  | own hs hf => exact hwf.modify hs (hf.respects (hwf.socket _ _ hs))
  | @drained st s a hs hlocal =>
      have hwf' : WellFormed (st.afterWrite s (drain st.writeScript a.pkts)) :=
        hwf.congr rfl rfl rfl ⟨rfl, rfl⟩
      have hok := hwf.socket s a hs
      refine hwf'.modify hs (.of_kind rfl rfl rfl rfl ?_ hok.fde hok.transport)
      intro hl hrest
      exact hok.queue hl (drain_nil_rest hrest)
  | failed => exact hwf.congr rfl rfl rfl ⟨rfl, rfl⟩
  | finish hs _ _ => exact hwf.asocketClose hs
  | readSilent | readHanded | received => exact hwf.congr rfl rfl rfl ⟨rfl, rfl⟩
  | trans _ _ ih₁ ih₂ => exact ih₂ (ih₁ hwf)

end Rules

section Events

variable {lossy drops : SocketRef → Prop} {R : TransportRef → Prop} {st : Sockets} {s : SocketRef}
  {a : Asocket}

theorem callback_closeOwn (hs : st.heap s = some a)
    (hdrained : a.closing = true → drops s ∨ a.pkts = [] ∨
      st.trace.getLast? = some (.fdWriteFailed s)) :
    Callback lossy drops R st (asocketClose st s) := by
  cases hclosing : a.closing with
  | true => exact .finish hs hclosing (hdrained hclosing)
  | false => exact .effect (.close hs hclosing fun _ _ => trivial)

theorem callback_closeAtEof {lastZero isEof : Bool} (hs : st.heap s = some a)
    (hdrained : a.closing = true → drops s ∨
      ((a.fde.forceEof && lastZero) || isEof) = false) :
    Callback lossy drops R st (closeAtEof st s lastZero isEof) := by
  unfold closeAtEof
  simp only [hs]
  split
  · rename_i heof
    refine callback_closeOwn hs fun hclosing => ?_
    rcases hdrained hclosing with hdrops | hnot
    · exact .inl hdrops
    · simp [hnot] at heof
  · exact .refl

theorem callback_localSocketWriteEvent (ctx : ServiceContext) (h : WellFormed st)
    (hs : st.heap s = some a) (hlocal : SocketKind.isLocal a.kind = true) :
    Callback lossy drops R st (localSocketWriteEvent ctx st s).2 := by
  have hdrained : Callback lossy drops R st _ := .drained hs hlocal
  have hwf := hdrained.wellFormed h
  have hcell : ((st.afterWrite s (drain st.writeScript a.pkts)).modify s fun b =>
      { b with pkts := (drain st.writeScript a.pkts).rest }).heap s =
        some { a with pkts := (drain st.writeScript a.pkts).rest } := by
    simp [Sockets.modify, Sockets.afterWrite, hs]
  unfold localSocketWriteEvent
  simp only [hs]
  generalize hst₁ : ((st.afterWrite s (drain st.writeScript a.pkts)).modify s fun b =>
      { b with pkts := (drain st.writeScript a.pkts).rest }) = st₁ at hdrained hwf hcell
  split
  · exact hdrained
  · have hmarked : Callback lossy drops R (st₁.record (.fdWriteFailed s))
        ((st₁.record (.fdWriteFailed s)).modify s fun a => { a with hasWriteError := true }) :=
      .own hcell ⟨rfl, rfl, rfl, rfl, rfl, rfl, id, fun _ => id⟩
    refine ((hdrained.trans (.failed s)).trans hmarked).trans ?_
    refine callback_closeOwn (a := { a with
      pkts := (drain st.writeScript a.pkts).rest, hasWriteError := true }) ?_ fun _ => ?_
    · simp [Sockets.modify, Sockets.record, hcell]
    · refine .inr (.inr ?_)
      simp [Sockets.modify, Sockets.record]
  · rename_i hdone
    have hrest : (drain st.writeScript a.pkts).rest = [] := drain_rest_of_done hdone
    split
    · exact hdrained.trans (callback_closeOwn hcell fun _ => .inr (.inl hrest))
    · have hquiet : Callback lossy drops R st₁
          (st₁.modify s fun a => { a with fde := fdeventDel a.fde .fdeWrite }) := by
        refine .own hcell ⟨rfl, rfl, rfl, rfl, rfl, rfl, fun hfde => hfde.fdeventDel _, ?_⟩
        intro hpkts
        exact absurd hrest hpkts
      split
      · exact (hdrained.trans hquiet).trans (.effect (effect_halt _))
      · rename_i q hpeer
        have hwf' := hquiet.wellFormed hwf
        have hq : (st₁.modify s fun a => { a with fde := fdeventDel a.fde .fdeWrite }).peerOf s =
            some q := by
          simp [Sockets.peerOf, Sockets.modify, hcell, hpeer]
        exact (hdrained.trans hquiet).trans (.effect
          (effect_asocketReady hwf' (active_peer hwf' hq) (.inl rfl) (fun _ _ => trivial) ctx))

/-- The read of this event loses no bytes: there is a peer, or there was
nothing to read. -/
def ReadHandsOver (ctx : ServiceContext) (st : Sockets) (s : SocketRef) (a : Asocket) : Prop :=
  a.peer = none → (readLoop true st.readScript (getMaxPayload ctx.limit st s)).bytes = []

/-- The read of this event does not destroy a closing socket: it meets no end of
file on one, and it does not meet one after the peer could not write. -/
def ReadSpares (ctx : ServiceContext) (st : Sockets) (s : SocketRef) (a : Asocket) : Prop :=
  let out := readLoop true st.readScript (getMaxPayload ctx.limit st s)
  (a.closing = true → ((a.fde.forceEof && out.lastZero) || out.isEof) = false) ∧
    ∀ q b, a.peer = some q → st.heap q = some b → SocketKind.isLocal b.kind = true →
      WriteFails st b out.bytes → a.pkts ≠ [] → out.isEof = false

theorem callback_localSocketReadEvent (ctx : ServiceContext) (h : WellFormed st)
    (hR : ∀ type serial t, ctx.acquire type serial = .ok t → R t)
    (hs : st.heap s = some a) (hlocal : SocketKind.isLocal a.kind = true)
    (hloss : lossy s ∨ ReadHandsOver ctx st s a)
    (hdrop : drops s ∨ ReadSpares ctx st s a) :
    Callback lossy drops R st (localSocketReadEvent ctx st s) := by
  have hspared : a.closing = true → drops s ∨
      ((a.fde.forceEof && (readLoop true st.readScript
        (getMaxPayload ctx.limit st s)).lastZero) ||
          (readLoop true st.readScript (getMaxPayload ctx.limit st s)).isEof) = false :=
    fun hclosing => hdrop.imp_right fun hspares => hspares.1 hclosing
  unfold localSocketReadEvent
  simp only [hs]
  split
  · rename_i hpeer
    exact (Callback.readSilent s (hloss.imp_right fun hhands => hhands hpeer)).trans
      (callback_closeAtEof hs hspared)
  · rename_i q hpeer
    split
    · rename_i hempty
      exact (Callback.readSilent s (.inr (by simpa using hempty))).trans
        (callback_closeAtEof hs hspared)
    · obtain ⟨b, hlinked⟩ := linked_of_wellFormed h hs hpeer
      generalize hout : readLoop true st.readScript (getMaxPayload ctx.limit st s) = out
      have hread : Callback lossy drops R st
          ((st.afterRead s out).record (.handedOver s out.bytes)) := .readHanded s out
      have hwf := hread.wellFormed h
      have hlinked' : Linked ((st.afterRead s out).record (.handedOver s out.bytes)) s q a b :=
        linked_congr hlinked hlinked.left hlinked.right rfl rfl rfl rfl rfl
      have henqueued : Callback lossy drops R
          ((st.afterRead s out).record (.handedOver s out.bytes))
          (peerEnqueue ctx ((st.afterRead s out).record (.handedOver s out.bytes)) q
            out.bytes).2 := by
        refine .effect (effect_peerEnqueue hwf hR ?_ (.inl rfl) (.inl rfl) (fun _ _ => trivial)
          (fun _ _ => trivial) out.bytes)
        exact active_peer hwf (peerOf_eq_some.mpr ⟨a, hs, hpeer⟩)
      have hclosing : ∀ a', 0 ≤ (peerEnqueue ctx
          ((st.afterRead s out).record (.handedOver s out.bytes)) q out.bytes).1 →
          (peerEnqueue ctx ((st.afterRead s out).record (.handedOver s out.bytes)) q
            out.bytes).2.heap s = some a' → a'.closing = true →
          (peerEnqueue ctx ((st.afterRead s out).record (.handedOver s out.bytes)) q
            out.bytes).1 = 1 ∧ (drops s ∨ out.isEof = false) := by
        intro a' hr ha' hclosing
        obtain ⟨hone, hb, hfails, hpkts⟩ :=
          closing_after_peerEnqueue ctx hlinked' hlocal hr ha' hclosing
        refine ⟨hone, hdrop.imp_right fun hspares => ?_⟩
        have hspared := hspares.2 q b hpeer hlinked.right hb
        rw [hout] at hspared
        exact hspared hfails hpkts
      refine (hread.trans henqueued).trans ?_
      generalize peerEnqueue ctx ((st.afterRead s out).record (.handedOver s out.bytes)) q
        out.bytes = result at hclosing ⊢
      obtain ⟨r, st₁⟩ := result
      simp only at hclosing ⊢
      split
      · exact .refl
      split
      · split
        · exact .effect (effect_halt _)
        · rename_i a' ha'
          have hpaused : Callback lossy drops R st₁
              (st₁.modify s fun a => { a with fde := fdeventDel a.fde .fdeRead }) := by
            refine .own ha' ⟨rfl, rfl, rfl, rfl, rfl, rfl, fun hfde => hfde.fdeventDel _, ?_⟩
            intro _ hwrite
            simp [EventMask.diff, EventMask.fdeRead, EventMask.empty, hwrite]
          refine hpaused.trans (callback_closeAtEof (a := { a' with
            fde := fdeventDel a'.fde .fdeRead }) ?_ fun hclosing' => ?_)
          · simp [Sockets.modify, ha']
          · simpa using (hclosing a' (by omega) ha' hclosing').2
      · cases ha' : st₁.heap s with
        | none =>
            simp only [closeAtEof, ha']
            exact .effect (effect_halt _)
        | some a' =>
            refine callback_closeAtEof ha' fun hclosing' => ?_
            have hone := (hclosing a' (by omega) ha' hclosing').1
            omega

theorem localSocketEnqueue_cell (h : WellFormed st) (hs : st.heap s = some a)
    (data : Bytes) {a' : Asocket} (ha' : (localSocketEnqueue st s data).2.heap s = some a') :
    a'.peer = a.peer ∧ a'.closing = a.closing ∧ a'.kind = a.kind := by
  unfold localSocketEnqueue at ha'
  simp only [hs] at ha'
  split at ha'
  · split at ha'
    · obtain rfl := Option.some.inj (hs.symm.trans ha')
      exact ⟨rfl, rfl, rfl⟩
    · have hcell : (((st.afterWrite s (writeAll st.writeScript data)).record
          (.fdWriteFailed s)).modify s fun a => { a with hasWriteError := true }).heap s =
            some { a with hasWriteError := true } := by
        simp [Sockets.modify, Sockets.record, Sockets.afterWrite, hs]
      have hwf : WellFormed (((st.afterWrite s (writeAll st.writeScript data)).record
          (.fdWriteFailed s)).modify s fun a => { a with hasWriteError := true }) := by
        have hok := h.socket s a hs
        have hwf' : WellFormed ((st.afterWrite s (writeAll st.writeScript data)).record
            (.fdWriteFailed s)) := h.congr rfl rfl rfl ⟨rfl, rfl⟩
        exact hwf'.modify hs (.of_kind rfl rfl rfl rfl hok.queue hok.fde hok.transport)
      have hclosed := hwf.asocketClose_closed hcell
      rw [hclosed.heap, if_pos (self_mem_withPeer _ s), hcell] at ha'
      simp [remains] at ha'
    · obtain rfl : { a with pkts := [(writeAll st.writeScript data).rest]
                            fde := fdeventAdd a.fde .fdeWrite } = a' := by
        simpa [Sockets.modify, Sockets.afterWrite, hs] using ha'
      exact ⟨rfl, rfl, rfl⟩
  · obtain rfl : { a with pkts := a.pkts ++ [data]
                          fde := fdeventAdd a.fde .fdeWrite } = a' := by
      simpa [Sockets.modify, hs] using ha'
    exact ⟨rfl, rfl, rfl⟩

theorem asocketReady_peer_cell (ctx : ServiceContext) (h : WellFormed st)
    (hs : st.heap s = some a) (hlocal : SocketKind.isLocal a.kind = true) {q : SocketRef}
    {b : Asocket} (hpeer : a.peer = some q) (hq : st.heap q = some b) {a' : Asocket}
    (ha' : (asocketReady ctx st q).heap s = some a') :
    a'.peer = a.peer ∧ a'.closing = a.closing ∧ a'.kind = a.kind ∧
      (b.kind ≠ .deviceTracker → a' = a) := by
  obtain ⟨hne, b', hb', hback, hcompat⟩ := (h.socket s a hs).peer q hpeer
  obtain rfl := Option.some.inj (hq.symm.trans hb')
  have hkind : (st.record (.readyCalled q)).kindOf q = some b.kind := by
    simp [Sockets.kindOf, Sockets.record, hq]
  have hs' : (st.record (.readyCalled q)).heap s = some a := hs
  have hq' : (st.record (.readyCalled q)).heap q = some b := hq
  have hwf : WellFormed (st.record (.readyCalled q)) := h.congr rfl rfl rfl ⟨rfl, rfl⟩
  have hsame : ∀ P : Prop, a' = a →
      a'.peer = a.peer ∧ a'.closing = a.closing ∧ a'.kind = a.kind ∧ (P → a' = a) := by
    rintro P rfl
    exact ⟨rfl, rfl, rfl, fun _ => rfl⟩
  unfold asocketReady at ha'
  simp only [hkind] at ha'
  cases hk : b.kind with
  | jdwp | jdwpTracker =>
      rw [hk] at hcompat
      cases hak : a.kind <;> simp_all [Compatible, SocketKind.isLocal]
  | localSocket | localNotify =>
      simp only [hk, localSocketReady, localSocketReadyNotify] at ha'
      refine hsame _ ?_
      simpa [Sockets.modify, Sockets.record, Sockets.reply, hne.symm, hs, eq_comm] using ha'
  | smart =>
      simp only [hk] at ha'
      exact hsame _ (Option.some.inj (ha'.symm.trans hs'))
  | remote =>
      simp only [hk, remoteSocketReady, hq', sendOn_heap] at ha'
      exact hsame _ (Option.some.inj (ha'.symm.trans hs'))
  | deviceTracker =>
      simp only [hk, deviceTrackerReady, hq'] at ha'
      split at ha'
      · have hok := hwf.socket q b hq'
        have hwf' : WellFormed ((st.record (.readyCalled q)).modify q fun a =>
            { a with updateNeeded := false }) :=
          hwf.modify hq' (.of_kind rfl rfl rfl rfl hok.queue hok.fde hok.transport)
        have hpeerOf : ((st.record (.readyCalled q)).modify q fun a =>
            { a with updateNeeded := false }).peerOf q = some s := by
          simp [Sockets.peerOf, Sockets.modify, hq', hback]
        have hcell : ((st.record (.readyCalled q)).modify q fun a =>
            { a with updateNeeded := false }).heap s = some a := by
          simp [Sockets.modify, hne.symm, hs']
        simp only [deviceTrackerSend, hpeerOf] at ha'
        generalize (st.record (.readyCalled q)).modify q (fun a =>
            { a with updateNeeded := false }) = st₂ at hwf' hcell ha'
        have hcell' : ∀ e, (st₂.record e).heap s = some a := fun _ => hcell
        have hakind : ∀ e, (st₂.record e).kindOf s = some a.kind := by
          intro e
          simp [Sockets.kindOf, hcell' e]
        have henqueue : ∀ data, (asocketEnqueue st₂ s data).2 =
            (localSocketEnqueue (st₂.record (.enqueueCalled s data)) s data).2 := by
          intro data
          simp only [asocketEnqueue, hakind]
          cases hak : a.kind <;> simp_all [SocketKind.isLocal]
        rw [henqueue] at ha'
        have hwf'' : WellFormed (st₂.record (.enqueueCalled s
            (hexHeader ctx.deviceList.length ++ ctx.deviceList))) :=
          hwf'.congr rfl rfl rfl ⟨rfl, rfl⟩
        obtain ⟨hpeer', hclosing', hkind'⟩ :=
          localSocketEnqueue_cell hwf'' (hcell' _) _ ha'
        exact ⟨hpeer', hclosing', hkind', fun hne => absurd rfl hne⟩
      · exact hsame _ (Option.some.inj (ha'.symm.trans hs'))

/-- The state in which the peer is told to resume, after the last packet of the
queue has been written. -/
def afterDrain (st : Sockets) (s : SocketRef) (a : Asocket) : Sockets :=
  ((st.afterWrite s (drain st.writeScript a.pkts)).modify s fun b =>
    { b with pkts := (drain st.writeScript a.pkts).rest }).modify s fun b =>
      { b with fde := fdeventDel b.fde .fdeWrite }

/-- The event function goes on after the `FDE_WRITE` part only when it has told
the peer to resume. -/
theorem localSocketWriteEvent_goesOn (ctx : ServiceContext) (hs : st.heap s = some a)
    (hgo : (localSocketWriteEvent ctx st s).1 = true) :
    ∃ q, a.peer = some q ∧ a.closing = false ∧ (drain st.writeScript a.pkts).rest = [] ∧
      localSocketWriteEvent ctx st s = (true, asocketReady ctx (afterDrain st s a) q) := by
  unfold localSocketWriteEvent at hgo ⊢
  simp only [hs] at hgo ⊢
  split at hgo
  · simp at hgo
  · simp at hgo
  · rename_i hdone
    split at hgo
    · simp at hgo
    · rename_i hclosing
      split at hgo
      · simp at hgo
      · rename_i q hpeer
        refine ⟨q, hpeer, by simpa using hclosing, drain_rest_of_done hdone, ?_⟩
        simp only [hclosing]
        rfl

theorem afterDrain_cell (hs : st.heap s = some a) :
    (afterDrain st s a).heap s = some { a with
      pkts := (drain st.writeScript a.pkts).rest
      fde := fdeventDel a.fde .fdeWrite } := by
  simp [afterDrain, Sockets.modify, Sockets.afterWrite, hs]

theorem callback_afterDrain (hs : st.heap s = some a)
    (hlocal : SocketKind.isLocal a.kind = true)
    (hrest : (drain st.writeScript a.pkts).rest = []) :
    Callback lossy drops R st (afterDrain st s a) := by
  have hdrained : Callback lossy drops R st _ := .drained hs hlocal
  have hcell : ((st.afterWrite s (drain st.writeScript a.pkts)).modify s fun b =>
      { b with pkts := (drain st.writeScript a.pkts).rest }).heap s =
        some { a with pkts := (drain st.writeScript a.pkts).rest } := by
    simp [Sockets.modify, Sockets.afterWrite, hs]
  refine hdrained.trans (.own hcell ⟨rfl, rfl, rfl, rfl, rfl, rfl, fun hfde => hfde.fdeventDel _,
    fun hpkts => absurd hrest hpkts⟩)

theorem localSocketWriteEvent_cell (ctx : ServiceContext) (h : WellFormed st)
    (hs : st.heap s = some a) (hlocal : SocketKind.isLocal a.kind = true)
    (hgo : (localSocketWriteEvent ctx st s).1 = true) {a' : Asocket}
    (ha' : (localSocketWriteEvent ctx st s).2.heap s = some a') :
    SocketKind.isLocal a'.kind = true ∧
      ReadHandsOver ctx (localSocketWriteEvent ctx st s).2 s a' ∧
      ReadSpares ctx (localSocketWriteEvent ctx st s).2 s a' := by
  obtain ⟨q, hpeer, hclosing, hrest, heq⟩ := localSocketWriteEvent_goesOn ctx hs hgo
  have hcallback : Callback (fun _ => True) (fun _ => True) (fun _ => False) st (afterDrain st s a) :=
    callback_afterDrain hs hlocal hrest
  have hwf := hcallback.wellFormed h
  have hcell := afterDrain_cell hs
  obtain ⟨hne, b, hb, hback, hcompat⟩ := (hwf.socket s _ hcell).peer q hpeer
  have hactive : Active (afterDrain st s a) q :=
    active_peer hwf (peerOf_eq_some.mpr ⟨_, hcell, hpeer⟩)
  have heffect : Effect true (fun _ => True) (fun _ => False) (afterDrain st s a)
      (asocketReady ctx (afterDrain st s a) q) :=
    effect_asocketReady hwf hactive (.inl rfl) (fun _ _ => trivial) ctx
  rw [heq] at ha' ⊢
  obtain ⟨hpeer', hclosing', hkind', hsame⟩ :=
    asocketReady_peer_cell ctx hwf hcell hlocal hpeer hb ha'
  refine ⟨by rw [hkind']; exact hlocal, ?_, ?_, ?_⟩
  · intro hnone
    rw [hpeer', hpeer] at hnone
    simp at hnone
  · intro htrue
    rw [hclosing', hclosing] at htrue
    simp at htrue
  · intro q' b' hq' hb' hblocal _ hpkts
    obtain rfl : q = q' := by
      rw [hpeer', hpeer] at hq'
      exact Option.some.inj hq'
    obtain ⟨c, hc, hkind⟩ := heffect.cell hwf (hwf.socket q b hb).fresh hb'
    obtain rfl := Option.some.inj (hb.symm.trans hc)
    by_cases htracker : b.kind = .deviceTracker
    · rw [htracker] at hkind
      rw [hkind.of_not_local rfl] at hblocal
      simp [SocketKind.isLocal] at hblocal
    · rw [hsame htracker] at hpkts
      exact absurd hrest hpkts

/-- `local_socket_event_func`.  Only a read event that comes alone can lose
bytes or destroy a queue. -/
theorem callback_localSocketEventFunc (ctx : ServiceContext) (h : WellFormed st)
    (hR : ∀ type serial t, ctx.acquire type serial = .ok t → R t)
    (hs : st.heap s = some a) (hlocal : SocketKind.isLocal a.kind = true) (ev : EventMask)
    (hloss : lossy s ∨
      (ev.read = true → ev.write = false → ReadHandsOver ctx st s a))
    (hdrop : drops s ∨ (ev.read = true → ev.write = false → ReadSpares ctx st s a)) :
    Callback lossy drops R st (localSocketEventFunc ctx st s ev) := by
  unfold localSocketEventFunc
  cases hwrite : ev.write with
  | false =>
      simp only [Bool.false_eq_true, if_false, Bool.true_and]
      split
      · rename_i hread
        exact callback_localSocketReadEvent ctx h hR hs hlocal
          (hloss.imp_right fun hhands => hhands hread hwrite)
          (hdrop.imp_right fun hspares => hspares hread hwrite)
      · exact .refl
  | true =>
      simp only [if_true]
      have hcallback : Callback lossy drops R st (localSocketWriteEvent ctx st s).2 :=
        callback_localSocketWriteEvent ctx h hs hlocal
      split
      · rename_i hgo
        simp only [Bool.and_eq_true] at hgo
        have hwf := hcallback.wellFormed h
        refine hcallback.trans ?_
        cases ha' : (localSocketWriteEvent ctx st s).2.heap s with
        | none =>
            simp only [localSocketReadEvent, ha']
            exact .effect (effect_halt _)
        | some a' =>
            obtain ⟨hlocal', hhands, hspares⟩ :=
              localSocketWriteEvent_cell ctx h hs hlocal hgo.1 ha'
            exact callback_localSocketReadEvent ctx hwf hR ha' hlocal' (.inr hhands)
              (.inr hspares)
      · exact hcallback

theorem getMaxPayload_modify (limit : TransportRef → Nat) {f : Asocket → Asocket}
    (htransport : ∀ a, (f a).transport = a.transport) (hpeer : ∀ a, (f a).peer = a.peer) :
    getMaxPayload limit (st.modify s f) s = getMaxPayload limit st s := by
  cases hs : st.heap s with
  | none =>
      have hsame : (st.modify s f).heap = st.heap := by simp [Sockets.modify, hs]
      simp only [getMaxPayload, hsame]
  | some a =>
      have hself : (st.modify s f).heap s = some (f a) := by simp [Sockets.modify, hs]
      have hother : ((f a).peer.bind (st.modify s f).heap).bind (·.transport) =
          (a.peer.bind st.heap).bind (·.transport) := by
        rw [hpeer]
        cases a.peer with
        | none => rfl
        | some q =>
            by_cases hq : q = s
            · subst hq
              simp [hself, hs, htransport]
            · simp [Sockets.modify, hq]
      simp only [getMaxPayload, hself, hs, hother, htransport]

theorem readHandsOver_modify {ctx : ServiceContext} {f : Asocket → Asocket}
    (htransport : ∀ a, (f a).transport = a.transport) (hpeer : ∀ a, (f a).peer = a.peer)
    (h : ReadHandsOver ctx st s a) : ReadHandsOver ctx (st.modify s f) s (f a) := by
  intro hnone
  rw [getMaxPayload_modify ctx.limit htransport hpeer]
  rw [hpeer] at hnone
  exact h hnone

theorem readSpares_modify {ctx : ServiceContext} {f : Asocket → Asocket}
    (hs : st.heap s = some a) (hwf : WellFormed st)
    (htransport : ∀ a, (f a).transport = a.transport) (hpeer : ∀ a, (f a).peer = a.peer)
    (hclosing : ∀ a, (f a).closing = a.closing) (hpkts : ∀ a, (f a).pkts = a.pkts)
    (heof : ∀ a, (f a).fde.forceEof = a.fde.forceEof)
    (h : ReadSpares ctx st s a) : ReadSpares ctx (st.modify s f) s (f a) := by
  obtain ⟨hown, hpeerOk⟩ := h
  unfold ReadSpares
  rw [getMaxPayload_modify ctx.limit htransport hpeer]
  constructor
  · intro htrue
    rw [heof]
    rw [hclosing] at htrue
    exact hown htrue
  · intro q b hq hb hlocal hfails hne
    rw [hpeer] at hq
    rw [hpkts] at hne
    have hqs := ((hwf.socket s a hs).peer q hq).1
    refine hpeerOk q b hq ?_ hlocal hfails hne
    simpa [Sockets.modify, hqs] using hb

theorem callback_dispatchSocket (ctx : ServiceContext) (h : WellFormed st)
    (hR : ∀ type serial t, ctx.acquire type serial = .ok t → R t)
    (hs : st.heap s = some a) (hlocal : SocketKind.isLocal a.kind = true)
    (hloss : lossy s ∨ (a.fde.events.read = true → a.fde.events.write = false →
      ReadHandsOver ctx st s a))
    (hdrop : drops s ∨ (a.fde.events.read = true → a.fde.events.write = false →
      ReadSpares ctx st s a)) :
    Callback lossy drops R st (dispatchSocket ctx st s) := by
  unfold dispatchSocket
  simp only [hs]
  have htaken : Callback lossy drops R st
      (st.modify s fun a => { a with fde := fdeventTake a.fde }) :=
    .own hs ⟨rfl, rfl, rfl, rfl, rfl, rfl, Fdevent.Sound.fdeventTake, fun _ => id⟩
  have hcell : (st.modify s fun a => { a with fde := fdeventTake a.fde }).heap s =
      some { a with fde := fdeventTake a.fde } := by simp [Sockets.modify, hs]
  refine htaken.trans (callback_localSocketEventFunc ctx (htaken.wellFormed h) hR hcell hlocal _
    (hloss.imp_right fun hhands hread hwrite => ?_)
    (hdrop.imp_right fun hspares hread hwrite => ?_))
  · exact readHandsOver_modify (fun _ => rfl) (fun _ => rfl) (hhands hread hwrite)
  · exact readSpares_modify hs h (fun _ => rfl) (fun _ => rfl) (fun _ => rfl) (fun _ => rfl)
      (fun _ => rfl) (hspares hread hwrite)

theorem callback_pollSocket (hs : st.heap s = some a) {revents : PollResult}
    (hallowed : revents.Allowed a.fde.state) :
    Callback lossy drops R st (pollSocket st s revents) :=
  .own hs ⟨rfl, rfl, rfl, rfl, rfl, rfl, fun hfde => hfde.fdeventProcess hallowed,
    fun _ hwrite => by simpa using hwrite⟩

/-- The record of a descriptor whose process has exited. -/
def markEof (a : Asocket) : Asocket := { a with fde := { a.fde with forceEof := true } }

theorem callback_subprocExited (ctx : ServiceContext) (h : WellFormed st)
    (hR : ∀ type serial t, ctx.acquire type serial = .ok t → R t)
    (hs : st.heap s = some a) (hlocal : SocketKind.isLocal a.kind = true) (unread : Bool)
    (hloss : lossy s ∨ (unread = false → a.fde.pending = false →
      ReadHandsOver ctx st s a))
    (hdrop : drops s ∨ (unread = false → a.fde.pending = false →
      ReadSpares ctx st s (markEof a))) :
    Callback lossy drops R st (subprocExited ctx st s unread) := by
  have hmarked : Callback lossy drops R st (st.modify s markEof) :=
    .own hs ⟨rfl, rfl, rfl, rfl, rfl, rfl, fun hfde => ⟨hfde.writeWanted, hfde.idle⟩, fun _ => id⟩
  have hcell : (st.modify s markEof).heap s = some (markEof a) := by simp [Sockets.modify, hs]
  have hwf := hmarked.wellFormed h
  unfold subprocExited
  simp only [hs]
  cases hunread : unread with
  | true => exact hmarked
  | false =>
      simp only [Bool.false_eq_true, if_false]
      have hfaked : Callback lossy drops R (st.modify s markEof)
          ((st.modify s markEof).modify s fun a => { a with fde := { a.fde with
            events := a.fde.events.union .fdeRead, pending := true } }) := by
        refine .own hcell ⟨rfl, rfl, rfl, rfl, rfl, rfl, fun hfde => ⟨fun hw => ?_, by simp⟩,
          fun _ => id⟩
        refine hfde.writeWanted ?_
        simpa [EventMask.union, EventMask.fdeRead, EventMask.empty] using hw
      split
      · exact hmarked.trans hfaked
      · rename_i hpending
        have hidle : a.fde.pending = false := by simpa using hpending
        have hcell' : ((st.modify s markEof).modify s fun a => { a with fde := { a.fde with
            events := a.fde.events.union .fdeRead, pending := true } }).heap s =
              some { markEof a with fde := { (markEof a).fde with
                events := (markEof a).fde.events.union .fdeRead, pending := true } } := by
          simp [Sockets.modify, hs]
        refine (hmarked.trans hfaked).trans (callback_dispatchSocket ctx
          (hfaked.wellFormed hwf) hR hcell' hlocal
          (hloss.imp_right fun hhands _ _ => ?_) (hdrop.imp_right fun hspares _ _ => ?_))
        · have hhands' : ReadHandsOver ctx (st.modify s markEof) s (markEof a) :=
            readHandsOver_modify (fun _ => rfl) (fun _ => rfl) (hhands hunread hidle)
          exact readHandsOver_modify (f := fun a => { a with fde := { a.fde with
            events := a.fde.events.union .fdeRead, pending := true } }) (fun _ => rfl)
            (fun _ => rfl) hhands'
        · have hspares' : ReadSpares ctx (st.modify s markEof) s (markEof a) := by
            obtain ⟨hown, hpeer⟩ := hspares hunread hidle
            have hlimit : getMaxPayload ctx.limit (st.modify s markEof) s =
                getMaxPayload ctx.limit st s :=
              getMaxPayload_modify ctx.limit (fun _ => rfl) (fun _ => rfl)
            unfold ReadSpares
            rw [hlimit]
            refine ⟨hown, fun q b hq hb => hpeer q b hq ?_⟩
            have hqs := ((h.socket s a hs).peer q hq).1
            simpa [Sockets.modify, hqs] using hb
          exact readSpares_modify (f := fun a => { a with fde := { a.fde with
            events := a.fde.events.union .fdeRead, pending := true } }) hcell hwf (fun _ => rfl)
            (fun _ => rfl) (fun _ => rfl) (fun _ => rfl) (fun _ => rfl) hspares'

end Events

end Adb.CallbackEffects
