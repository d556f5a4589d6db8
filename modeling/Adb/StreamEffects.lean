import Adb.SmartEffects
import Adb.ServerState

/-! The effects of the stream messages on the sockets. -/

namespace Adb.StreamEffects

open Adb.DescriptorIo
open Adb.EventInterest
open Adb.WirePackets
open Adb.SocketTable
open Adb.SocketOperations
open Adb.SmartSockets
open Adb.SocketClosing
open Adb.SocketGraph
open Adb.SocketEffects
open Adb.OperationEffects
open Adb.SmartEffects
open Adb.ServerState

variable {T : SocketRef → Prop} {R : TransportRef → Prop} {st : Sockets}

/-- A socket that can be connected to a remote socket. -/
structure Connectable (st : Sockets) (s : SocketRef) (a : Asocket) : Prop where
  cell : st.heap s = some a
  peer : a.peer = none
  active : a.closing = false
  listed : SocketKind.isListed a.kind = true

theorem compatible_remote_of_listed {k : SocketKind} (h : SocketKind.isListed k = true) :
    Compatible k .remote = true := by
  cases k <;> simp_all [SocketKind.isListed, Compatible]

/-- The object that `create_remote_socket` returns. -/
def remoteCell (id : Nat) (t : TransportRef) : Asocket :=
  { Asocket.blank .remote with id := id, transport := some t }

theorem connectRemote_eq (s : SocketRef) (remoteId : Nat) (t : TransportRef) :
    connectRemote st s remoteId t =
      (linkNew (st.haltWhen (remoteId = 0) .fatal) s (remoteCell remoteId t)).record
        (.connected s (((linkNew (st.haltWhen (remoteId = 0) .fatal) s
          (remoteCell remoteId t)).heap s).map Asocket.id |>.getD 0) remoteId t) := rfl

theorem effect_connectRemote {s : SocketRef} {a : Asocket} (h : WellFormed st)
    (hs : Connectable st s a) (hT : T s) (hnew : T st.nextRef) (remoteId : Nat)
    {t : TransportRef} (hR : R t) :
    Effect true T R st (connectRemote st s remoteId t) := by
  have hhalt : Effect true T R st (st.haltWhen (remoteId = 0) .fatal) :=
    .same ⟨rfl, rfl, rfl, ⟨rfl, rfl⟩, rfl, rfl, rfl, ⟨rfl, rfl⟩, check_haltWhen (by decide)⟩
  have hwf := hhalt.wellFormed h
  have hlink : Effect true T R (st.haltWhen (remoteId = 0) .fatal)
      (linkNew (st.haltWhen (remoteId = 0) .fatal) s (remoteCell remoteId t)) := by
    refine effect_linkNew hwf hs.cell ⟨rfl, rfl, rfl, sound_fdeventInstall, fun _ => rfl,
      by simp [remoteCell, Asocket.blank]⟩ rfl (compatible_remote_of_listed hs.listed) hs.peer
      hs.active (.inl rfl) ?_ ?_ hs.listed hT
      hnew
    · intro hk
      have hlisted := hs.listed
      simp [hk, SocketKind.isListed] at hlisted
    · rintro t' ⟨⟩
      exact hR
  obtain ⟨hcell, -, -⟩ := linkNew_heap (b := remoteCell remoteId t) hwf hs.cell
  rw [connectRemote_eq]
  refine (hhalt.trans hlink).trans (.note rfl ?_)
  rintro p ⟨⟩
  refine ⟨hT, fun c hc => ?_⟩
  obtain rfl := Option.some.inj (hcell.symm.trans hc)
  exact hs.active

theorem connectRemote_cells {s : SocketRef} {a : Asocket} (h : WellFormed st)
    (hs : st.heap s = some a) (remoteId : Nat) (t : TransportRef) :
    (connectRemote st s remoteId t).heap s = some { a with peer := some st.nextRef } ∧
      (connectRemote st s remoteId t).heap st.nextRef =
        some { remoteCell remoteId t with peer := some s } ∧
      (∀ p, p ≠ s → p ≠ st.nextRef → (connectRemote st s remoteId t).heap p = st.heap p) ∧
      (connectRemote st s remoteId t).trace =
        st.trace ++ [.connected s a.id remoteId t] := by
  have hwf : WellFormed (st.haltWhen (remoteId = 0) .fatal) := h.congr rfl rfl rfl ⟨rfl, rfl⟩
  obtain ⟨hcell, hcell', hother⟩ := linkNew_heap (b := remoteCell remoteId t) hwf hs
  refine ⟨hcell, hcell', hother, ?_⟩
  rw [connectRemote_eq, hcell]
  rfl

theorem mem_withPeer_connectRemote {s : SocketRef} {a : Asocket} (h : WellFormed st)
    (hs : st.heap s = some a) (remoteId : Nat) (t : TransportRef) {p : SocketRef}
    (hp : p ∈ withPeer (connectRemote st s remoteId t) s) : p = s ∨ p = st.nextRef := by
  obtain ⟨hcell, -⟩ := connectRemote_cells h hs remoteId t
  rcases mem_withPeer.mp hp with hp | hp
  · exact .inl hp
  · right
    simpa [Sockets.peerOf, hcell, eq_comm] using hp

/-- The socket of a new service is new itself. -/
structure ServiceSocket (st st' : Sockets) (s : SocketRef) (a : Asocket) : Prop where
  ref : s = st.nextRef
  connectable : Connectable st' s a
  id : a.id = st.localSocketNextId
  nextRef : st'.nextRef = st.nextRef + 1
  transport : a.transport = none
  pkts : a.pkts = []
  kind : a.kind = .localSocket ∨ (a.kind = .jdwp ∧ a.pass = false) ∨
    (a.kind = .jdwpTracker ∧ a.needInitial = true)
  heap : ∀ p, p ≠ s → st'.heap p = st.heap p
  trace : st'.trace = st.trace

theorem serviceSocket_install {a : Asocket} (hnew : NewSocket a)
    (hlisted : SocketKind.isListed a.kind = true) (htransport : a.transport = none)
    (hkind : a.kind = .localSocket ∨ (a.kind = .jdwp ∧ a.pass = false) ∨
      (a.kind = .jdwpTracker ∧ a.needInitial = true)) :
    ServiceSocket st (installLocalSocket (st.allocate a).2 st.nextRef) st.nextRef
      { a with id := st.localSocketNextId } := by
  refine ⟨rfl, ⟨?_, hnew.peer, hnew.closing, hlisted⟩, rfl, rfl, htransport, hnew.pkts, hkind, ?_,
    rfl⟩
  · simp [installLocalSocket, Sockets.haltWhen, Sockets.modify, Sockets.allocate]
  · intro p hp
    simp [installLocalSocket, Sockets.haltWhen, Sockets.modify, Sockets.allocate, hp]

theorem createLocalServiceSocket_spec {ctx : ServiceContext} {name : Bytes} {s : SocketRef}
    {st' : Sockets} (h : createLocalServiceSocket ctx st name = some (s, st'))
    (hwf : WellFormed st) (hT : T st.nextRef) :
    Effect true T R st st' ∧ ∃ a, ServiceSocket st st' s a := by
  unfold createLocalServiceSocket at h
  split at h
  · obtain ⟨rfl, rfl⟩ := Prod.mk.inj (Option.some.inj h)
    refine ⟨.install hT (newSocket_blank (by simp)) rfl rfl (.inl rfl), _,
      serviceSocket_install (newSocket_blank (by simp)) rfl rfl (.inr (.inl ⟨rfl, rfl⟩))⟩
  split at h
  · obtain ⟨rfl, rfl⟩ := Prod.mk.inj (Option.some.inj h)
    have hnew : NewSocket { Asocket.blank .jdwpTracker with needInitial := true } :=
      ⟨rfl, rfl, rfl, sound_fdeventInstall, by simp [Asocket.blank], fun _ => rfl⟩
    have hservice := @serviceSocket_install st _ hnew rfl rfl (.inr (.inr ⟨rfl, rfl⟩))
    have htracked : ∀ p ∈ st.jdwpTrackers ++ [st.nextRef], p ∈ st.jdwpTrackers ∨
        (installLocalSocket (st.allocate { Asocket.blank .jdwpTracker with
          needInitial := true }).2 st.nextRef).kindOf p = some .jdwpTracker := by
      intro p hp
      rcases List.mem_append.mp hp with hp | hp
      · exact .inl hp
      · obtain rfl := List.mem_singleton.mp hp
        exact .inr (by rw [Sockets.kindOf, hservice.connectable.cell]; rfl)
    refine ⟨(Effect.install hT hnew rfl rfl (.inl rfl)).trans
      (.track htracked (fun _ hp => .inl hp) (.inl rfl)), _, hservice.ref, ?_, hservice.id,
      hservice.nextRef, hservice.transport, hservice.pkts, hservice.kind, hservice.heap,
      hservice.trace⟩
    exact ⟨hservice.connectable.cell, hservice.connectable.peer, hservice.connectable.active,
      hservice.connectable.listed⟩
  split at h
  · obtain ⟨rfl, rfl⟩ := Prod.mk.inj (Option.some.inj h)
    have hcreated : Effect true T R st (createLocalSocket st).2 := effect_createLocalSocket hT
    have hservice := @serviceSocket_install st _ (newSocket_blank (by simp)) rfl rfl
      (.inl (rfl : (Asocket.blank .localSocket).kind = .localSocket))
    have hcell : (createLocalSocket st).2.heap (createLocalSocket st).1 =
        some { Asocket.blank .localSocket with id := st.localSocketNextId } :=
      hservice.connectable.cell
    refine ⟨hcreated.trans (.update hcell hT ?_), { Asocket.blank .localSocket with
      id := st.localSocketNextId, exitOnClose := exitsOnClose ctx name }, rfl, ⟨?_, rfl, rfl, rfl⟩,
      rfl, rfl, rfl, rfl, .inl rfl, ?_, rfl⟩
    · have hwf' := hcreated.wellFormed hwf
      refine update_of_same (hwf'.socket _ _ hcell) rfl (.inl rfl) (by simp [Asocket.blank])
        rfl rfl rfl rfl rfl rfl rfl
    · simp only [Sockets.modify, Function.update_self]
      exact congrArg (Option.map _) hcell
    · intro p hp
      simp only [Sockets.modify, Function.update_of_ne hp]
      exact hservice.heap p hp
  · simp at h

theorem mem_list_of_findLocalSocket {localId peerId : Nat} {s : SocketRef}
    (hs : findLocalSocket st localId peerId = some s) :
    s ∈ st.localSocketList ∧ ∃ a, st.heap s = some a ∧ a.id = localId := by
  unfold findLocalSocket at hs
  split at hs
  · simp at hs
  · rename_i p hp
    dsimp only at hs
    split at hs
    · obtain rfl := Option.some.inj hs
      have hid := List.find?_some hp
      refine ⟨List.mem_of_find?_eq_some hp, ?_⟩
      cases hc : st.heap p with
      | none => simp [hc] at hid
      | some a => exact ⟨a, rfl, by simpa [hc] using hid⟩
    · simp at hs

theorem active_of_findLocalSocket (h : WellFormed st) {localId peerId : Nat} {s : SocketRef}
    (hs : findLocalSocket st localId peerId = some s) : Active st s := by
  obtain ⟨hmem, -⟩ := mem_list_of_findLocalSocket hs
  obtain ⟨a, ha, -, hclosing⟩ := (h.listed s).mp hmem
  intro b hb
  obtain rfl := Option.some.inj (ha.symm.trans hb)
  exact hclosing

section Handlers

variable {ctx : ServiceContext} {t : TransportRef} (h : WellFormed st)
  (hnew : ∀ p, st.nextRef ≤ p → T p) (hR : R t)

include h hnew hR

theorem effect_handleOpen (p : Apacket) : Effect true T R st (handleOpen ctx st t p) := by
  unfold handleOpen
  split
  · exact .send t (.inr (.inl rfl))
  · rename_i s st₁ hservice
    obtain ⟨hcreated, a, hs⟩ : Effect true T R st st₁ ∧ ∃ a, ServiceSocket st st₁ s a :=
      createLocalServiceSocket_spec hservice h (hnew _ (Nat.le_refl _))
    have hTs : T s := hnew s (Nat.le_of_eq hs.ref.symm)
    have hTnext : T st₁.nextRef := hnew _ (by rw [hs.nextRef]; exact Nat.le_succ _)
    have hwf := hcreated.wellFormed h
    have hconnected := effect_connectRemote hwf hs.connectable hTs hTnext p.arg0 hR
    have hsent : Effect true T R (connectRemote st₁ s p.arg0 t)
        ((connectRemote st₁ s p.arg0 t).sendPacket t
          { command := .aOkay
            arg0 := ((connectRemote st₁ s p.arg0 t).heap s |>.map Asocket.id).getD 0
            arg1 := p.arg0
            data := [] }) := .send t (.inl rfl)
    refine ((hcreated.trans hconnected).trans hsent).trans ?_
    have hwf' := hsent.wellFormed (hconnected.wellFormed hwf)
    refine effect_asocketReady hwf' ?_ (.inl rfl) ?_ ctx
    · intro c hc
      have hcell := (connectRemote_cells hwf hs.connectable.cell p.arg0 t).1
      obtain rfl := Option.some.inj (hcell.symm.trans hc)
      exact hs.connectable.active
    · intro r hr
      rcases mem_withPeer_connectRemote hwf hs.connectable.cell p.arg0 t hr with rfl | rfl
      · exact hTs
      · exact hTnext

theorem effect_handleOkay (p : Apacket)
    (hT : ∀ s, findLocalSocket st p.arg1 0 = some s → ∀ r ∈ withPeer st s, T r) :
    Effect true T R st (handleOkay ctx st t p) := by
  unfold handleOkay
  split
  · exact .send t (.inr (.inl rfl))
  · rename_i s hfound
    have hactive := active_of_findLocalSocket h hfound
    have hTs := hT s hfound
    have hself : T s := hTs s (self_mem_withPeer st s)
    split
    · rename_i hpeer
      obtain ⟨hmem, -⟩ := mem_list_of_findLocalSocket hfound
      obtain ⟨a, ha, hlisted, hclosing⟩ := (h.listed s).mp hmem
      have hs : Connectable st s a :=
        ⟨ha, by simpa [Sockets.peerOf, ha] using hpeer, hclosing, hlisted⟩
      have hconnected :=
        effect_connectRemote h hs hself (hnew _ (Nat.le_refl _)) p.arg0 hR
      refine hconnected.trans (effect_asocketReady (hconnected.wellFormed h) ?_ (.inl rfl) ?_ ctx)
      · intro c hc
        obtain rfl := Option.some.inj ((connectRemote_cells h ha p.arg0 t).1.symm.trans hc)
        exact hclosing
      · intro r hr
        rcases mem_withPeer_connectRemote h ha p.arg0 t hr with rfl | rfl
        · exact hself
        · exact hnew _ (Nat.le_refl _)
    · split
      · exact effect_asocketReady h hactive (.inl rfl) hTs ctx
      · exact .refl

omit hnew hR in
theorem effect_handleClse (p : Apacket)
    (hT : ∀ s, findLocalSocket st p.arg1 p.arg0 = some s → ∀ r ∈ withPeer st s, T r) :
    Effect true T R st (handleClse st t p) := by
  unfold handleClse
  split
  · exact .refl
  · rename_i s hfound
    dsimp only
    split
    · exact .refl
    · exact effect_asocketClose (active_of_findLocalSocket h hfound) (hT s hfound)

omit hnew hR in
theorem effect_handleWrte (p : Apacket)
    (hT : ∀ s, findLocalSocket st p.arg1 p.arg0 = some s → ∀ r ∈ withPeer st s, T r) :
    Effect true T R st (handleWrte st t p) := by
  unfold handleWrte
  split
  · exact .refl
  · rename_i s hfound
    have henqueued : Effect true T R st (asocketEnqueue st s p.data).2 :=
      (effect_asocketEnqueue h (active_of_findLocalSocket h hfound) (.inl rfl) (.inl rfl)
        p.data).mono id (hT s hfound) fun _ ht => ht
    dsimp only
    split
    · exact henqueued.trans (.send t (.inl rfl))
    · exact henqueued

/-- The stream messages touch the socket they name, its peer and new sockets. -/
theorem effect_handleStream (p : Apacket)
    (hT : ∀ s peerId, findLocalSocket st p.arg1 peerId = some s → ∀ r ∈ withPeer st s, T r) :
    Effect true T R st (handleStream ctx st t p) := by
  unfold handleStream
  split
  · exact effect_handleOpen h hnew hR p
  · exact effect_handleOkay h hnew hR p fun s => hT s 0
  · exact effect_handleClse h p fun s => hT s p.arg0
  · exact effect_handleWrte h p fun s => hT s p.arg0
  · exact .refl

end Handlers

end Adb.StreamEffects
