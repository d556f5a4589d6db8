import Adb.SocketEffects

/-! The effects of `enqueue` and `ready` of every kind but the smart socket. -/

namespace Adb.OperationEffects

open Adb.DescriptorIo
open Adb.EventInterest
open Adb.WirePackets
open Adb.SocketTable
open Adb.SocketOperations
open Adb.SocketClosing
open Adb.SocketGraph
open Adb.SocketEffects

variable {free : Bool} {R : TransportRef → Prop} {st : Sockets}

theorem update_pktsWrite {s : SocketRef} {a : Asocket} (h : SocketOk st s a)
    (hactive : a.closing = false) (hattached : free = true ∨ ¬ Attached st s)
    (hremote : a.kind ≠ .remote) (hfed : free = true ∨ Fed st s) (pkts : List Bytes) :
    Update free R st s a { a with pkts := pkts, fde := fdeventAdd a.fde .fdeWrite } := by
  refine ⟨.of_kind rfl rfl rfl rfl ?_ (h.fde.fdeventAdd _) h.transport, hactive, hremote,
    hattached, .inl rfl, hfed.imp_right fun hfed _ => .inr hfed⟩
  intro _ _
  simp [EventMask.union, EventMask.fdeWrite]

theorem update_fdeRead {s : SocketRef} {a : Asocket} (h : SocketOk st s a)
    (hactive : a.closing = false) (hattached : free = true ∨ ¬ Attached st s)
    (hremote : a.kind ≠ .remote) :
    Update free R st s a { a with fde := fdeventAdd a.fde .fdeRead } := by
  refine ⟨.of_kind rfl rfl rfl rfl ?_ (h.fde.fdeventAdd _) h.transport, hactive, hremote,
    hattached, .inl rfl, .inr fun _ => .inl rfl⟩
  intro hlocal hpkts
  simp [EventMask.union, h.queue hlocal hpkts]

theorem effect_modifyClose {T : SocketRef → Prop} {s : SocketRef} {f : Asocket → Asocket}
    (hactive : Active st s) (hT : ∀ p ∈ withPeer st s, T p) (hself : T s)
    (hf : ∀ a, st.heap s = some a → Update free R st s a (f a))
    (hpeer : ∀ a, (f a).peer = a.peer) (hclosing : ∀ a, (f a).closing = a.closing) :
    Effect free T R st (asocketClose (st.modify s f) s) := by
  refine (effect_modify hself hf).trans
    (effect_asocketClose (active_modify hactive hclosing) fun p hp => hT p ?_)
  rwa [withPeer_congr (peerOf_modify_self fun a _ => hpeer a)] at hp

theorem effect_localSocketEnqueue (h : WellFormed st) {s : SocketRef}
    (hactive : Active st s) (hattached : free = true ∨ ¬ Attached st s)
    (hlocal : ∀ a, st.heap s = some a → a.kind ≠ .remote) (hfed : free = true ∨ Fed st s)
    (data : Bytes) : Effect free (· ∈ withPeer st s) R st (localSocketEnqueue st s data).2 := by
  have hself := self_mem_withPeer st s
  unfold localSocketEnqueue
  split
  · exact effect_halt _
  · rename_i a hs
    split
    · have hwrote : Effect free (· ∈ withPeer st s) R st
          (st.afterWrite s (writeAll st.writeScript data)) :=
        effect_afterWrite hs hself hactive hattached _
      have hwf := hwrote.wellFormed h
      dsimp only
      split
      · exact hwrote
      · have hfailed : Effect free (· ∈ withPeer st s) R
            (st.afterWrite s (writeAll st.writeScript data))
            ((st.afterWrite s (writeAll st.writeScript data)).record (.fdWriteFailed s)) :=
          .note trivial (by rintro p ⟨⟩; exact ⟨hself, hactive⟩)
        have hwf' := hfailed.wellFormed hwf
        refine (hwrote.trans hfailed).trans (effect_modifyClose hactive ?_ hself ?_
          (fun _ => rfl) (fun _ => rfl))
        · exact fun p hp => hp
        · intro b hb
          exact update_of_same (hwf'.socket s b hb) (hactive b hb) hattached (hlocal b hb)
            rfl rfl rfl rfl rfl rfl rfl
      · exact hwrote.trans (effect_modify hself fun b hb =>
          update_pktsWrite (hwf.socket s b hb) (hactive b hb) hattached (hlocal b hb) hfed _)
    · exact effect_modify hself fun b hb =>
        update_pktsWrite (h.socket s b hb) (hactive b hb) hattached (hlocal b hb) hfed _

/-- A socket that neither is a remote socket nor has one as its peer. -/
def Offstream (st : Sockets) (s : SocketRef) : Prop :=
  ¬ Attached st s ∧ st.kindOf s ≠ some .remote

theorem offstream_peer (h : WellFormed st) {s q : SocketRef} (hs : Offstream st s)
    (hq : st.peerOf s = some q) : Offstream st q := by
  refine ⟨?_, fun hkind => hs.1 ⟨q, hq, hkind⟩⟩
  rintro ⟨r, hr, hkind⟩
  rw [h.peerOf_symm hq] at hr
  obtain rfl := Option.some.inj hr
  exact hs.2 hkind

theorem effect_closePeer {T : SocketRef → Prop} (h : WellFormed st) {s q : SocketRef}
    (hq : st.peerOf s = some q) (hT : ∀ p ∈ withPeer st s, T p) :
    Effect free T R st (asocketClose st q) :=
  effect_asocketClose (active_peer h hq) fun p hp => hT p ((mem_withPeer_peer h hq).mp hp)

theorem fed_of_peer (h : WellFormed st) {s q : SocketRef} {a : Asocket}
    (hs : st.heap s = some a) (hq : st.peerOf s = some q) (hkind : a.kind ≠ .smart) : Fed st q :=
  ⟨s, a, h.peerOf_symm hq, hs, .inl hkind⟩

theorem effect_enqueueCalled {s : SocketRef} (hactive : Active st s)
    (hattached : free = true ∨ ¬ Attached st s) (data : Bytes) :
    Effect free (· ∈ withPeer st s) R st (st.record (.enqueueCalled s data)) :=
  .note hattached (by rintro p ⟨⟩; exact ⟨self_mem_withPeer st s, hactive⟩)

theorem effect_asocketEnqueue_called (h : WellFormed st) {s : SocketRef} (hactive : Active st s)
    (hfree : free = true ∨ Offstream st s) (hfed : free = true ∨ Fed st s) (data : Bytes) :
    Effect free (· ∈ withPeer st s) R (st.record (.enqueueCalled s data))
      (asocketEnqueue st s data).2 := by
  have hwf : WellFormed (st.record (.enqueueCalled s data)) :=
    h.congr rfl rfl rfl ⟨rfl, rfl⟩
  have hlocal : ∀ k, st.kindOf s = some k → k ≠ .remote →
      Effect free (· ∈ withPeer st s) R (st.record (.enqueueCalled s data))
        (localSocketEnqueue (st.record (.enqueueCalled s data)) s data).2 := by
    intro k hk hne
    refine effect_localSocketEnqueue hwf hactive (hfree.imp_right And.left) ?_ hfed data
    intro a ha hremote
    have hkind : st.kindOf s = some a.kind := by
      simp [Sockets.kindOf, show st.heap s = some a from ha]
    rw [hk, hremote] at hkind
    exact hne (Option.some.inj hkind)
  have hjdwp : Effect free (· ∈ withPeer st s) R (st.record (.enqueueCalled s data))
      (jdwpSocketEnqueue (st.record (.enqueueCalled s data)) s).2 := by
    unfold jdwpSocketEnqueue
    split
    · exact effect_halt _
    · rename_i q hq
      exact effect_closePeer hwf hq fun _ hp => hp
  unfold asocketEnqueue
  dsimp only
  split
  · rename_i hk
    exact hlocal _ hk (by simp)
  · rename_i hk
    exact hlocal _ hk (by simp)
  · rename_i hk
    unfold remoteSocketEnqueue
    split
    · exact effect_halt _
    · refine effect_sendOn _ (.inl ?_)
      rcases hfree with hfree | ⟨-, hne⟩
      · exact hfree
      · exact absurd hk hne
  · exact hjdwp
  · exact hjdwp
  · exact effect_asocketClose hactive fun _ hp => hp
  · exact effect_halt _
  · exact effect_halt _

theorem effect_asocketEnqueue (h : WellFormed st) {s : SocketRef} (hactive : Active st s)
    (hfree : free = true ∨ Offstream st s) (hfed : free = true ∨ Fed st s) (data : Bytes) :
    Effect free (· ∈ withPeer st s) R st (asocketEnqueue st s data).2 :=
  (effect_enqueueCalled hactive (hfree.imp_right And.left) data).trans
    (effect_asocketEnqueue_called h hactive hfree hfed data)

theorem effect_enqueuePeer {T : SocketRef → Prop} {f : Asocket → Asocket} (h : WellFormed st)
    {s q : SocketRef} (hq : st.peerOf s = some q) (hT : ∀ p ∈ withPeer st s, T p)
    (hfree : free = true ∨ Offstream st s) (hf : ∀ a, st.heap s = some a →
      Update free R st s a (f a)) (hpeer : ∀ a, (f a).peer = a.peer)
    (hkind : ∀ a, (f a).kind = a.kind) (hsmart : ∀ a, st.heap s = some a → a.kind ≠ .smart)
    (data : Bytes) : Effect free T R st (asocketEnqueue (st.modify s f) q data).2 := by
  have hmarked : Effect free T R st (st.modify s f) :=
    effect_modify (hT s (self_mem_withPeer st s)) hf
  have hwf := hmarked.wellFormed h
  have hpeer' : (st.modify s f).peerOf s = st.peerOf s :=
    peerOf_modify_self fun a _ => hpeer a
  have hq' : (st.modify s f).peerOf s = some q := hpeer'.trans hq
  have hoff : free = true ∨ Offstream (st.modify s f) q := by
    refine hfree.imp_right fun hs => offstream_peer hwf ⟨?_, ?_⟩ hq'
    · rw [attached_modify hpeer fun a => by rw [hkind]]
      exact hs.1
    · have hkindOf : (st.modify s f).kindOf s = st.kindOf s := by
        cases hc : st.heap s <;> simp [Sockets.kindOf, Sockets.modify, hc, hkind]
      rw [hkindOf]
      exact hs.2
  have hfed : Fed (st.modify s f) q := by
    obtain ⟨a, ha, -⟩ := peerOf_eq_some.mp hq
    refine fed_of_peer (a := f a) hwf (by simp [Sockets.modify, ha]) hq' ?_
    rw [hkind]
    exact hsmart a ha
  refine hmarked.trans ((effect_asocketEnqueue hwf (active_peer hwf hq') hoff (.inr hfed)
    data).mono id (fun p hp => hT p ?_) fun _ ht => ht)
  rw [← withPeer_congr hpeer']
  exact (mem_withPeer_peer hwf hq').mp hp

theorem sendOn_heap (t : Option TransportRef) (p : Apacket) : (sendOn st t p).heap = st.heap := by
  cases t <;> rfl

example :
    let opened := (createRemoteSocket (createLocalSocket .initial).2 9 4).2
    let sent := sendOn opened (some 4) ⟨.aWrte, 1, 9, [65]⟩
    sent.heap 0 = opened.heap 0 ∧ sent.heap 1 = opened.heap 1 ∧
      sent.trace = opened.trace ++ [.sent 4 ⟨.aWrte, 1, 9, [65]⟩] ∧ sent.trace.length = 1 := by
  decide +kernel

theorem asocketEnqueue_remote_heap {q : SocketRef} (hq : st.kindOf q = some .remote)
    (data : Bytes) : (asocketEnqueue st q data).2.heap = st.heap := by
  have hq' : (st.record (.enqueueCalled q data)).kindOf q = some .remote := hq
  simp only [asocketEnqueue, hq', remoteSocketEnqueue]
  split
  · rfl
  · rw [sendOn_heap]
    rfl

section Ready

variable {T : SocketRef → Prop} {s : SocketRef} (h : WellFormed st) (hactive : Active st s)
  (hfree : free = true ∨ Offstream st s) (hT : ∀ p ∈ withPeer st s, T p)

include h hactive hfree hT

theorem effect_localSocketReady (hlocal : st.kindOf s ≠ some .remote) :
    Effect free T R st (localSocketReady st s) := by
  refine effect_modify (hT s (self_mem_withPeer st s)) fun a ha => ?_
  refine update_fdeRead (h.socket s a ha) (hactive a ha) (hfree.imp_right And.left) ?_
  intro hremote
  exact hlocal (by simp [Sockets.kindOf, ha, hremote])

theorem effect_localSocketReadyNotify (hkind : st.kindOf s = some .localNotify) :
    Effect free T R st (localSocketReadyNotify st s) := by
  have hself := hT s (self_mem_withPeer st s)
  obtain ⟨a, ha, hakind⟩ : ∃ a, st.heap s = some a ∧ a.kind = .localNotify := by
    simpa [Sockets.kindOf] using hkind
  have hok := h.socket s a ha
  have hplain : Effect free T R st (st.modify s fun a => { a with kind := .localSocket }) := by
    exact .update ha hself ⟨.plain hok hakind, hactive a ha, by simp [hakind],
      hfree.imp_right And.left, .inl rfl, .inr fun _ => .inl rfl⟩
  have hactive' : Active (st.modify s fun a => { a with kind := .localSocket }) s :=
    active_modify hactive fun _ => rfl
  have hreplied := hplain.trans (effect_reply hself hactive' .okay)
  have hwf := hreplied.wellFormed h
  refine hreplied.trans (effect_modify hself fun b hb => ?_)
  have hbkind : b.kind = .localSocket := by
    have hcell : { a with kind := SocketKind.localSocket } = b := by
      simpa [Sockets.reply, Sockets.record, Sockets.modify, ha] using hb
    rw [← hcell]
  refine update_fdeRead (hwf.socket s b hb) (hactive' b hb) ?_ (by simp [hbkind])
  refine hfree.imp_right fun hs hattached => hs.1 ?_
  obtain ⟨q, hq, hqkind⟩ := hattached
  have hqs : st.peerOf s = some q := by
    simpa [Sockets.peerOf, Sockets.reply, Sockets.record, Sockets.modify, ha] using hq
  obtain ⟨hne, -⟩ := hok.peer q (by simpa [Sockets.peerOf, ha] using hqs)
  refine ⟨q, hqs, ?_⟩
  simpa [Sockets.kindOf, Sockets.reply, Sockets.record, Sockets.modify, hne] using hqkind

omit h hactive hT in
theorem effect_remoteSocketReady (hkind : st.kindOf s = some .remote) :
    Effect free T R st (remoteSocketReady st s) := by
  unfold remoteSocketReady
  split
  · exact effect_halt _
  · refine effect_sendOn _ (.inl ?_)
    rcases hfree with hfree | hs
    · exact hfree
    · exact absurd hkind hs.2

theorem effect_jdwpSocketReady (ctx : ServiceContext) (hkind : st.kindOf s = some .jdwp) :
    Effect free T R st (jdwpSocketReady ctx st s) := by
  have hself := hT s (self_mem_withPeer st s)
  unfold jdwpSocketReady
  split
  · exact effect_halt _
  · rename_i a ha
    have hakind : a.kind = .jdwp := by simpa [Sockets.kindOf, ha] using hkind
    split
    · exact effect_halt _
    · rename_i q hq
      have hpeer : st.peerOf s = some q := peerOf_eq_some.mpr ⟨a, ha, hq⟩
      have hremote : st.kindOf q = some .remote := by
        obtain ⟨-, b, hb, -, hcompat⟩ := (h.socket s a ha).peer q hq
        rw [hakind] at hcompat
        cases hbkind : b.kind <;> simp_all [Compatible, Sockets.kindOf]
      have htrue : free = true :=
        hfree.elim id fun hs => absurd ⟨q, hpeer, hremote⟩ hs.1
      split
      · exact effect_closePeer h hpeer hT
      · have hsent : Effect free T R st
            (asocketEnqueue st q
              (jdwpProcessList ctx.jdwpPids (getMaxPayload ctx.limit st s))).2 :=
          (effect_asocketEnqueue h (active_peer h hpeer) (.inl htrue) (.inl htrue) _).mono id
            (fun p hp => hT p ((mem_withPeer_peer h hpeer).mp hp)) fun _ ht => ht
        have hwf := hsent.wellFormed h
        refine hsent.trans (effect_modify hself fun b hb => ?_)
        have hb' := hb
        rw [asocketEnqueue_remote_heap hremote] at hb'
        obtain rfl : a = b := by simpa [ha] using hb'
        exact update_of_same (hwf.socket s a hb) (hactive a ha) (.inl htrue) (by simp [hakind])
          rfl rfl rfl rfl rfl rfl rfl

theorem effect_jdwpTrackerReady (ctx : ServiceContext)
    (hkind : st.kindOf s = some .jdwpTracker) :
    Effect free T R st (jdwpTrackerReady ctx st s) := by
  have hself := hT s (self_mem_withPeer st s)
  unfold jdwpTrackerReady
  split
  · exact effect_halt _
  · rename_i a ha
    have hakind : a.kind = .jdwpTracker := by simpa [Sockets.kindOf, ha] using hkind
    have hmark : ∀ b, st.heap s = some b →
        Update free R st s b { b with needInitial := false } := by
      intro b hb
      obtain rfl : a = b := by simpa [ha] using hb
      exact update_of_same (h.socket s a ha) (hactive a ha) (hfree.imp_right And.left)
        (by simp [hakind]) rfl rfl rfl rfl rfl rfl rfl
    have hsmart : ∀ b, st.heap s = some b → b.kind ≠ .smart := by
      intro b hb
      obtain rfl : a = b := by simpa [ha] using hb
      simp [hakind]
    split
    · split
      · exact effect_halt _
      · rename_i q hq
        dsimp only
        split
        · exact (effect_modify hself hmark).trans (effect_halt _)
        · exact effect_enqueuePeer h (peerOf_eq_some.mpr ⟨a, ha, hq⟩) hT hfree hmark
            (fun _ => rfl) (fun _ => rfl) hsmart _
    · exact .refl

theorem effect_deviceTrackerReady (ctx : ServiceContext)
    (hkind : st.kindOf s = some .deviceTracker) :
    Effect free T R st (deviceTrackerReady ctx st s) := by
  have hself := hT s (self_mem_withPeer st s)
  unfold deviceTrackerReady
  split
  · exact effect_halt _
  · rename_i a ha
    have hakind : a.kind = .deviceTracker := by simpa [Sockets.kindOf, ha] using hkind
    have hmark : ∀ b, st.heap s = some b →
        Update free R st s b { b with updateNeeded := false } := by
      intro b hb
      obtain rfl : a = b := by simpa [ha] using hb
      exact update_of_same (h.socket s a ha) (hactive a ha) (hfree.imp_right And.left)
        (by simp [hakind]) rfl rfl rfl rfl rfl rfl rfl
    have hsmart : ∀ b, st.heap s = some b → b.kind ≠ .smart := by
      intro b hb
      obtain rfl : a = b := by simpa [ha] using hb
      simp [hakind]
    split
    · unfold deviceTrackerSend
      split
      · exact (effect_modify hself hmark).trans (effect_halt _)
      · rename_i q hq
        have hpeer : st.peerOf s = some q := by
          simpa [Sockets.peerOf, Sockets.modify, ha] using hq
        exact effect_enqueuePeer h hpeer hT hfree hmark (fun _ => rfl) (fun _ => rfl) hsmart _
    · exact .refl

theorem effect_asocketReady_called (ctx : ServiceContext) :
    Effect free T R (st.record (.readyCalled s)) (asocketReady ctx st s) := by
  have hwf : WellFormed (st.record (.readyCalled s)) := h.congr rfl rfl rfl ⟨rfl, rfl⟩
  unfold asocketReady
  have hfree' : free = true ∨ Offstream (st.record (.readyCalled s)) s := hfree
  have hactive' : Active (st.record (.readyCalled s)) s := hactive
  have hT' : ∀ p ∈ withPeer (st.record (.readyCalled s)) s, T p := hT
  generalize st.record (.readyCalled s) = st₁ at hwf hfree' hactive' hT' ⊢
  dsimp only
  split
  · exact effect_halt _
  · rename_i hkind
    exact effect_localSocketReady hwf hactive' hfree' hT' (by simp [hkind])
  · rename_i hkind
    exact effect_localSocketReadyNotify hwf hactive' hfree' hT' hkind
  · rename_i hkind
    exact effect_remoteSocketReady hfree' hkind
  · exact .refl
  · rename_i hkind
    exact effect_jdwpSocketReady hwf hactive' hfree' hT' ctx hkind
  · rename_i hkind
    exact effect_jdwpTrackerReady hwf hactive' hfree' hT' ctx hkind
  · rename_i hkind
    exact effect_deviceTrackerReady hwf hactive' hfree' hT' ctx hkind

theorem effect_asocketReady (ctx : ServiceContext) :
    Effect free T R st (asocketReady ctx st s) := by
  have hcalled : Effect free T R st (st.record (.readyCalled s)) :=
    .note trivial (by rintro p ⟨⟩; exact ⟨hT s (self_mem_withPeer st s), hactive⟩)
  exact hcalled.trans (effect_asocketReady_called h hactive hfree hT ctx)

end Ready

end Adb.OperationEffects
