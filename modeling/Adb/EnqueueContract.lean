import Adb.SmartEffects
import Adb.ServerRuns

/-!
What `s->peer->enqueue` tells its caller.  `local_socket_event_func` takes a
negative result to mean that its own socket has been closed.
-/

namespace Adb.EnqueueContract

open Adb.DescriptorIo
open Adb.EventInterest
open Adb.WirePackets
open Adb.SocketTable
open Adb.SocketOperations
open Adb.SmartSockets
open Adb.SocketClosing
open Adb.SocketGraph
open Adb.SocketEffects
open Adb.OperationEffects
open Adb.SmartEffects
open Adb.ServerState
open Adb.ServerRuns
open Adb.TransitionSystems

/-- The socket `s` has been closed: it is gone, or waits on the closing list. -/
def WasClosed (st : Sockets) (s : SocketRef) : Prop :=
  ∀ a, st.heap s = some a → a.closing = true

/-- The socket `s` can still be used. -/
def Kept (st : Sockets) (s : SocketRef) : Prop :=
  ∃ a, st.heap s = some a ∧ a.closing = false

/-- The result is negative exactly when the caller's socket was closed. -/
def Honest (s : SocketRef) (out : Int × Sockets) : Prop := out.1 < 0 ↔ WasClosed out.2 s

theorem honest_of_kept {s : SocketRef} {out : Int × Sockets} (hr : 0 ≤ out.1)
    (h : Kept out.2 s) : Honest s out := by
  obtain ⟨a, ha, hclosing⟩ := h
  constructor
  · intro hneg
    omega
  · intro hclosed
    simp [hclosed a ha] at hclosing

theorem honest_of_closed {s : SocketRef} {out : Int × Sockets} (hr : out.1 < 0)
    (h : WasClosed out.2 s) : Honest s out :=
  ⟨fun _ => h, fun _ => hr⟩

theorem not_honest_of_closed {s : SocketRef} {out : Int × Sockets} (hr : 0 ≤ out.1)
    (h : WasClosed out.2 s) : ¬ Honest s out := by
  intro hhonest
  have hneg := hhonest.mpr h
  omega

/-- The result is honest unless `P` holds, and then the caller's socket is
gone although the result is not negative. -/
structure Verdict (s : SocketRef) (P : Prop) (out : Int × Sockets) : Prop where
  honest : ¬ P → Honest s out
  gone : P → 0 ≤ out.1 ∧ out.2.heap s = none

theorem Verdict.of_honest {s : SocketRef} {P : Prop} {out : Int × Sockets}
    (h : Honest s out) (hP : ¬ P) : Verdict s P out :=
  ⟨fun _ => h, fun hp => absurd hp hP⟩

theorem Verdict.congr {s : SocketRef} {P Q : Prop} {out : Int × Sockets}
    (h : Verdict s P out) (hPQ : P ↔ Q) : Verdict s Q out :=
  ⟨fun hq => h.honest (hPQ.not.mpr hq), fun hq => h.gone (hPQ.mpr hq)⟩

theorem Verdict.honest_iff {s : SocketRef} {P : Prop} {out : Int × Sockets}
    (h : Verdict s P out) : Honest s out ↔ ¬ P := by
  refine ⟨fun hhonest hp => ?_, h.honest⟩
  obtain ⟨hr, hgone⟩ := h.gone hp
  have hneg := hhonest.mpr fun a ha => by simp [hgone] at ha
  omega

theorem kept_modify {st : Sockets} {s : SocketRef} {a : Asocket} {f : Asocket → Asocket}
    (h : st.heap s = some a) (hf : (f a).closing = false) : Kept (st.modify s f) s :=
  ⟨f a, by simp [Sockets.modify, h], hf⟩

theorem wasClosed_of_closed {T : List SocketRef} {st st' : Sockets} {s : SocketRef}
    (h : Closed T st st') (hs : s ∈ T) : WasClosed st' s := by
  intro a ha
  rw [h.heap, if_pos hs] at ha
  obtain ⟨b, -, hremains⟩ := Option.bind_eq_some_iff.mp ha
  obtain ⟨-, -, -, -, rfl⟩ := remains_eq_some hremains
  rfl

/-- The socket `s` is connected to the socket `q`. -/
structure Paired (st : Sockets) (s q : SocketRef) (a b : Asocket) : Prop where
  left : st.heap s = some a
  right : st.heap q = some b
  peerLeft : a.peer = some q
  peerRight : b.peer = some s
  ne : s ≠ q
  placedLeft : Placed st s a
  placedRight : Placed st q b
  active : a.closing = false

/-- Two connected sockets in a table whose next address is unused. -/
structure Linked (st : Sockets) (s q : SocketRef) (a b : Asocket) : Prop
    extends Paired st s q a b where
  fresh : s < st.nextRef ∧ q < st.nextRef
  unused : st.nextRef ∉ st.localSocketList ∧ st.nextRef ∉ st.localSocketClosingList

theorem linked_of_wellFormed {st : Sockets} (h : WellFormed st) {s q : SocketRef}
    {a : Asocket} (hs : st.heap s = some a) (hpeer : a.peer = some q) :
    ∃ b, Linked st s q a b := by
  obtain ⟨hne, b, hq, hback, -⟩ := (h.socket s a hs).peer q hpeer
  have hunlisted : ∀ c, st.heap st.nextRef = some c → False := fun c hc =>
    Nat.lt_irrefl _ (h.socket _ c hc).fresh
  refine ⟨b, ⟨hs, hq, hpeer, hback, hne.symm, h.placed hs, h.placed hq, ?_⟩,
    ⟨(h.socket s a hs).fresh, (h.socket q b hq).fresh⟩, ?_, ?_⟩
  · exact active_of_peer h (peerOf_eq_some.mpr ⟨a, hs, hpeer⟩) a hs
  · intro hmem
    obtain ⟨c, hc, -⟩ := (h.listed _).mp hmem
    exact hunlisted c hc
  · intro hmem
    obtain ⟨c, hc, -⟩ := (h.closing _).mp hmem
    exact hunlisted c hc

theorem Paired.congr {st st' : Sockets} {s q : SocketRef} {a a' b b' : Asocket}
    (h : Paired st s q a b) (hs : st'.heap s = some a') (hq : st'.heap q = some b')
    (hpeerLeft : a'.peer = a.peer) (hkindLeft : a'.kind = a.kind)
    (hclosing : a'.closing = a.closing)
    (hpeerRight : b'.peer = b.peer) (hkindRight : b'.kind = b.kind)
    (hlist : st'.localSocketList = st.localSocketList)
    (hclosingList : st'.localSocketClosingList = st.localSocketClosingList) :
    Paired st' s q a' b' := by
  refine ⟨hs, hq, hpeerLeft.trans h.peerLeft, hpeerRight.trans h.peerRight, h.ne, ?_, ?_,
    hclosing.trans h.active⟩
  · exact h.placedLeft.of_lists (by rw [hkindLeft]) (by rw [hlist]) (by rw [hclosingList])
  · exact h.placedRight.of_lists (by rw [hkindRight]) (by rw [hlist]) (by rw [hclosingList])

theorem Paired.closeRight {st : Sockets} {s q : SocketRef} {a b : Asocket}
    (h : Paired st s q a b) : WasClosed (asocketClose st q) s :=
  wasClosed_of_closed
    (asocketClose_closed_pair h.right h.peerRight h.ne.symm h.left h.placedRight h.placedLeft)
    (by simp)

theorem Paired.closeLeft {st : Sockets} {s q : SocketRef} {a b : Asocket}
    (h : Paired st s q a b) : WasClosed (asocketClose st s) s :=
  wasClosed_of_closed
    (asocketClose_closed_pair h.left h.peerLeft h.ne h.right h.placedLeft h.placedRight)
    (by simp)

theorem Paired.reply {st : Sockets} {s q : SocketRef} {a b : Asocket}
    (h : Paired st s q a b) (r : Reply) : Paired (st.reply s r) s q a b :=
  h.congr h.left h.right rfl rfl rfl rfl rfl rfl rfl

/-- A local socket with an empty queue gets data that it cannot write. -/
def WriteFails (st : Sockets) (b : Asocket) (data : Bytes) : Prop :=
  b.pkts = [] ∧ (writeAll st.writeScript data).status = .failed

section Local

variable {st : Sockets} {s q : SocketRef} {a b : Asocket} (h : Paired st s q a b)

include h

/-- A local socket closes its peer, the caller, when it cannot write, but the
result does not say so. -/
theorem honest_localSocketEnqueue (data : Bytes) :
    Honest s (localSocketEnqueue st q data) ↔ ¬ WriteFails st b data := by
  have hkept : ∀ st' : Sockets, st'.heap s = some a → ∀ r : Int, 0 ≤ r →
      Honest s (r, st') := fun st' hs r hr => honest_of_kept hr ⟨a, hs, h.active⟩
  have hmodify : ∀ (st' : Sockets) (f : Asocket → Asocket), st'.heap = st.heap →
      (st'.modify q f).heap s = some a := by
    intro st' f hheap
    simp [Sockets.modify, hheap, h.ne, h.left]
  unfold localSocketEnqueue WriteFails
  simp only [h.right, List.isEmpty_iff]
  by_cases hpkts : b.pkts = []
  · simp only [hpkts, if_true, true_and]
    cases hstatus : (writeAll st.writeScript data).status with
    | done => exact iff_of_true (hkept _ h.left 0 (by decide)) (by simp)
    | again => exact iff_of_true (hkept _ (hmodify _ _ rfl) 1 (by decide)) (by simp)
    | failed =>
        refine iff_of_false (not_honest_of_closed ?_ ?_) (by simp)
        · simp
        · refine Paired.closeRight (a := a) (b := { b with hasWriteError := true }) ?_
          refine h.congr ?_ ?_ rfl rfl rfl rfl rfl rfl rfl
          · simp [Sockets.modify, Sockets.record, Sockets.afterWrite, h.ne, h.left]
          · simp [Sockets.modify, Sockets.record, Sockets.afterWrite, h.right]
  · simp only [hpkts, if_false, false_and, not_false_eq_true, iff_true]
    exact hkept _ (hmodify _ _ rfl) 1 (by decide)

theorem honest_smartSocketFail : Honest s (smartSocketFail st q) :=
  honest_of_closed (by simp [smartSocketFail]) h.closeRight

theorem gone_localSocketEnqueue (data : Bytes) :
    (WriteFails st a data → (localSocketEnqueue st s data).2.heap s = none) ∧
      (¬ WriteFails st a data → Kept (localSocketEnqueue st s data).2 s) := by
  unfold localSocketEnqueue WriteFails
  simp only [h.left, List.isEmpty_iff]
  by_cases hpkts : a.pkts = []
  · simp only [hpkts, if_true, true_and]
    cases hstatus : (writeAll st.writeScript data).status with
    | done => exact ⟨by simp, fun _ => ⟨a, h.left, h.active⟩⟩
    | again => exact ⟨by simp, fun _ => kept_modify h.left h.active⟩
    | failed =>
        refine ⟨fun _ => ?_, by simp⟩
        have hpaired : Paired (((st.afterWrite s (writeAll st.writeScript data)).record
            (.fdWriteFailed s)).modify s fun a => { a with hasWriteError := true }) s q
            { a with hasWriteError := true } b := by
          refine h.congr ?_ ?_ rfl rfl rfl rfl rfl rfl rfl
          · simp [Sockets.modify, Sockets.record, Sockets.afterWrite, h.left]
          · simp [Sockets.modify, Sockets.record, Sockets.afterWrite, h.ne.symm, h.right]
        have hclosed := asocketClose_closed_pair hpaired.left hpaired.peerLeft hpaired.ne
          hpaired.right hpaired.placedLeft hpaired.placedRight
        rw [hclosed.heap, if_pos (by simp), hpaired.left]
        simp [remains]
  · simp only [hpkts, if_false, false_and]
    exact ⟨False.elim, fun _ => kept_modify h.left h.active⟩

end Local

theorem linked_congr {st st' : Sockets} {s q : SocketRef} {a b b' : Asocket}
    (h : Linked st s q a b) (hs : st'.heap s = some a) (hq : st'.heap q = some b')
    (hpeer : b'.peer = b.peer) (hkind : b'.kind = b.kind)
    (hlist : st'.localSocketList = st.localSocketList)
    (hclosing : st'.localSocketClosingList = st.localSocketClosingList)
    (hnext : st'.nextRef = st.nextRef) : Linked st' s q a b' := by
  refine ⟨h.toPaired.congr hs hq rfl rfl rfl hpeer hkind hlist hclosing, ?_, ?_⟩
  · rw [hnext]
    exact h.fresh
  · rw [hnext, hlist, hclosing]
    exact h.unused

theorem Linked.modifyRight {st : Sockets} {s q : SocketRef} {a b : Asocket}
    (h : Linked st s q a b) {f : Asocket → Asocket} (hpeer : (f b).peer = b.peer)
    (hkind : (f b).kind = b.kind) : Linked (st.modify q f) s q a (f b) := by
  refine linked_congr h ?_ ?_ hpeer hkind rfl rfl rfl
  · simp [Sockets.modify, h.ne, h.left]
  · simp [Sockets.modify, h.right]

section Smart

variable (ctx : ServiceContext) {st : Sockets} {s q : SocketRef} {a b : Asocket}

/-- A host request leaves the smart socket linked with its client. -/
def KeepsLink (st st' : Sockets) (s q : SocketRef) (a : Asocket) : Prop :=
  (∃ b', Linked st' s q a b') ∧ st'.writeScript = st.writeScript

theorem keepsLink_ite {c : Prop} [Decidable c] {x y : Int × Sockets}
    (hx : KeepsLink st x.2 s q a) (hy : KeepsLink st y.2 s q a) :
    KeepsLink st (if c then x else y).2 s q a := by
  split
  · exact hx
  · exact hy

theorem keepsLink_handleHostRequest (h : Linked st s q a b) (request : HostService) :
    KeepsLink st (handleHostRequest ctx st q s request).2 s q a := by
  have hrefl : KeepsLink st st s q a := ⟨⟨b, h⟩, rfl⟩
  have hreply : ∀ r, KeepsLink st (st.reply s r) s q a := fun r =>
    ⟨⟨b, linked_congr h h.left h.right rfl rfl rfl rfl rfl⟩, rfl⟩
  have hanswer : ∀ onError, KeepsLink st (answerAbout ctx st s request onError).2 s q a := by
    intro onError
    unfold answerAbout
    split
    · exact hreply _
    · exact hreply _
  have hforward : KeepsLink st (handleForwardRequest ctx st s request).2 s q a := by
    unfold handleForwardRequest
    refine keepsLink_ite (hreply _) (keepsLink_ite ?_ hrefl)
    exact ⟨⟨b, linked_congr h h.left h.right rfl rfl rfl rfl rfl⟩, rfl⟩
  unfold handleHostRequest
  refine keepsLink_ite ?_ (keepsLink_ite ?_ (keepsLink_ite (keepsLink_ite (hreply _) hrefl)
    (keepsLink_ite (hreply _) (keepsLink_ite (hanswer _) (keepsLink_ite (hreply _)
    (keepsLink_ite (keepsLink_ite (hreply _) ?_) (keepsLink_ite (hreply _)
    (keepsLink_ite (hanswer _) (keepsLink_ite hrefl (keepsLink_ite (hreply _) ?_))))))))))
  · exact ⟨⟨b, linked_congr h h.left h.right rfl rfl rfl rfl rfl⟩, rfl⟩
  · dsimp only
    split
    · rename_i t _
      have hset := h.modifyRight (f := fun a => { a with transport := some t }) rfl rfl
      exact ⟨⟨_, linked_congr hset hset.left hset.right rfl rfl rfl rfl rfl⟩, rfl⟩
    · exact hreply _
  · split
    · exact hreply _
    · exact hreply _
  · exact hforward

theorem closed_handOff (h : Linked st s q a b) {st₂ : Sockets} {s2 : SocketRef} {d : Asocket}
    (hs : st₂.heap s = some a) (hq : st₂.heap q = some b) (hd : st₂.heap s2 = some d)
    (hlisted : q ∈ st₂.localSocketList ↔ q ∈ st.localSocketList)
    (hclosing : q ∈ st₂.localSocketClosingList ↔ q ∈ st.localSocketClosingList)
    (hne : s2 ≠ q ∧ s2 ≠ s) :
    Closed [q] (handOff st₂ q s s2) (asocketClose (handOff st₂ q s s2) q) ∧
      (asocketClose (handOff st₂ q s s2) q).heap s =
        some { a with kind := .localSocket, peer := some s2 } ∧
      (asocketClose (handOff st₂ q s s2) q).heap s2 = some { d with peer := some s } := by
  have hcell : (handOff st₂ q s s2).heap q = some { b with peer := none } := by
    simp [handOff, Sockets.modify, hne.1.symm, h.ne.symm, hq]
  have hclosed : Closed [q] (handOff st₂ q s s2) (asocketClose (handOff st₂ q s s2) q) :=
    asocketClose_closed_alone hcell rfl (h.placedRight.of_lists rfl hlisted hclosing)
  refine ⟨hclosed, ?_, ?_⟩
  · rw [hclosed.heap, if_neg (by simp [h.ne])]
    simp [handOff, Sockets.modify, h.ne, hne.2.symm, hs]
  · rw [hclosed.heap, if_neg (by simp [hne.1])]
    simp [handOff, Sockets.modify, hne.1, hne.2, hd]

theorem kept_startLocal (h : Linked st s q a b) :
    Kept (asocketReady ctx (asocketClose (handOff ((createLocalSocket st).2.reply s .okay) q s
      (createLocalSocket st).1) q) (createLocalSocket st).1) s := by
  have hnew := @hostSocket_createLocalSocket st
  have hsne : s ≠ (createLocalSocket st).1 := Nat.ne_of_lt h.fresh.1
  have hqne : q ≠ (createLocalSocket st).1 := Nat.ne_of_lt h.fresh.2
  have hlisted : q ∈ st.localSocketList ++ [(createLocalSocket st).1] ↔
      q ∈ st.localSocketList := by simp [hqne]
  obtain ⟨-, hs, hs2⟩ := @closed_handOff st s q a b h
    ((createLocalSocket st).2.reply s .okay) _ _ ((hnew.heap s hsne).trans h.left)
    ((hnew.heap q hqne).trans h.right) hnew.cell hlisted Iff.rfl ⟨hqne.symm, hsne.symm⟩
  generalize (createLocalSocket st).1 = s2 at hsne hs hs2 ⊢
  generalize asocketClose _ q = st₁ at hs hs2 ⊢
  have hkind : (st₁.record (.readyCalled s2)).kindOf s2 = some .localSocket := by
    simp [Sockets.kindOf, Sockets.record, hs2, Asocket.blank]
  simp only [asocketReady, hkind, localSocketReady]
  refine ⟨{ a with kind := .localSocket, peer := some s2 }, ?_, h.active⟩
  simp [Sockets.modify, Sockets.record, hsne, hs]

/-- The first list of a device tracker cannot be written to its client. -/
def FirstListFails (ctx : ServiceContext) (st : Sockets) (a : Asocket) : Prop :=
  WriteFails st a (hexHeader ctx.deviceList.length ++ ctx.deviceList)

theorem gone_startTracker (h : Linked st s q a b)
    (hlocal : SocketKind.isLocal a.kind = true) :
    let st' := asocketReady ctx (asocketClose (handOff ((createDeviceTracker st).2.reply s
      .okay) q s (createDeviceTracker st).1) q) (createDeviceTracker st).1
    (FirstListFails ctx st a → st'.heap s = none) ∧ (¬ FirstListFails ctx st a → Kept st' s) := by
  have hnew := @hostSocket_createDeviceTracker st
  have hsne : s ≠ (createDeviceTracker st).1 := Nat.ne_of_lt h.fresh.1
  have hqne : q ≠ (createDeviceTracker st).1 := Nat.ne_of_lt h.fresh.2
  obtain ⟨hclosed, hs, hs2⟩ := @closed_handOff st s q a b h
    ((createDeviceTracker st).2.reply s .okay) _ _ ((hnew.heap s hsne).trans h.left)
    ((hnew.heap q hqne).trans h.right) hnew.cell Iff.rfl Iff.rfl ⟨hqne.symm, hsne.symm⟩
  have hunused : (createDeviceTracker st).1 ∉ st.localSocketList ∧
      (createDeviceTracker st).1 ∉ st.localSocketClosingList := h.unused
  have hlisted : ∀ p, p ≠ q → (p ∈ (asocketClose (handOff ((createDeviceTracker st).2.reply s
      .okay) q s (createDeviceTracker st).1) q).localSocketList ↔ p ∈ st.localSocketList) := by
    intro p hp
    refine (hclosed.listed p).trans ?_
    simp only [List.mem_singleton, hp, not_false_eq_true, and_true]
    exact Iff.rfl
  have hclosing : ∀ p, p ≠ q → (p ∈ (asocketClose (handOff ((createDeviceTracker st).2.reply s
      .okay) q s (createDeviceTracker st).1) q).localSocketClosingList ↔
        p ∈ st.localSocketClosingList) := by
    intro p hp
    refine (hclosed.closing p).trans ?_
    simp only [List.mem_singleton, hp, not_false_eq_true, and_true, false_and, or_false]
    exact Iff.rfl
  have hscript : (asocketClose (handOff ((createDeviceTracker st).2.reply s .okay) q s
      (createDeviceTracker st).1) q).writeScript = st.writeScript := hclosed.scripts.2
  generalize (createDeviceTracker st).1 = s2 at hsne hqne hs hs2 hunused hlisted hclosing hscript ⊢
  generalize asocketClose _ q = st₁ at hs hs2 hlisted hclosing hscript ⊢
  have hkind : (st₁.record (.readyCalled s2)).kindOf s2 = some .deviceTracker := by
    simp [Sockets.kindOf, Sockets.record, hs2, Asocket.blank]
  have hcell : (st₁.record (.readyCalled s2)).heap s2 = some { Asocket.blank .deviceTracker with
      updateNeeded := true, peer := some s } := hs2
  have hpeer : ((st₁.record (.readyCalled s2)).modify s2 fun a =>
      { a with updateNeeded := false }).peerOf s2 = some s := by
    simp [Sockets.peerOf, Sockets.modify, hcell]
  have hkindClient : (((st₁.record (.readyCalled s2)).modify s2 fun a =>
      { a with updateNeeded := false }).record (.enqueueCalled s
        (hexHeader ctx.deviceList.length ++ ctx.deviceList))).kindOf s = some .localSocket := by
    simp [Sockets.kindOf, Sockets.modify, Sockets.record, hsne, hs]
  simp only [asocketReady, hkind, deviceTrackerReady, hcell, if_true, deviceTrackerSend, hpeer,
    asocketEnqueue, hkindClient]
  have hpaired : Paired (((st₁.record (.readyCalled s2)).modify s2 fun a =>
      { a with updateNeeded := false }).record (.enqueueCalled s
        (hexHeader ctx.deviceList.length ++ ctx.deviceList))) s s2
      { a with kind := .localSocket, peer := some s2 }
      { Asocket.blank .deviceTracker with updateNeeded := false, peer := some s } := by
    refine ⟨?_, ?_, rfl, rfl, hsne, ?_, ?_, h.active⟩
    · simp [Sockets.modify, Sockets.record, hsne, hs]
    · simp [Sockets.modify, Sockets.record, hs2]
    · refine h.placedLeft.of_lists ?_ (hlisted s h.ne) (hclosing s h.ne)
      cases hk : a.kind <;> simp_all [SocketKind.isLocal, SocketKind.isListed]
    · refine ⟨by simp [Asocket.blank, SocketKind.isListed], fun _ => ⟨?_, ?_⟩⟩
      · exact fun hmem => hunused.1 ((hlisted s2 hqne.symm).mp hmem)
      · exact fun hmem => hunused.2 ((hclosing s2 hqne.symm).mp hmem)
  have hresult := gone_localSocketEnqueue hpaired
    (hexHeader ctx.deviceList.length ++ ctx.deviceList)
  rw [FirstListFails, WriteFails, ← hscript]
  exact hresult

theorem handleHostRequest_trackDevices {request : HostService}
    (h : request.command = ascii "track-devices") :
    (handleHostRequest ctx st q s request).1 = -1 := by
  simp only [handleHostRequest, handleForwardRequest, h]
  rw [if_neg (by decide), if_neg (by decide), if_neg (by decide), if_neg (by decide),
    if_neg (by decide), if_neg (by decide), if_neg (by decide), if_neg (by decide),
    if_neg (by decide), if_neg (by decide), if_neg (by decide), if_neg (by decide),
    if_neg (by decide)]
  rfl

theorem hostServiceToSocket_other (st : Sockets) {name : Bytes} (h : name ≠ ascii "track-devices") :
    hostServiceToSocket st name = some (createLocalSocket st) ∨
      hostServiceToSocket st name = none := by
  unfold hostServiceToSocket
  rw [if_neg h]
  split
  · exact .inl rfl
  · split
    · exact .inl rfl
    · exact .inr rfl

theorem verdict_smartSocketHostService (h : Linked st s q a b)
    (hlocal : SocketKind.isLocal a.kind = true) (request : HostService) :
    Verdict s (request.command = ascii "track-devices" ∧ FirstListFails ctx st a)
      (smartSocketHostService ctx st q s request) := by
  obtain ⟨⟨b', hlinked⟩, hscript⟩ :=
    keepsLink_handleHostRequest ctx h request
  have htrack : request.command = ascii "track-devices" →
      (handleHostRequest ctx st q s request).1 = -1 := handleHostRequest_trackDevices ctx
  unfold smartSocketHostService
  dsimp only
  generalize handleHostRequest ctx st q s request = out at hlinked hscript htrack ⊢
  obtain ⟨ret, st₁⟩ := out
  simp only at hlinked hscript htrack ⊢
  by_cases hcommand : request.command = ascii "track-devices"
  · have hret : ret = -1 := htrack hcommand
    have hservice : hostServiceToSocket st₁ request.command =
        some (createDeviceTracker st₁) := by
      rw [hcommand, hostServiceToSocket, if_pos rfl]
    rw [if_neg (by omega), if_neg (by rw [hcommand]; decide)]
    simp only [hservice]
    obtain ⟨hgone, hkept⟩ := gone_startTracker ctx hlinked hlocal
    simp only [FirstListFails, WriteFails, hscript] at hgone hkept
    constructor
    · intro hnot
      exact honest_of_kept (by simp) (hkept fun hfails => hnot ⟨hcommand, hfails⟩)
    · intro hboth
      exact ⟨by simp, hgone hboth.2⟩
  · refine .of_honest ?_ (fun hboth => hcommand hboth.1)
    split
    · exact honest_smartSocketFail hlinked.toPaired
    split
    · exact honest_of_kept (by simp) ⟨a, by simp [Sockets.modify, hlinked.ne, hlinked.left],
        hlinked.active⟩
    · rcases hostServiceToSocket_other st₁ hcommand with hservice | hservice
      · simp only [hservice]
        exact honest_of_kept (by simp) (kept_startLocal ctx hlinked)
      · simp only [hservice]
        exact honest_smartSocketFail (hlinked.toPaired.reply _)

theorem connectToRemote_lists (destination : Bytes) :
    (connectToRemote ctx st s destination).localSocketList = st.localSocketList ∧
      (connectToRemote ctx st s destination).localSocketClosingList =
        st.localSocketClosingList := by
  unfold connectToRemote sendOn
  split
  · exact ⟨rfl, rfl⟩
  · dsimp only
    split
    · exact ⟨rfl, rfl⟩
    · split <;> exact ⟨rfl, rfl⟩

theorem honest_smartSocketConnect (h : Linked st s q a b) (service : Bytes) :
    Honest s (smartSocketConnect ctx st q s service) := by
  have hfail : ∀ r, Honest s (smartSocketFail (st.reply s r) q) := fun r =>
    honest_smartSocketFail (h.toPaired.reply r)
  unfold smartSocketConnect
  split
  · exact hfail _
  · rename_i t _
    split
    · exact hfail _
    · dsimp only
      have hcell : ((connectToRemote ctx (st.modify s fun a =>
          { a with kind := .localNotify, peer := none, transport := some t }) s service).modify
            q fun a => { a with peer := none }).heap q = some { b with peer := none } := by
        simp [Sockets.modify, connectToRemote_heap, h.ne.symm, h.right]
      obtain ⟨hlist, hclosingList⟩ := @connectToRemote_lists ctx (st.modify s fun a =>
        { a with kind := .localNotify, peer := none, transport := some t }) s service
      have hclosed := asocketClose_closed_alone hcell rfl
        (h.placedRight.of_lists rfl (iff_of_eq (congrArg (q ∈ ·) hlist))
          (iff_of_eq (congrArg (q ∈ ·) hclosingList)))
      refine honest_of_kept (by simp) ⟨{ a with
        kind := .localNotify, peer := none, transport := some t }, ?_, h.active⟩
      rw [hclosed.heap, if_neg (by simp [h.ne])]
      simp [Sockets.modify, connectToRemote_heap, h.ne, h.left]

/-- The request asks the server for `track-devices`. -/
def Tracks (service : Bytes) : Prop :=
  ctx.host = true ∧ ∃ request, parseHostService service = some request ∧
    request.command = ascii "track-devices"

theorem verdict_smartSocketDispatch (h : Linked st s q a b)
    (hlocal : SocketKind.isLocal a.kind = true) (service : Bytes) :
    Verdict s (Tracks ctx service ∧ FirstListFails ctx st a)
      (smartSocketDispatch ctx st q service) := by
  have hpeer : st.peerOf q = some s := peerOf_eq_some.mpr ⟨b, h.right, h.peerRight⟩
  unfold smartSocketDispatch
  simp only [hpeer]
  cases hhost : ctx.host with
  | true =>
      simp only [if_true]
      cases hparse : parseHostService service with
      | none =>
          refine .of_honest (honest_smartSocketConnect ctx h service) ?_
          rintro ⟨⟨-, request, hrequest, -⟩, -⟩
          simp [hparse] at hrequest
      | some request =>
          refine (verdict_smartSocketHostService ctx h hlocal request).congr ?_
          simp [Tracks, hhost, hparse]
  | false =>
      refine .of_honest ?_ (by simp [Tracks, hhost])
      simp only [Bool.false_eq_true, if_false]
      split
      · exact honest_smartSocketFail (h.toPaired.reply _)
      · rename_i t _ _
        exact honest_smartSocketConnect ctx
          (h.modifyRight (f := fun a => { a with transport := some t }) rfl rfl) service
      · exact honest_smartSocketConnect ctx h service

/-- The request that a packet holds once it is complete. -/
def completeRequest (packet : Bytes) : Option Bytes :=
  let len := unhex (packet.take 4)
  if packet.length < 4 ∨ len < 1 ∨ len > maxPayloadConst ∨ len + 4 > packet.length then none
  else some (cString ((packet.drop 4).take len))

theorem verdict_smartSocketRequest (h : Linked st s q a b)
    (hlocal : SocketKind.isLocal a.kind = true) (packet : Bytes) :
    Verdict s ((∃ service, completeRequest packet = some service ∧ Tracks ctx service) ∧
      FirstListFails ctx st a) (smartSocketRequest ctx st q packet) := by
  have hkept : Honest s (0, st) := honest_of_kept (by simp) ⟨a, h.left, h.active⟩
  unfold smartSocketRequest
  dsimp only
  split
  · rename_i hshort
    exact .of_honest hkept (by simp [completeRequest, hshort])
  · rename_i hshort
    split
    · rename_i hlength
      refine .of_honest (honest_smartSocketFail h.toPaired) ?_
      rw [completeRequest, if_pos (.inr (hlength.imp_right .inl))]
      simp
    · rename_i hlength
      split
      · rename_i hwait
        refine .of_honest hkept ?_
        rw [completeRequest, if_pos (.inr (.inr (.inr hwait)))]
        simp
      · rename_i hwait
        refine (verdict_smartSocketDispatch ctx h hlocal _).congr ?_
        rw [completeRequest, if_neg (by tauto)]
        simp

/-- The bytes that a smart socket has after an `enqueue`, unless there are too
many of them. -/
def StartsTracking (st : Sockets) (q : SocketRef) (b : Asocket) (data : Bytes) : Prop :=
  (b.pkts = [] ∨ (b.pkts.headD []).length + data.length ≤ getMaxPayload ctx.limit st q) ∧
    ∃ service, completeRequest (b.pkts.headD [] ++ data) = some service ∧ Tracks ctx service

theorem verdict_smartSocketEnqueue (h : Linked st s q a b)
    (hlocal : SocketKind.isLocal a.kind = true) (data : Bytes) :
    Verdict s (StartsTracking ctx st q b data ∧ FirstListFails ctx st a)
      (smartSocketEnqueue ctx st q data) := by
  have hrequest : ∀ pkts packet,
      Verdict s ((∃ service, completeRequest packet = some service ∧ Tracks ctx service) ∧
          FirstListFails ctx st a)
        (smartSocketRequest ctx (st.modify q fun a => { a with pkts := pkts }) q packet) :=
    fun pkts packet => verdict_smartSocketRequest ctx
      (h.modifyRight (f := fun a => { a with pkts := pkts }) rfl rfl) hlocal packet
  unfold smartSocketEnqueue StartsTracking
  simp only [h.right]
  cases hpkts : b.pkts with
  | nil =>
      refine (hrequest _ _).congr ?_
      simp
  | cons first rest =>
      dsimp only
      split
      · rename_i hlong
        refine .of_honest (honest_smartSocketFail h.toPaired) ?_
        rintro ⟨⟨hfits, -⟩, -⟩
        simp only [reduceCtorEq, List.headD_cons, false_or] at hfits
        omega
      · rename_i hfits
        refine (hrequest _ _).congr ?_
        simp only [reduceCtorEq, List.headD_cons, false_or]
        refine and_congr_left fun _ => ⟨fun hservice => ⟨by omega, hservice⟩, And.right⟩

end Smart

/-- The two ways in which `enqueue` closes its caller without saying so: a local
socket cannot write, or a new device tracker cannot send its first list. -/
def ClosesSilently (ctx : ServiceContext) (st : Sockets) (q : SocketRef) (a b : Asocket)
    (data : Bytes) : Prop :=
  (SocketKind.isLocal b.kind = true ∧ WriteFails st b data) ∨
    (b.kind = .smart ∧ StartsTracking ctx st q b data ∧ FirstListFails ctx st a)

/-- `s->peer->enqueue(s->peer, p)` as called by `local_socket_event_func`. -/
theorem peerEnqueue_negative_iff_closed (ctx : ServiceContext) {st : Sockets}
    {s q : SocketRef} {a b : Asocket} (h : Linked st s q a b)
    (hlocal : SocketKind.isLocal a.kind = true) (data : Bytes) :
    ((peerEnqueue ctx st q data).1 < 0 ↔ WasClosed (peerEnqueue ctx st q data).2 s) ↔
      ¬ ClosesSilently ctx st q a b data := by
  have hkind : st.kindOf q = some b.kind := by simp [Sockets.kindOf, h.right]
  have hkind' : (st.record (.enqueueCalled q data)).kindOf q = some b.kind := hkind
  have hcalled : Linked (st.record (.enqueueCalled q data)) s q a b :=
    linked_congr h h.left h.right rfl rfl rfl rfl rfl
  have hpeer : (st.record (.enqueueCalled q data)).peerOf q = some s :=
    peerOf_eq_some.mpr ⟨b, h.right, h.peerRight⟩
  show Honest s (peerEnqueue ctx st q data) ↔ _
  unfold ClosesSilently
  cases hk : b.kind with
  | localSocket | localNotify =>
      simp only [peerEnqueue, hkind, hk, asocketEnqueue, hkind']
      rw [honest_localSocketEnqueue hcalled.toPaired data]
      simp [SocketKind.isLocal, WriteFails, Sockets.record]
  | smart =>
      simp only [peerEnqueue, hkind, hk]
      rw [(verdict_smartSocketEnqueue ctx hcalled hlocal data).honest_iff]
      simp [SocketKind.isLocal, FirstListFails, WriteFails, StartsTracking, Sockets.record,
        getMaxPayload]
  | remote =>
      have hremote : st.kindOf q = some .remote := hkind.trans (congrArg some hk)
      have hright : (st.record (.enqueueCalled q data)).heap q = some b := h.right
      have hheap := asocketEnqueue_remote_heap hremote data
      refine iff_of_true (honest_of_kept ?_ ⟨a, ?_, h.active⟩) (by simp [SocketKind.isLocal])
      · simp [peerEnqueue, hkind, hk, asocketEnqueue, hkind', remoteSocketEnqueue, hright]
      · simp only [peerEnqueue, hremote, hheap, h.left]
  | jdwp | jdwpTracker =>
      simp only [peerEnqueue, hkind, hk, asocketEnqueue, hkind', jdwpSocketEnqueue, hpeer]
      exact iff_of_true (honest_of_closed (by simp) hcalled.toPaired.closeLeft)
        (by simp [SocketKind.isLocal])
  | deviceTracker =>
      simp only [peerEnqueue, hkind, hk, asocketEnqueue, hkind', deviceTrackerEnqueue]
      exact iff_of_true (honest_of_closed (by simp) hcalled.toPaired.closeRight)
        (by simp [SocketKind.isLocal])

/-- A caller that was put on the closing list without being told had a queue of
its own, and its peer was a local socket that could not write. -/
theorem closing_after_peerEnqueue (ctx : ServiceContext) {st : Sockets}
    {s q : SocketRef} {a b a' : Asocket} (h : Linked st s q a b)
    (hlocal : SocketKind.isLocal a.kind = true) {data : Bytes}
    (hr : 0 ≤ (peerEnqueue ctx st q data).1)
    (ha' : (peerEnqueue ctx st q data).2.heap s = some a') (hclosing : a'.closing = true) :
    (peerEnqueue ctx st q data).1 = 1 ∧ SocketKind.isLocal b.kind = true ∧
      WriteFails st b data ∧ a.pkts ≠ [] := by
  have hsilent : ClosesSilently ctx st q a b data := by
    by_contra hnot
    have hneg := ((peerEnqueue_negative_iff_closed ctx h hlocal data).mpr hnot).mpr fun c hc => by
      obtain rfl := Option.some.inj (ha'.symm.trans hc)
      exact hclosing
    omega
  have hkind : st.kindOf q = some b.kind := by simp [Sockets.kindOf, h.right]
  have hcalled : Linked (st.record (.enqueueCalled q data)) s q a b :=
    linked_congr h h.left h.right rfl rfl rfl rfl rfl
  rcases hsilent with ⟨hb, hfails⟩ | ⟨hb, htracks, hfails⟩
  · have hpaired : Paired ((((st.record (.enqueueCalled q data)).afterWrite q
        (writeAll st.writeScript data)).record (.fdWriteFailed q)).modify q fun a =>
          { a with hasWriteError := true }) s q a { b with hasWriteError := true } := by
      refine h.toPaired.congr ?_ ?_ rfl rfl rfl rfl rfl rfl rfl
      · simp [Sockets.modify, Sockets.record, Sockets.afterWrite, h.ne, h.left]
      · simp [Sockets.modify, Sockets.record, Sockets.afterWrite, h.right]
    have hclosed := asocketClose_closed_pair hpaired.right hpaired.peerRight hpaired.ne.symm
      hpaired.left hpaired.placedRight hpaired.placedLeft
    have hright : (st.record (.enqueueCalled q data)).heap q = some b := h.right
    have hscript : (st.record (.enqueueCalled q data)).writeScript = st.writeScript := rfl
    have henqueue : peerEnqueue ctx st q data = (1, asocketClose
        ((((st.record (.enqueueCalled q data)).afterWrite q
          (writeAll st.writeScript data)).record (.fdWriteFailed q)).modify q fun a =>
            { a with hasWriteError := true }) q) := by
      have hkind' : (st.record (.enqueueCalled q data)).kindOf q = some b.kind := hkind
      cases hk : b.kind <;> simp_all [SocketKind.isLocal] <;>
        simp [peerEnqueue, hkind, asocketEnqueue, hkind', localSocketEnqueue, hright, hfails.1,
          hscript, hfails.2]
    rw [henqueue, hclosed.heap, if_pos (by simp), hpaired.left] at ha'
    exact ⟨by rw [henqueue], hb, hfails, (remains_eq_some ha').2.2.2.1⟩
  · have hgone := ((verdict_smartSocketEnqueue ctx hcalled hlocal data).gone
      ⟨htracks, hfails⟩).2
    have henqueue : peerEnqueue ctx st q data =
        smartSocketEnqueue ctx (st.record (.enqueueCalled q data)) q data := by
      simp only [peerEnqueue, hkind, hb]
    rw [henqueue, hgone] at ha'
    simp at ha'

/-- A client of the host server asks for `host:connect:a` and is connected to
the socket of that service. -/
def connectClient : List (Action × Oracle) :=
  [(.acceptSmart, {}), (.poll 0 .readable, {}),
    (.dispatch 0, { reads := [.data (ascii "000ehost:connect:a")] })]

/-- The sockets after these steps, when the next write fails. -/
def connectedClient : Sockets :=
  { ((serverSystem (plainConfig true false)).execute .initial connectClient).sockets with
    writeScript := [.error] }

def clientContext : ServiceContext :=
  serviceContext (plainConfig true false) {}
    ((serverSystem (plainConfig true false)).execute .initial connectClient)

def clientCell : Asocket := (connectedClient.heap 0).get (by decide)

def serviceCell : Asocket := (connectedClient.heap 2).get (by decide)

theorem linked_connectedClient : Linked connectedClient 0 2 clientCell serviceCell := by
  refine ⟨⟨by decide, by decide, by decide, by decide, by decide, ⟨by decide, by decide⟩,
    ⟨by decide, by decide⟩, by decide⟩, by decide, by decide⟩

theorem peerEnqueue_negative_iff_closed_connectedClient :
    Linked connectedClient 0 2 clientCell serviceCell ∧
      SocketKind.isLocal clientCell.kind = true ∧
      ¬ ((peerEnqueue clientContext connectedClient 2 [1]).1 < 0 ↔
        WasClosed (peerEnqueue clientContext connectedClient 2 [1]).2 0) := by
  refine ⟨linked_connectedClient, by decide, ?_⟩
  rw [peerEnqueue_negative_iff_closed clientContext linked_connectedClient (by decide) [1],
    not_not]
  exact .inl (by unfold WriteFails; decide)

/-- The client's socket is gone although the result is `1`. -/
theorem peerEnqueue_positive_after_close :
    (serverSystem (plainConfig true false)).Executable (fun _ _ => True) .initial connectClient ∧
      connectedClient.peerOf 0 = some 2 ∧
      (peerEnqueue clientContext connectedClient 2 [1]).1 = 1 ∧
      (peerEnqueue clientContext connectedClient 2 [1]).2.heap 0 = none ∧
      ¬ ((peerEnqueue clientContext connectedClient 2 [1]).1 < 0 ↔
        WasClosed (peerEnqueue clientContext connectedClient 2 [1]).2 0) := by
  have hresult : (peerEnqueue clientContext connectedClient 2 [1]).1 = 1 := by decide
  have hgone : (peerEnqueue clientContext connectedClient 2 [1]).2.heap 0 = none := by decide
  refine ⟨by decide, by decide, hresult, hgone, not_honest_of_closed ?_ ?_⟩
  · rw [hresult]
    decide
  · intro a ha
    simp [hgone] at ha

end Adb.EnqueueContract
