import Adb.GraphInvariants

/-!
How long the data of the `OPEN` and `WRTE` messages is that the socket
functions send, against the payload limit of the transport they are sent on.
-/

namespace Adb.PayloadBounds

open Adb.DescriptorIo
open Adb.EventInterest
open Adb.WirePackets
open Adb.SocketTable
open Adb.SocketOperations
open Adb.SmartSockets
open Adb.SocketEvents
open Adb.SocketClosing
open Adb.SocketGraph
open Adb.SocketEffects
open Adb.OperationEffects
open Adb.SmartEffects
open Adb.StreamEffects
open Adb.CallbackEffects
open Adb.ServerState
open Adb.ServerRuns
open Adb.ServerEffects
open Adb.GraphInvariants
open Adb.TransitionSystems

/-- A message that opens a stream or carries its data is within the limit. -/
def Bounded (limit : TransportRef → Nat) : Event → Prop
  | .sent t p => p.command = .aOpen ∨ p.command = .aWrte → p.data.length ≤ limit t
  | _ => True

instance (limit : TransportRef → Nat) : DecidablePred (Bounded limit)
  | .sent _ _ => inferInstanceAs (Decidable (_ → _))
  | .received _ _ | .connected _ _ _ _ | .readyCalled _ | .enqueueCalled _ _ | .closeCalled _
  | .fdRead _ _ | .handedOver _ _ | .fdWrote _ _ | .fdWriteFailed _ | .fdClosed _
  | .movedToClosing _ _ | .replied _ _ => .isTrue trivial

variable {limit : TransportRef → Nat} {st : Sockets}

theorem bounded_sendPacket (t : TransportRef) {p : Apacket} (hp : Bounded limit (.sent t p)) :
    Emits (Bounded limit) st (st.sendPacket t p) :=
  .single rfl hp

theorem bounded_record {e : Event} (he : Bounded limit e) :
    Emits (Bounded limit) st (st.record e) :=
  .single rfl he

theorem bounded_sendOn (t : Option TransportRef) {p : Apacket}
    (hp : ∀ t', t = some t' → Bounded limit (.sent t' p)) :
    Emits (Bounded limit) st (sendOn st t p) := by
  cases t with
  | none => exact .refl rfl
  | some t => exact bounded_sendPacket t (hp t rfl)

theorem bounded_of_command {t : TransportRef} {p : Apacket} (hopen : p.command ≠ .aOpen)
    (hwrte : p.command ≠ .aWrte) : Bounded limit (.sent t p) := by
  rintro (h | h)
  · exact absurd h hopen
  · exact absurd h hwrte

section Close

theorem bounded_asocketShutdown (s : SocketRef) :
    Emits (Bounded limit) st (asocketShutdown st s) := by
  unfold asocketShutdown
  split
  · unfold remoteSocketShutdown
    split
    · exact .refl rfl
    · apply bounded_sendOn
      intro t _
      exact bounded_of_command (by simp [streamPacket]) (by simp [streamPacket])
  · exact .refl rfl

theorem bounded_localSocketFinish (s : SocketRef) :
    Emits (Bounded limit) st (localSocketFinish st s) := by
  unfold localSocketFinish
  split
  · exact .refl rfl
  next a ha =>
      split
      · unfold localSocketDestroy
        rw [ha]
        exact .single rfl trivial
      · exact .single rfl trivial

variable {close : Sockets → SocketRef → Sockets}
  (hclose : ∀ st s, Emits (Bounded limit) st (close st s))

include hclose

theorem bounded_localSocketClose (s : SocketRef) :
    Emits (Bounded limit) st (localSocketClose close st s) := by
  unfold localSocketClose
  split
  · exact bounded_localSocketFinish s
  next q hq =>
      have hunlinked : Emits (Bounded limit) (asocketShutdown st q)
          ((asocketShutdown st q).modify q fun a => { a with peer := none }) := .refl rfl
      refine ((bounded_asocketShutdown q).trans (hunlinked.trans (hclose _ q))).trans ?_
      exact (Emits.refl rfl).trans (bounded_localSocketFinish s)

theorem bounded_closePeer (s : SocketRef) : Emits (Bounded limit) st (closePeer close st s) := by
  unfold closePeer
  split
  · exact .refl rfl
  next q hq =>
      have hunlinked : Emits (Bounded limit) st (st.modify q fun a => { a with peer := none }) :=
        .refl rfl
      exact hunlinked.trans (hclose _ q)

end Close

theorem bounded_asocketCloseFuel (fuel : Nat) (s : SocketRef) :
    Emits (Bounded limit) st (asocketCloseFuel fuel st s) := by
  induction fuel generalizing st s with
  | zero => exact .refl rfl
  | succ fuel ih =>
      have hpeer : ∀ {st : Sockets} s, Emits (Bounded limit) st
          (closePeer (asocketCloseFuel fuel) st s) :=
        fun s => bounded_closePeer (fun _ s => ih s) s
      have hlocal : ∀ {st : Sockets} s, Emits (Bounded limit) st
          (localSocketClose (asocketCloseFuel fuel) st s) :=
        fun s => bounded_localSocketClose (fun _ s => ih s) s
      rw [asocketCloseFuel]
      split
      · exact .refl rfl
      next a ha =>
          have hcalled : Emits (Bounded limit) st (st.record (.closeCalled s)) :=
            bounded_record trivial
          refine hcalled.trans ?_
          dsimp only
          split
          · exact hlocal s
          · refine Emits.trans ?_ (hlocal s)
            exact .single rfl trivial
          · exact (hpeer s).trans (.refl rfl)
          · exact (hpeer s).trans (.refl rfl)
          · exact (hpeer s).trans (.refl rfl)
          · exact (hpeer s).trans (.refl rfl)
          · exact (hpeer s).trans (.refl rfl)

theorem bounded_asocketClose (s : SocketRef) : Emits (Bounded limit) st (asocketClose st s) :=
  bounded_asocketCloseFuel 2 s

theorem bounded_close_after {st' : Sockets} (h : Emits (Bounded limit) st st') (s : SocketRef) :
    Emits (Bounded limit) st (asocketClose st' s) :=
  h.trans (bounded_asocketClose s)

section Enqueue

theorem bounded_localSocketEnqueue (s : SocketRef) (data : Bytes) :
    Emits (Bounded limit) st (localSocketEnqueue st s data).2 := by
  have hwrote : Emits (Bounded limit) st (st.afterWrite s (writeAll st.writeScript data)) :=
    .single rfl trivial
  unfold localSocketEnqueue
  split
  · exact .refl rfl
  · split
    · dsimp only
      split
      · exact hwrote
      · refine bounded_close_after ?_ s
        exact hwrote.trans (.single rfl trivial)
      · exact hwrote.trans (.refl rfl)
    · exact .refl rfl

/-- Data that fits the transport of the remote socket that it is given to. -/
def FitsPeer (limit : TransportRef → Nat) (st : Sockets) (q : SocketRef) (data : Bytes) : Prop :=
  ∀ b t, st.heap q = some b → b.kind = .remote → b.transport = some t → data.length ≤ limit t

theorem bounded_asocketEnqueue {q : SocketRef} {data : Bytes} (h : FitsPeer limit st q data) :
    Emits (Bounded limit) st (asocketEnqueue st q data).2 := by
  have hcalled : Emits (Bounded limit) st (st.record (.enqueueCalled q data)) :=
    bounded_record trivial
  refine hcalled.trans ?_
  unfold asocketEnqueue
  dsimp only
  split
  · exact bounded_localSocketEnqueue q data
  · exact bounded_localSocketEnqueue q data
  next hkind =>
      unfold remoteSocketEnqueue
      split
      · exact .refl rfl
      next b hb =>
          have hb' : st.heap q = some b := hb
          have hbkind : b.kind = .remote := by
            simpa [Sockets.kindOf, Sockets.record, hb'] using hkind
          apply bounded_sendOn
          intro t ht _
          exact h b t hb' hbkind ht
  · unfold jdwpSocketEnqueue
    split
    · exact .refl rfl
    · exact bounded_asocketClose _
  · unfold jdwpSocketEnqueue
    split
    · exact .refl rfl
    · exact bounded_asocketClose _
  · exact bounded_asocketClose q
  · exact .refl rfl
  · exact .refl rfl

theorem fitsPeer_of_getMaxPayload {s q : SocketRef} (hq : st.peerOf s = some q) {data : Bytes}
    (hdata : data.length ≤ getMaxPayload limit st s) : FitsPeer limit st q data := by
  intro b t hb _ ht
  obtain ⟨a, ha, hpeer⟩ := peerOf_eq_some.mp hq
  have hle : getMaxPayload limit st s ≤ limit t := by
    simp only [getMaxPayload, ha, hpeer, Option.bind_some, hb, ht]
    exact Nat.min_le_right _ _
  exact Nat.le_trans hdata hle

end Enqueue

section Lists

theorem length_jdwpProcessList_go (bufferlen : Nat) (pids : List Int) {temp : Bytes}
    (h : temp.length ≤ bufferlen) : (jdwpProcessList.go bufferlen pids temp).length ≤ bufferlen := by
  induction pids generalizing temp with
  | nil => exact h
  | cons pid pids ih =>
      rw [jdwpProcessList.go]
      split
      · exact ih h
      · dsimp only
        split
        · exact h
        next hfits =>
            apply ih
            rw [List.length_append]
            omega

theorem length_jdwpProcessList (pids : List Int) (bufferlen : Nat) :
    (jdwpProcessList pids bufferlen).length ≤ bufferlen :=
  length_jdwpProcessList_go bufferlen pids (Nat.zero_le _)

theorem length_hexHeader (n : Nat) : (hexHeader n).length ≤ 4 := by
  simp only [hexHeader, List.length_map]
  exact List.length_take_le 4 _

theorem length_jdwpProcessListMsg (pids : List Int) {bufferlen : Nat} (h : 4 ≤ bufferlen) :
    (jdwpProcessListMsg pids bufferlen).length ≤ bufferlen := by
  have hlist := length_jdwpProcessList pids (bufferlen - 4)
  have hheader := length_hexHeader (jdwpProcessList pids (bufferlen - 4)).length
  simp only [jdwpProcessListMsg, List.length_append]
  omega

end Lists

section Ready

/-- The peer of a device tracker is not on a transport. -/
def TrackerLocal (st : Sockets) (s : SocketRef) : Prop :=
  st.kindOf s = some .deviceTracker → ∀ q, st.peerOf s = some q → st.kindOf q ≠ some .remote

theorem trackerLocal_of_wellFormed (h : WellFormed st) (s : SocketRef) : TrackerLocal st s := by
  intro hkind q hq
  obtain ⟨a, ha, hpeer⟩ := peerOf_eq_some.mp hq
  obtain ⟨-, b, hb, -, hcompat⟩ := (h.socket s a ha).peer q hpeer
  have hakind : a.kind = .deviceTracker := by simpa [Sockets.kindOf, ha] using hkind
  intro hremote
  have hbkind : b.kind = .remote := by simpa [Sockets.kindOf, hb] using hremote
  simp [hakind, hbkind, Compatible] at hcompat

theorem fitsPeer_of_kind {q : SocketRef} (h : st.kindOf q ≠ some .remote) (data : Bytes) :
    FitsPeer limit st q data := by
  intro b t hb hkind _
  exact absurd (by simp [Sockets.kindOf, hb, hkind]) h

theorem bounded_jdwpSocketReady (ctx : ServiceContext) (s : SocketRef) :
    Emits (Bounded ctx.limit) st (jdwpSocketReady ctx st s) := by
  unfold jdwpSocketReady
  split
  · exact .refl rfl
  next a ha =>
      split
      · exact .refl rfl
      next q hq =>
          split
          · exact bounded_asocketClose q
          · have hpeer : st.peerOf s = some q := peerOf_eq_some.mpr ⟨a, ha, hq⟩
            have hfits := fitsPeer_of_getMaxPayload hpeer
              (length_jdwpProcessList ctx.jdwpPids (getMaxPayload ctx.limit st s))
            exact (bounded_asocketEnqueue hfits).trans (.refl rfl)

theorem bounded_jdwpTrackerReady (ctx : ServiceContext) (h : WellFormed st) (s : SocketRef) :
    Emits (Bounded ctx.limit) st (jdwpTrackerReady ctx st s) := by
  unfold jdwpTrackerReady
  split
  · exact .refl rfl
  next a ha =>
      split
      · split
        · exact .refl rfl
        next q hq =>
            dsimp only
            split
            · exact .refl rfl
            next hlimit =>
                have hpeer : st.peerOf s = some q := peerOf_eq_some.mpr ⟨a, ha, hq⟩
                have hfits := fitsPeer_of_getMaxPayload hpeer
                  (length_jdwpProcessListMsg ctx.jdwpPids (Nat.not_lt.mp hlimit))
                have hne : q ≠ s := ((h.socket s a ha).peer q hq).1
                have hmarked : Emits (Bounded ctx.limit) st
                    (st.modify s fun a => { a with needInitial := false }) := .refl rfl
                refine hmarked.trans (bounded_asocketEnqueue ?_)
                intro b t hb
                exact hfits b t (by simpa [Sockets.modify, hne] using hb)
      · exact .refl rfl

theorem bounded_deviceTrackerSend {s : SocketRef}
    (h : ∀ q, st.peerOf s = some q → st.kindOf q ≠ some .remote) (list : Bytes) :
    Emits (Bounded limit) st (deviceTrackerSend st s list) := by
  unfold deviceTrackerSend
  split
  · exact .refl rfl
  next q hq => exact bounded_asocketEnqueue (fitsPeer_of_kind (h q hq) _)

theorem bounded_deviceTrackerReady (ctx : ServiceContext) (h : WellFormed st) {s : SocketRef}
    (hkind : st.kindOf s = some .deviceTracker) :
    Emits (Bounded limit) st (deviceTrackerReady ctx st s) := by
  unfold deviceTrackerReady
  split
  · exact .refl rfl
  next a ha =>
      split
      · have hmarked : Emits (Bounded limit) st
            (st.modify s fun a => { a with updateNeeded := false }) := .refl rfl
        refine hmarked.trans (bounded_deviceTrackerSend ?_ _)
        intro q hq hremote
        have hpeer : st.peerOf s = some q := by
          simpa [Sockets.peerOf, Sockets.modify, ha] using hq
        have hne : q ≠ s := ((h.socket s a ha).peer q (by
          simpa [Sockets.peerOf, ha] using hpeer)).1
        refine trackerLocal_of_wellFormed h s hkind q hpeer ?_
        simpa [Sockets.kindOf, Sockets.modify, hne] using hremote
      · exact .refl rfl

theorem bounded_asocketReady (ctx : ServiceContext) (h : WellFormed st) (s : SocketRef) :
    Emits (Bounded ctx.limit) st (asocketReady ctx st s) := by
  have hcalled : Emits (Bounded ctx.limit) st (st.record (.readyCalled s)) :=
    bounded_record trivial
  have hwf : WellFormed (st.record (.readyCalled s)) := h.congr rfl rfl rfl ⟨rfl, rfl⟩
  refine hcalled.trans ?_
  unfold asocketReady
  dsimp only
  split
  · exact .refl rfl
  · exact .refl rfl
  · exact .single rfl trivial
  · unfold remoteSocketReady
    split
    · exact .refl rfl
    · apply bounded_sendOn
      intro t _
      exact bounded_of_command (by simp [streamPacket]) (by simp [streamPacket])
  · exact .refl rfl
  · exact bounded_jdwpSocketReady ctx s
  · exact bounded_jdwpTrackerReady ctx hwf s
  next hkind => exact bounded_deviceTrackerReady ctx hwf hkind

end Ready

section Smart

variable {ctx : ServiceContext}

theorem bounded_reply (s : SocketRef) (r : Reply) :
    Emits (Bounded limit) st (st.reply s r) :=
  .single rfl trivial

theorem bounded_ite {c : Prop} [Decidable c] {x y : Int × Sockets}
    (hx : Emits (Bounded limit) st x.2) (hy : Emits (Bounded limit) st y.2) :
    Emits (Bounded limit) st (if c then x else y).2 := by
  split
  · exact hx
  · exact hy

theorem bounded_handleHostRequest (s client : SocketRef) (request : HostService) :
    Emits (Bounded limit) st (handleHostRequest ctx st s client request).2 := by
  have hsame : Emits (Bounded limit) st st := .refl rfl
  have hreply : ∀ r, Emits (Bounded limit) st (st.reply client r) := bounded_reply client
  have hanswer : ∀ onError, Emits (Bounded limit) st
      (answerAbout ctx st client request onError).2 := by
    intro onError
    unfold answerAbout
    split
    · exact hreply _
    · exact hreply _
  have hforward : Emits (Bounded limit) st (handleForwardRequest ctx st client request).2 := by
    unfold handleForwardRequest
    exact bounded_ite (hreply _) (bounded_ite (.refl rfl) hsame)
  unfold handleHostRequest
  refine bounded_ite ?_ (bounded_ite ?_ (bounded_ite (bounded_ite (hreply _) hsame)
    (bounded_ite (hreply _) (bounded_ite (hanswer _) (bounded_ite (hreply _)
    (bounded_ite (bounded_ite (hreply _) ?_) (bounded_ite (hreply _) (bounded_ite (hanswer _)
    (bounded_ite hsame (bounded_ite (hreply _) ?_))))))))))
  · exact .single rfl trivial
  · dsimp only
    split
    · exact .single rfl trivial
    · exact hreply _
  · split
    · exact hreply _
    · exact hreply _
  · exact hforward

/-- `connect_to_remote` keeps to the limit unless the limit is zero. -/
theorem bounded_connectToRemote {s : SocketRef} (hpos : getMaxPayload ctx.limit st s ≠ 0)
    (destination : Bytes) : Emits (Bounded ctx.limit) st (connectToRemote ctx st s destination) := by
  unfold connectToRemote
  split
  · exact .refl rfl
  next a ha =>
      dsimp only
      split
      · exact .refl rfl
      next hfits =>
          apply bounded_sendOn
          intro t ht _
          have hle : getMaxPayload ctx.limit st s ≤ ctx.limit t := by
            simp only [getMaxPayload, ha, ht]
            split
            · exact Nat.le_trans (Nat.min_le_left _ _) (Nat.min_le_right _ _)
            · exact Nat.min_le_right _ _
          have hlength : destination.length + 1 ≤ getMaxPayload ctx.limit st s - 1 := by
            by_contra hnot
            exact hfits ⟨hpos, by omega⟩
          show (destination ++ [0]).length ≤ ctx.limit t
          rw [List.length_append, List.length_singleton]
          omega

theorem getMaxPayload_ne_zero {s : SocketRef} (hpeer : st.peerOf s = none)
    (h : ∀ a t, st.heap s = some a → a.transport = some t → limit t ≠ 0) :
    getMaxPayload limit st s ≠ 0 := by
  have hconst : maxPayloadConst ≠ 0 := by decide
  cases ha : st.heap s with
  | none => simpa [getMaxPayload, ha] using hconst
  | some a =>
      have hnone : a.peer = none := by simpa [Sockets.peerOf, ha] using hpeer
      cases ht : a.transport with
      | none => simpa [getMaxPayload, ha, ht, hnone] using hconst
      | some t =>
          have hlimit := h a t ha ht
          simp only [getMaxPayload, ha, ht, hnone, Option.bind_none]
          omega

theorem bounded_smartSocketFail (s : SocketRef) :
    Emits (Bounded limit) st (smartSocketFail st s).2 :=
  bounded_asocketClose s

theorem bounded_replyFail (s client : SocketRef) (r : Reply) :
    Emits (Bounded limit) st (smartSocketFail (st.reply client r) s).2 :=
  bounded_close_after (bounded_reply client r) s

theorem bounded_smartSocketConnect {s : SocketRef}
    (hlimit : ∀ b t, st.heap s = some b → b.transport = some t → ctx.limit t ≠ 0)
    (client : SocketRef) (service : Bytes) :
    Emits (Bounded ctx.limit) st (smartSocketConnect ctx st s client service).2 := by
  unfold smartSocketConnect
  split
  · exact bounded_replyFail _ _ _
  next t ht =>
      split
      · exact bounded_replyFail _ _ _
      · have hrigged : Emits (Bounded ctx.limit) st (st.modify client fun a =>
            { a with kind := .localNotify, peer := none, transport := some t }) := .refl rfl
        refine bounded_close_after ?_ s
        refine (hrigged.trans (bounded_connectToRemote ?_ service)).trans (.refl rfl)
        apply getMaxPayload_ne_zero
        · simp [Sockets.peerOf, Sockets.modify]
        · intro a t' ha ht'
          obtain ⟨b, hb, hbt⟩ := Option.bind_eq_some_iff.mp ht
          obtain ⟨c, -, rfl⟩ : ∃ c, st.heap client = some c ∧ { c with
              kind := SocketKind.localNotify, peer := none, transport := some t } = a := by
            simpa [Sockets.modify] using ha
          obtain rfl : t = t' := Option.some.inj ht'
          exact hlimit b t hb hbt

theorem bounded_startService (s client s2 : SocketRef)
    (h : WellFormed (asocketClose (handOff st s client s2) s)) :
    Emits (Bounded ctx.limit) st
      (asocketReady ctx (asocketClose (handOff st s client s2) s) s2) := by
  have hhand : Emits (Bounded ctx.limit) st (handOff st s client s2) := .refl rfl
  exact (bounded_close_after hhand s).trans (bounded_asocketReady ctx h s2)

theorem bounded_smartSocketHostService (h : WellFormed st) {s client : SocketRef}
    (hserves : Serves st s client) (request : HostService) :
    Emits (Bounded ctx.limit) st (smartSocketHostService ctx st s client request).2 := by
  have hhandled : Handled true (fun _ => True) (fun _ => True) st
      (handleHostRequest ctx st s client request).2 :=
    handled_handleHostRequest h hserves (fun _ _ _ _ => trivial) trivial trivial request
  have hbounded : Emits (Bounded ctx.limit) st (handleHostRequest ctx st s client request).2 :=
    bounded_handleHostRequest s client request
  have hserves' := hserves.of_handled hhandled
  have hwf := hhandled.effect.wellFormed h
  unfold smartSocketHostService
  dsimp only
  generalize handleHostRequest ctx st s client request = out at hserves' hwf hbounded ⊢
  obtain ⟨ret, st₁⟩ := out
  simp only at hserves' hwf hbounded ⊢
  split
  · exact hbounded.trans (bounded_smartSocketFail s)
  split
  · exact hbounded.trans (.refl rfl)
  · split
    · exact hbounded.trans (bounded_replyFail _ _ _)
    next s2 st₂ hs2 =>
        obtain ⟨hcreated, d, hd⟩ : Effect true (fun _ => True) (fun _ => True) st₁ st₂ ∧
            ∃ d, HostSocket st₁ st₂ s2 d := hostServiceToSocket_spec hs2 trivial
        obtain ⟨hsne, hcne, hserves₂⟩ := hostSocket_serves hwf hserves' hd
        have hwf₂ := hcreated.wellFormed hwf
        have hreplied : WellFormed (st₂.reply client .okay) := hwf₂.congr rfl rfl rfl ⟨rfl, rfl⟩
        have hclosed : Effect true (fun _ => True) (fun _ => True) (st₂.reply client .okay)
            (asocketClose (handOff (st₂.reply client .okay) s client s2) s) :=
          effect_handOffClose hreplied ⟨hserves₂.smart, hserves₂.peer⟩ trivial trivial hd.cell
            trivial hd.new hd.kind hd.transport ⟨hsne, hcne⟩
        have htrace : st₂.trace = st₁.trace := by
          rcases @hostServiceToSocket_cases st₁ request.command with hc | hc | hc
          · rw [hc] at hs2
            obtain ⟨rfl, rfl⟩ := Prod.mk.inj (Option.some.inj hs2)
            rfl
          · rw [hc] at hs2
            obtain ⟨rfl, rfl⟩ := Prod.mk.inj (Option.some.inj hs2)
            rfl
          · simp [hc] at hs2
        refine hbounded.trans (Emits.trans (Emits.refl htrace) ?_)
        exact (bounded_reply client _).trans
          (bounded_startService s client s2 (hclosed.wellFormed hreplied))

/-- The transports that a smart socket can send an `OPEN` to have a limit. -/
def OpensFit (ctx : ServiceContext) (b : Asocket) : Prop :=
  (∀ t, b.transport = some t → ctx.limit t ≠ 0) ∧
    ∀ type serial t, ctx.acquire type serial = .ok t → ctx.limit t ≠ 0

theorem bounded_smartSocketDispatch (h : WellFormed st) {s : SocketRef} {b : Asocket}
    (hb : st.heap s = some b) (hsmart : b.kind = .smart) (hfit : OpensFit ctx b)
    (service : Bytes) : Emits (Bounded ctx.limit) st (smartSocketDispatch ctx st s service).2 := by
  have hown : ∀ b' t, st.heap s = some b' → b'.transport = some t → ctx.limit t ≠ 0 := by
    intro b' t hb' ht
    obtain rfl := Option.some.inj (hb.symm.trans hb')
    exact hfit.1 t ht
  unfold smartSocketDispatch
  split
  · exact .refl rfl
  next client hpeer =>
      split
      · split
        · exact bounded_smartSocketHostService h ⟨by simp [Sockets.kindOf, hb, hsmart], hpeer⟩ _
        · exact bounded_smartSocketConnect hown client service
      · split
        · exact bounded_replyFail _ _ _
        next t _ hacquired =>
            have hgiven : Emits (Bounded ctx.limit) st
                (st.modify s fun a => { a with transport := some t }) := .refl rfl
            refine hgiven.trans (bounded_smartSocketConnect ?_ client service)
            intro b' t' hb' ht'
            obtain rfl : { b with transport := some t } = b' := by
              simpa [Sockets.modify, hb] using hb'
            obtain rfl : t = t' := Option.some.inj ht'
            exact hfit.2 _ _ t hacquired
        · exact bounded_smartSocketConnect hown client service

theorem bounded_smartSocketEnqueue (h : WellFormed st) {s : SocketRef} {b : Asocket}
    (hb : st.heap s = some b) (hsmart : b.kind = .smart) (hfit : OpensFit ctx b)
    (data : Bytes) : Emits (Bounded ctx.limit) st (smartSocketEnqueue ctx st s data).2 := by
  have hrequest : ∀ pkts packet, Emits (Bounded ctx.limit) st
      (smartSocketRequest ctx (st.modify s fun a => { a with pkts := pkts }) s packet).2 := by
    intro pkts packet
    have hok := h.socket s b hb
    have hwf : WellFormed (st.modify s fun a => { a with pkts := pkts }) := by
      refine h.modify hb (.of_kind rfl rfl rfl rfl ?_ hok.fde hok.transport)
      intro hl
      simp [hsmart, SocketKind.isLocal] at hl
    have hcell : (st.modify s fun a => { a with pkts := pkts }).heap s =
        some { b with pkts := pkts } := by
      simp [Sockets.modify, hb]
    have hstored : Emits (Bounded ctx.limit) st (st.modify s fun a => { a with pkts := pkts }) :=
      .refl rfl
    refine hstored.trans ?_
    unfold smartSocketRequest
    split
    · exact .refl rfl
    · dsimp only
      split
      · exact bounded_smartSocketFail s
      · split
        · exact .refl rfl
        · exact bounded_smartSocketDispatch hwf hcell hsmart hfit _
  unfold smartSocketEnqueue
  split
  · exact .refl rfl
  · split
    · exact hrequest _ _
    · split
      · exact bounded_smartSocketFail s
      · exact hrequest _ _

theorem bounded_peerEnqueue (h : WellFormed st) {q : SocketRef}
    (hfit : ∀ b, st.heap q = some b → b.kind = .smart → OpensFit ctx b) {data : Bytes}
    (hdata : FitsPeer ctx.limit st q data) :
    Emits (Bounded ctx.limit) st (peerEnqueue ctx st q data).2 := by
  unfold peerEnqueue
  split
  next hsmart =>
      have hcalled : Emits (Bounded ctx.limit) st (st.record (.enqueueCalled q data)) :=
        bounded_record trivial
      have hwf : WellFormed (st.record (.enqueueCalled q data)) := h.congr rfl rfl rfl ⟨rfl, rfl⟩
      obtain ⟨b, hb, hkind⟩ : ∃ b, st.heap q = some b ∧ b.kind = .smart := by
        simpa [Sockets.kindOf] using hsmart
      exact hcalled.trans (bounded_smartSocketEnqueue hwf hb hkind (hfit b hb hkind) data)
  · exact bounded_asocketEnqueue hdata

end Smart

section Events

variable {ctx : ServiceContext}

theorem length_readLoop (lastZero : Bool) (script : List ReadResult) (avail : Nat) :
    (readLoop lastZero script avail).bytes.length ≤ avail := by
  induction lastZero, script, avail using readLoop.induct with
  | case4 lastZero b bs script avail chunk ih =>
      rw [readLoop]
      have hchunk : chunk.length ≤ avail + 1 := List.length_take_le _ _
      simp only [List.length_append]
      show chunk.length + (readLoop false script (avail + 1 - chunk.length)).bytes.length ≤ avail + 1
      omega
  | _ => simp [readLoop]

theorem bounded_closeAtEof (s : SocketRef) (lastZero isEof : Bool) :
    Emits (Bounded limit) st (closeAtEof st s lastZero isEof) := by
  unfold closeAtEof
  split
  · exact .refl rfl
  · split
    · exact bounded_asocketClose s
    · exact .refl rfl

/-- What is read from the socket goes to a smart socket only while that can keep
to the limits. -/
def RequestFits (ctx : ServiceContext) (st : Sockets) (s : SocketRef) : Prop :=
  ∀ q b, st.peerOf s = some q → st.heap q = some b → b.kind = .smart → OpensFit ctx b

theorem bounded_localSocketReadEvent (h : WellFormed st) {s : SocketRef}
    (hfit : RequestFits ctx st s) :
    Emits (Bounded ctx.limit) st (localSocketReadEvent ctx st s) := by
  have hread : ∀ out, Emits (Bounded ctx.limit) st (st.afterRead s out) :=
    fun out => .single rfl trivial
  unfold localSocketReadEvent
  split
  · exact .refl rfl
  next a ha =>
      dsimp only
      split
      · exact (hread _).trans (bounded_closeAtEof s _ _)
      next q hq =>
          have hpeer : st.peerOf s = some q := peerOf_eq_some.mpr ⟨a, ha, hq⟩
          split
          · exact (hread _).trans (bounded_closeAtEof s _ _)
          · have hfits := fitsPeer_of_getMaxPayload hpeer
              (length_readLoop true st.readScript (getMaxPayload ctx.limit st s))
            generalize readLoop true st.readScript (getMaxPayload ctx.limit st s) = out at hfits ⊢
            have hhanded : Emits (Bounded ctx.limit) st
                ((st.afterRead s out).record (.handedOver s out.bytes)) :=
              (hread out).trans (bounded_record trivial)
            have hwf : WellFormed ((st.afterRead s out).record (.handedOver s out.bytes)) :=
              h.congr rfl rfl rfl ⟨rfl, rfl⟩
            have henqueued := hhanded.trans (bounded_peerEnqueue hwf (hfit q · hpeer) hfits)
            generalize peerEnqueue ctx ((st.afterRead s out).record (.handedOver s out.bytes)) q
              out.bytes = result at henqueued ⊢
            obtain ⟨r, st'⟩ := result
            dsimp only
            split
            · exact henqueued
            · split
              · split
                · exact henqueued.trans (.refl rfl)
                · refine henqueued.trans (Emits.trans ?_ (bounded_closeAtEof s _ _))
                  exact .refl rfl
              · exact henqueued.trans (bounded_closeAtEof s _ _)

theorem bounded_localSocketWriteEvent (h : WellFormed st) (s : SocketRef) :
    Emits (Bounded ctx.limit) st (localSocketWriteEvent ctx st s).2 := by
  unfold localSocketWriteEvent
  split
  · exact .refl rfl
  next a ha =>
      dsimp only
      have hdrained : Emits (Bounded ctx.limit) st
          ((st.afterWrite s (drain st.writeScript a.pkts)).modify s fun b =>
            { b with pkts := (drain st.writeScript a.pkts).rest }) :=
        .single rfl trivial
      split
      · exact hdrained
      · refine bounded_close_after ?_ s
        exact hdrained.trans (.single rfl trivial)
      next hdone =>
          split
          · exact bounded_close_after hdrained s
          · split
            · exact hdrained.trans (.refl rfl)
            next q hq =>
                have hunset : Emits (Bounded ctx.limit) st
                    (((st.afterWrite s (drain st.writeScript a.pkts)).modify s fun b =>
                      { b with pkts := (drain st.writeScript a.pkts).rest }).modify s fun b =>
                        { b with fde := fdeventDel b.fde .fdeWrite }) :=
                  hdrained.trans (.refl rfl)
                refine hunset.trans (bounded_asocketReady ctx ?_ q)
                have hok := h.socket s a ha
                have hwf : WellFormed (st.afterWrite s (drain st.writeScript a.pkts)) :=
                  h.congr rfl rfl rfl ⟨rfl, rfl⟩
                rw [modify_modify]
                refine hwf.modify ha (.of_kind rfl rfl rfl rfl ?_ (hok.fde.fdeventDel _)
                  hok.transport)
                intro _ hpkts
                exact absurd (drain_rest_of_done hdone) hpkts

end Events

section Tame

/-- No socket has got another peer, and none has become a remote or a smart
socket. -/
structure Tame (st st' : Sockets) : Prop where
  peer : ∀ p, st'.peerOf p = st.peerOf p ∨ st'.peerOf p = none
  cell : ∀ p b, st'.heap p = some b → ∃ a, st.heap p = some a ∧
    b.transport = a.transport ∧ (b.kind = a.kind ∨ b.kind = .localSocket)

theorem Tame.of_heap {st' : Sockets} (h : st'.heap = st.heap) : Tame st st' := by
  constructor
  · intro p
    exact .inl (by rw [Sockets.peerOf, Sockets.peerOf, h])
  · intro p b hb
    exact ⟨b, h ▸ hb, rfl, .inl rfl⟩

theorem Tame.trans {st₁ st₂ st₃ : Sockets} (h₁ : Tame st₁ st₂) (h₂ : Tame st₂ st₃) :
    Tame st₁ st₃ := by
  constructor
  · intro p
    rcases h₂.peer p with hp | hp
    · rw [hp]
      exact h₁.peer p
    · exact .inr hp
  · intro p c hc
    obtain ⟨b, hb, htransport, hkind⟩ := h₂.cell p c hc
    obtain ⟨a, ha, htransport', hkind'⟩ := h₁.cell p b hb
    refine ⟨a, ha, htransport.trans htransport', ?_⟩
    rcases hkind with hkind | hkind
    · rw [hkind]
      exact hkind'
    · exact .inr hkind

theorem tame_modify (s : SocketRef) {f : Asocket → Asocket} (hpeer : ∀ a, (f a).peer = a.peer)
    (htransport : ∀ a, (f a).transport = a.transport)
    (hkind : ∀ a, (f a).kind = a.kind ∨ (f a).kind = .localSocket) :
    Tame st (st.modify s f) := by
  constructor
  · intro p
    left
    by_cases hp : p = s
    · subst hp
      exact peerOf_modify_self fun a _ => hpeer a
    · simp [Sockets.peerOf, Sockets.modify, hp]
  · intro p b hb
    by_cases hp : p = s
    · subst hp
      obtain ⟨a, ha, rfl⟩ : ∃ a, st.heap p = some a ∧ f a = b := by
        simpa [Sockets.modify] using hb
      exact ⟨a, ha, htransport a, hkind a⟩
    · exact ⟨b, by simpa [Sockets.modify, hp] using hb, rfl, .inl rfl⟩

theorem tame_asocketClose (h : WellFormed st) (s : SocketRef) : Tame st (asocketClose st s) := by
  cases hs : st.heap s with
  | none =>
      apply Tame.of_heap
      simp [asocketClose, asocketCloseFuel, hs, Sockets.halt]
  | some a =>
      have hclosed := h.asocketClose_closed hs
      constructor
      · intro p
        rw [Sockets.peerOf, hclosed.heap]
        split
        · right
          cases hr : (st.heap p).bind remains with
          | none => rfl
          | some r =>
              obtain ⟨b, -, hbr⟩ := Option.bind_eq_some_iff.mp hr
              obtain ⟨-, -, -, -, rfl⟩ := remains_eq_some hbr
              rfl
        · exact .inl rfl
      · intro p r hr
        rw [hclosed.heap] at hr
        split at hr
        · obtain ⟨b, hb, hbr⟩ := Option.bind_eq_some_iff.mp hr
          obtain ⟨-, -, -, -, rfl⟩ := remains_eq_some hbr
          exact ⟨b, hb, rfl, .inr rfl⟩
        · exact ⟨r, hr, rfl, .inl rfl⟩

theorem tame_asocketEnqueue (h : WellFormed st) (q : SocketRef) (data : Bytes) :
    Tame st (asocketEnqueue st q data).2 := by
  have hlocal : ∀ {st : Sockets}, WellFormed st → Tame st (localSocketEnqueue st q data).2 := by
    intro st h
    have hwrote : Tame st (st.afterWrite q (writeAll st.writeScript data)) := .of_heap rfl
    unfold localSocketEnqueue
    split
    · exact .of_heap rfl
    next a ha =>
        split
        · dsimp only
          split
          · exact hwrote
          · have hwf : WellFormed (((st.afterWrite q (writeAll st.writeScript data)).record
                (.fdWriteFailed q)).modify q fun a => { a with hasWriteError := true }) := by
              have hrecorded : WellFormed ((st.afterWrite q (writeAll st.writeScript data)).record
                  (.fdWriteFailed q)) := h.congr rfl rfl rfl ⟨rfl, rfl⟩
              have hok := h.socket q a ha
              exact hrecorded.modify ha (.of_kind rfl rfl rfl rfl hok.queue hok.fde hok.transport)
            refine Tame.trans ?_ (tame_asocketClose hwf q)
            have hrecorded : Tame st ((st.afterWrite q (writeAll st.writeScript data)).record
                (.fdWriteFailed q)) := .of_heap rfl
            exact hrecorded.trans (tame_modify q (fun _ => rfl) (fun _ => rfl) fun _ => .inl rfl)
          · exact hwrote.trans (tame_modify q (fun _ => rfl) (fun _ => rfl) fun _ => .inl rfl)
        · exact tame_modify q (fun _ => rfl) (fun _ => rfl) fun _ => .inl rfl
  have hwf : WellFormed (st.record (.enqueueCalled q data)) := h.congr rfl rfl rfl ⟨rfl, rfl⟩
  have hcalled : Tame st (st.record (.enqueueCalled q data)) := .of_heap rfl
  refine hcalled.trans ?_
  unfold asocketEnqueue
  dsimp only
  split
  · exact hlocal hwf
  · exact hlocal hwf
  · unfold remoteSocketEnqueue
    split
    · exact .of_heap rfl
    · exact .of_heap (sendOn_heap _ _)
  · unfold jdwpSocketEnqueue
    split
    · exact .of_heap rfl
    · exact tame_asocketClose hwf _
  · unfold jdwpSocketEnqueue
    split
    · exact .of_heap rfl
    · exact tame_asocketClose hwf _
  · exact tame_asocketClose hwf q
  · exact .of_heap rfl
  · exact .of_heap rfl

theorem tame_deviceTrackerSend (h : WellFormed st) (s : SocketRef) (list : Bytes) :
    Tame st (deviceTrackerSend st s list) := by
  unfold deviceTrackerSend
  split
  · exact .of_heap rfl
  · exact tame_asocketEnqueue h _ _

theorem tame_asocketReady (ctx : ServiceContext) (h : WellFormed st) (s : SocketRef) :
    Tame st (asocketReady ctx st s) := by
  have hcalled : Tame st (st.record (.readyCalled s)) := .of_heap rfl
  have hwf : WellFormed (st.record (.readyCalled s)) := h.congr rfl rfl rfl ⟨rfl, rfl⟩
  refine hcalled.trans ?_
  unfold asocketReady
  dsimp only
  generalize st.record (.readyCalled s) = st₁ at hwf ⊢
  split
  · exact .of_heap rfl
  · exact tame_modify s (fun _ => rfl) (fun _ => rfl) fun _ => .inl rfl
  · have hkind : Tame st₁ (st₁.modify s fun a => { a with kind := .localSocket }) := by
      apply tame_modify
      · intro a
        rfl
      · intro a
        rfl
      · intro a
        exact .inr rfl
    have hreplied : Tame st₁ ((st₁.modify s fun a => { a with kind := .localSocket }).reply s
        .okay) := hkind.trans (.of_heap rfl)
    exact hreplied.trans (tame_modify s (fun _ => rfl) (fun _ => rfl) fun _ => .inl rfl)
  · unfold remoteSocketReady
    split
    · exact .of_heap rfl
    · exact .of_heap (sendOn_heap _ _)
  · exact .of_heap rfl
  · unfold jdwpSocketReady
    split
    · exact .of_heap rfl
    · split
      · exact .of_heap rfl
      · split
        · exact tame_asocketClose hwf _
        · exact (tame_asocketEnqueue hwf _ _).trans
            (tame_modify s (fun _ => rfl) (fun _ => rfl) fun _ => .inl rfl)
  · unfold jdwpTrackerReady
    split
    · exact .of_heap rfl
    next a ha =>
        split
        · split
          · exact .of_heap rfl
          · have hmarked : Tame st₁ (st₁.modify s fun a => { a with needInitial := false }) :=
              tame_modify s (fun _ => rfl) (fun _ => rfl) fun _ => .inl rfl
            have hok := hwf.socket s a ha
            have hwf' : WellFormed (st₁.modify s fun a => { a with needInitial := false }) :=
              hwf.modify ha (.of_kind rfl rfl rfl rfl hok.queue hok.fde hok.transport)
            dsimp only
            split
            · exact hmarked.trans (.of_heap rfl)
            · exact hmarked.trans (tame_asocketEnqueue hwf' _ _)
        · exact .of_heap rfl
  · unfold deviceTrackerReady
    split
    · exact .of_heap rfl
    next a ha =>
        split
        · have hmarked : Tame st₁ (st₁.modify s fun a => { a with updateNeeded := false }) :=
            tame_modify s (fun _ => rfl) (fun _ => rfl) fun _ => .inl rfl
          have hok := hwf.socket s a ha
          have hwf' : WellFormed (st₁.modify s fun a => { a with updateNeeded := false }) :=
            hwf.modify ha (.of_kind rfl rfl rfl rfl hok.queue hok.fde hok.transport)
          exact hmarked.trans (tame_deviceTrackerSend hwf' s _)
        · exact .of_heap rfl

end Tame

section Callbacks

variable {ctx : ServiceContext} {s : SocketRef} {a : Asocket}

theorem RequestFits.of_tame {st' : Sockets} (h : RequestFits ctx st s) (htame : Tame st st') :
    RequestFits ctx st' s := by
  intro q b hq hb hsmart
  rcases htame.peer s with hp | hp
  · obtain ⟨c, hc, htransport, hkind⟩ := htame.cell q b hb
    rw [hsmart] at hkind
    simp only [reduceCtorEq, or_false] at hkind
    have hfit := h q c (hp ▸ hq) hc hkind.symm
    exact ⟨fun t ht => hfit.1 t (htransport ▸ ht), hfit.2⟩
  · simp [hp] at hq

theorem bounded_localSocketEventFunc (h : WellFormed st) (hs : st.heap s = some a)
    (hlocal : SocketKind.isLocal a.kind = true) (hfit : RequestFits ctx st s)
    (ev : EventMask) : Emits (Bounded ctx.limit) st (localSocketEventFunc ctx st s ev) := by
  unfold localSocketEventFunc
  cases hwrite : ev.write with
  | false =>
      simp only [Bool.false_eq_true, if_false, Bool.true_and]
      split
      · exact bounded_localSocketReadEvent h hfit
      · exact .refl rfl
  | true =>
      simp only [if_true]
      have hbounded : Emits (Bounded ctx.limit) st (localSocketWriteEvent ctx st s).2 :=
        bounded_localSocketWriteEvent h s
      split
      next hgo =>
          simp only [Bool.and_eq_true] at hgo
          refine hbounded.trans ?_
          -- The write part has only told the peer to resume.
          obtain ⟨q, -, -, hrest, heq⟩ := localSocketWriteEvent_goesOn ctx hs hgo.1
          have hcallback : Callback (fun _ => True) (fun _ => True) (fun _ => True) st
              (localSocketWriteEvent ctx st s).2 :=
            callback_localSocketWriteEvent ctx h hs hlocal
          have hdrained : Callback (fun _ => True) (fun _ => True) (fun _ => True) st
              (afterDrain st s a) := callback_afterDrain hs hlocal hrest
          have htame : Tame st (afterDrain st s a) := by
            have hwrote : Tame st (st.afterWrite s (drain st.writeScript a.pkts)) := .of_heap rfl
            have hrest : Tame st ((st.afterWrite s (drain st.writeScript a.pkts)).modify s fun b =>
                { b with pkts := (drain st.writeScript a.pkts).rest }) :=
              hwrote.trans (tame_modify s (fun _ => rfl) (fun _ => rfl) fun _ => .inl rfl)
            exact hrest.trans (tame_modify s (fun _ => rfl) (fun _ => rfl) fun _ => .inl rfl)
          apply bounded_localSocketReadEvent (hcallback.wellFormed h)
          apply hfit.of_tame
          rw [heq]
          exact htame.trans (tame_asocketReady ctx (hdrained.wellFormed h) q)
      · exact hbounded

theorem bounded_dispatchSocket (h : WellFormed st) (hs : st.heap s = some a)
    (hlocal : SocketKind.isLocal a.kind = true) (hfit : RequestFits ctx st s) :
    Emits (Bounded ctx.limit) st (dispatchSocket ctx st s) := by
  unfold dispatchSocket
  simp only [hs]
  have htaken : Emits (Bounded ctx.limit) st
      (st.modify s fun a => { a with fde := fdeventTake a.fde }) := .refl rfl
  have hok := h.socket s a hs
  have hwf : WellFormed (st.modify s fun a => { a with fde := fdeventTake a.fde }) :=
    h.modify hs (.of_kind rfl rfl rfl rfl hok.queue hok.fde.fdeventTake hok.transport)
  have hcell : (st.modify s fun a => { a with fde := fdeventTake a.fde }).heap s =
      some { a with fde := fdeventTake a.fde } := by
    simp [Sockets.modify, hs]
  refine htaken.trans (bounded_localSocketEventFunc hwf hcell hlocal ?_ _)
  exact hfit.of_tame (tame_modify s (fun _ => rfl) (fun _ => rfl) fun _ => .inl rfl)

theorem bounded_subprocExited (h : WellFormed st) (hs : st.heap s = some a)
    (hlocal : SocketKind.isLocal a.kind = true) (hfit : RequestFits ctx st s)
    (unread : Bool) : Emits (Bounded ctx.limit) st (subprocExited ctx st s unread) := by
  unfold subprocExited
  simp only [hs]
  split
  · exact .refl rfl
  · split
    · exact .refl rfl
    · rw [modify_modify]
      have hfaked : Emits (Bounded ctx.limit) st (st.modify s fun a => { a with
          fde := { a.fde with
            forceEof := true, events := a.fde.events.union .fdeRead, pending := true } }) :=
        .refl rfl
      have hok := h.socket s a hs
      have hsound : Fdevent.Sound { a.fde with
          forceEof := true, events := a.fde.events.union .fdeRead, pending := true } := by
        refine ⟨fun hw => hok.fde.writeWanted ?_, by simp⟩
        simpa [EventMask.union, EventMask.fdeRead, EventMask.empty] using hw
      have hwf : WellFormed (st.modify s fun a => { a with
          fde := { a.fde with
            forceEof := true, events := a.fde.events.union .fdeRead, pending := true } }) :=
        h.modify hs (.of_kind rfl rfl rfl rfl hok.queue hsound hok.transport)
      have hcell : (st.modify s fun a => { a with
          fde := { a.fde with
            forceEof := true, events := a.fde.events.union .fdeRead, pending := true } }).heap s =
          some { a with
            fde := { a.fde with
              forceEof := true, events := a.fde.events.union .fdeRead, pending := true } } := by
        simp [Sockets.modify, hs]
      refine hfaked.trans (bounded_dispatchSocket hwf hcell hlocal ?_)
      exact hfit.of_tame (tame_modify s (fun _ => rfl) (fun _ => rfl) fun _ => .inl rfl)

theorem bounded_listenerEventFunc (l : Alistener)
    (hlimit : ∀ t, l.transport = some t → ctx.limit t ≠ 0) :
    Emits (Bounded ctx.limit) st (listenerEventFunc ctx st l) := by
  unfold listenerEventFunc
  have hcreated : Emits (Bounded ctx.limit) st ((createLocalSocket st).2.modify
      (createLocalSocket st).1 fun a => { a with transport := l.transport }) := .refl rfl
  have hcell := (@hostSocket_createLocalSocket st).cell
  refine hcreated.trans (bounded_connectToRemote ?_ _)
  have hset : ((createLocalSocket st).2.modify (createLocalSocket st).1 fun a =>
      { a with transport := l.transport }).heap (createLocalSocket st).1 =
        some { Asocket.blank .localSocket with
          id := st.localSocketNextId, transport := l.transport } := by
    rw [Sockets.modify, hcell]
    exact Function.update_self ..
  apply getMaxPayload_ne_zero
  · exact congrArg (Option.bind · Asocket.peer) hset
  · intro a t ha ht
    obtain rfl := Option.some.inj (hset.symm.trans ha)
    exact hlimit t ht

theorem bounded_ssListenerEventFunc (h : WellFormed st) :
    Emits (Bounded ctx.limit) st (ssListenerEventFunc ctx st) := by
  have hcreated : Effect true (fun _ => True) (fun _ => True) st (createLocalSocket st).2 :=
    effect_createLocalSocket trivial
  have hnew := @hostSocket_createLocalSocket st
  have hlinked : Effect true (fun _ => True) (fun _ => True) (createLocalSocket st).2
      (linkNew (createLocalSocket st).2 (createLocalSocket st).1 (.blank .smart)) :=
    effect_linkNew (hcreated.wellFormed h) hnew.cell (newSocket_blank (by simp)) rfl
      (by simp [Asocket.blank, Compatible]) rfl rfl (.inr (by simp [Asocket.blank]))
      (by simp [Asocket.blank]) (by simp [Asocket.blank])
      (by simp [Asocket.blank, SocketKind.isListed]) trivial trivial
  have hquiet : Emits (Bounded ctx.limit) st
      (linkNew (createLocalSocket st).2 (createLocalSocket st).1 (.blank .smart)) := .refl rfl
  exact hquiet.trans (bounded_asocketReady ctx (hlinked.wellFormed (hcreated.wellFormed h)) _)

/-- The new list fits the transports of the trackers that are connected. -/
def ListFits (limit : TransportRef → Nat) (st : Sockets) (pids : List Int) : Prop :=
  ∀ tracker ∈ st.jdwpTrackers, ∀ q, st.peerOf tracker = some q →
    FitsPeer limit st q (jdwpProcessListMsg pids 1024)

theorem FitsPeer.of_tame {st' : Sockets} {q : SocketRef} {data : Bytes}
    (h : FitsPeer limit st q data) (htame : Tame st st') : FitsPeer limit st' q data := by
  intro b t hb hkind ht
  obtain ⟨c, hc, htransport, hkind'⟩ := htame.cell q b hb
  rw [hkind] at hkind'
  simp only [reduceCtorEq, or_false] at hkind'
  exact h c t hc hkind'.symm (htransport ▸ ht)

theorem bounded_jdwpProcessListUpdated (h : WellFormed st)
    (hfit : ListFits ctx.limit st ctx.jdwpPids) :
    Emits (Bounded ctx.limit) st (jdwpProcessListUpdated ctx st) := by
  unfold jdwpProcessListUpdated
  unfold ListFits at hfit
  generalize st.jdwpTrackers = trackers at hfit ⊢
  induction trackers generalizing st with
  | nil => exact .refl rfl
  | cons tracker trackers ih =>
      rw [List.foldl_cons]
      cases hq : st.peerOf tracker with
      | none => exact ih h fun tr htr => hfit tr (List.mem_cons_of_mem _ htr)
      | some q =>
          have heffect : Effect true (fun _ => True) (fun _ => True) st
              (asocketEnqueue st q (jdwpProcessListMsg ctx.jdwpPids 1024)).2 :=
            effect_enqueue h hq _
          have htame := tame_asocketEnqueue h q (jdwpProcessListMsg ctx.jdwpPids 1024)
          refine (bounded_asocketEnqueue (hfit tracker List.mem_cons_self q hq)).trans ?_
          apply ih (heffect.wellFormed h)
          intro tr htr p hp
          rcases htame.peer tr with hsame | hnone
          · exact (hfit tr (List.mem_cons_of_mem _ htr) p (hsame ▸ hp)).of_tame htame
          · simp [hnone] at hp

end Callbacks

section Streams

variable {ctx : ServiceContext} {t : TransportRef}

theorem bounded_connectRemote (h : WellFormed st) {s : SocketRef} {a : Asocket}
    (hs : Connectable st s a) (remoteId : Nat) {st' : Sockets}
    (hnoted : Emits (Bounded ctx.limit) (connectRemote st s remoteId t) st')
    (hsame : st'.heap = (connectRemote st s remoteId t).heap ∧
      st'.localSocketList = (connectRemote st s remoteId t).localSocketList ∧
      st'.localSocketClosingList = (connectRemote st s remoteId t).localSocketClosingList ∧
      SameCounters (connectRemote st s remoteId t) st') :
    Emits (Bounded ctx.limit) st (asocketReady ctx st' s) := by
  have hconnected : Effect true (fun _ => True) (fun _ => True) st (connectRemote st s remoteId t) :=
    effect_connectRemote h hs trivial trivial remoteId trivial
  obtain ⟨-, -, -, htrace⟩ := connectRemote_cells h hs.cell remoteId t
  have hquiet : Emits (Bounded ctx.limit) st (connectRemote st s remoteId t) :=
    .single htrace trivial
  obtain ⟨hheap, hlist, hclosing, hcounters⟩ := hsame
  have hwf := (hconnected.wellFormed h).congr hheap hlist hclosing hcounters
  exact (hquiet.trans hnoted).trans (bounded_asocketReady ctx hwf s)

theorem bounded_handleOpen (h : WellFormed st) (p : Apacket) :
    Emits (Bounded ctx.limit) st (handleOpen ctx st t p) := by
  unfold handleOpen
  split
  · exact bounded_sendPacket t (bounded_of_command (by simp) (by simp))
  next s st₁ hservice =>
      obtain ⟨hcreated, a, hs⟩ : Effect true (fun _ => True) (fun _ => True) st st₁ ∧
          ∃ a, ServiceSocket st st₁ s a := createLocalServiceSocket_spec hservice h trivial
      have hquiet : Emits (Bounded ctx.limit) st st₁ := .refl hs.trace
      refine hquiet.trans (bounded_connectRemote (hcreated.wellFormed h) hs.connectable p.arg0
        (bounded_sendPacket t ?_) ⟨rfl, rfl, rfl, rfl, rfl⟩)
      exact bounded_of_command (by simp) (by simp)

theorem bounded_handleOkay (h : WellFormed st) (p : Apacket) :
    Emits (Bounded ctx.limit) st (handleOkay ctx st t p) := by
  unfold handleOkay
  split
  · exact bounded_sendPacket t (bounded_of_command (by simp) (by simp))
  next s hs =>
      split
      next hpeer =>
          obtain ⟨hmem, -⟩ := mem_list_of_findLocalSocket hs
          obtain ⟨a, ha, hlisted, hclosing⟩ := (h.listed s).mp hmem
          have hconnectable : Connectable st s a :=
            ⟨ha, by simpa [Sockets.peerOf, ha] using hpeer, hclosing, hlisted⟩
          exact bounded_connectRemote h hconnectable p.arg0 (.refl rfl) ⟨rfl, rfl, rfl, rfl, rfl⟩
      · split
        · exact bounded_asocketReady ctx h s
        · exact .refl rfl

theorem bounded_handleClse (p : Apacket) : Emits (Bounded limit) st (handleClse st t p) := by
  unfold handleClse
  split
  · exact .refl rfl
  · dsimp only
    split
    · exact .refl rfl
    · exact bounded_asocketClose _

theorem bounded_handleWrte (h : WellFormed st) (p : Apacket) :
    Emits (Bounded limit) st (handleWrte st t p) := by
  unfold handleWrte
  split
  · exact .refl rfl
  next s hs =>
      obtain ⟨a, ha, hlisted, -⟩ := (h.listed s).mp (mem_list_of_findLocalSocket hs).1
      have hfits : FitsPeer limit st s p.data := by
        intro b t' hb hkind
        obtain rfl := Option.some.inj (ha.symm.trans hb)
        simp [hkind, SocketKind.isListed] at hlisted
      have henqueued := bounded_asocketEnqueue hfits
      generalize asocketEnqueue st s p.data = out at henqueued ⊢
      obtain ⟨r, st'⟩ := out
      dsimp only
      split
      · refine henqueued.trans (bounded_sendPacket t ?_)
        exact bounded_of_command (by simp) (by simp)
      · exact henqueued

theorem bounded_handleStream (h : WellFormed st) (p : Apacket) :
    Emits (Bounded ctx.limit) st (handleStream ctx st t p) := by
  unfold handleStream
  split
  · exact bounded_handleOpen h p
  · exact bounded_handleOkay h p
  · exact bounded_handleClse p
  · exact bounded_handleWrte h p
  · exact .refl rfl

end Streams

section Server

variable {cfg : Config} {env : Oracle} {st : Server}

theorem bounded_closeAllSocketsFuel {st : Sockets} (rounds : Nat) (t : TransportRef) :
    Emits (Bounded limit) st (closeAllSocketsFuel rounds st t) := by
  induction rounds generalizing st with
  | zero => exact .refl rfl
  | succ rounds ih =>
      rw [closeAllSocketsFuel]
      split
      · exact .refl rfl
      · exact (bounded_asocketClose _).trans ih

theorem bounded_handleOffline (t : TransportRef) :
    Emits (Bounded limit) st.sockets (handleOffline st t).sockets := by
  rw [handleOffline_sockets]
  exact bounded_closeAllSocketsFuel _ t

theorem bounded_sendAuthRequest (t : TransportRef) :
    Emits (Bounded limit) st.sockets (sendAuthRequest env st t).sockets := by
  unfold sendAuthRequest
  split
  · exact .refl rfl
  · exact bounded_sendPacket t (bounded_of_command (by simp) (by simp))

theorem bounded_sendConnect (t : TransportRef) :
    Emits (Bounded limit) st.sockets (sendConnect cfg st t).sockets :=
  bounded_sendPacket t (bounded_of_command (by simp) (by simp))

theorem bounded_updateTransports (h : WellFormed st.sockets) (htrackers : TrackersOk st.sockets) :
    Emits (Bounded limit) st.sockets (updateTransports cfg env st).sockets := by
  unfold updateTransports
  split
  · have hlist := htrackers.device
    dsimp only
    generalize st.sockets = sockets at h hlist ⊢
    generalize sockets.deviceTrackerList = trackers at hlist ⊢
    induction trackers generalizing sockets with
    | nil => exact .refl rfl
    | cons tracker trackers ih =>
        rw [List.foldl_cons]
        have heffect : Effect true (fun _ => True) (fun _ => True) sockets
            (deviceTrackerSend sockets tracker env.deviceList) := effect_deviceTrackerSend h _ _
        have hfirst : Emits (Bounded limit) sockets
            (deviceTrackerSend sockets tracker env.deviceList) := by
          apply bounded_deviceTrackerSend
          intro q hq
          obtain ⟨a, ha, -⟩ := peerOf_eq_some.mp hq
          apply trackerLocal_of_wellFormed h tracker ?_ q hq
          simp [Sockets.kindOf, ha, (hlist tracker List.mem_cons_self).2 a ha]
        refine hfirst.trans (ih _ (heffect.wellFormed h) ?_)
        intro s hs
        exact kind_kept (fun _ _ hp hb => heffect.cell h hp hb) (heffect.counters h).1 rfl
          (hlist s (List.mem_cons_of_mem _ hs))
  · exact .refl rfl

theorem bounded_handleNewConnection (h : WellFormed st.sockets)
    (htrackers : TrackersOk st.sockets) (t : TransportRef) (p : Apacket) :
    Emits (Bounded limit) st.sockets (handleNewConnection cfg env st t p).sockets := by
  have hoffline : Emits (Bounded limit) st.sockets
      (if (st.transports t).connectionState ≠ .offline then
        handleOffline (setConnectionState st t .offline) t else st).sockets ∧
      Effect true (fun _ => True) (fun _ => True) st.sockets
      (if (st.transports t).connectionState ≠ .offline then
        handleOffline (setConnectionState st t .offline) t else st).sockets := by
    split
    · exact ⟨@bounded_handleOffline limit (setConnectionState st t .offline) t,
        @effect_handleOffline _ (setConnectionState st t .offline) h t⟩
    · exact ⟨.refl rfl, .refl⟩
  unfold handleNewConnection
  dsimp only
  generalize (if (st.transports t).connectionState ≠ .offline then
    handleOffline (setConnectionState st t .offline) t else st) = st₁ at hoffline ⊢
  obtain ⟨hquiet, heffect⟩ := hoffline
  refine hquiet.trans ?_
  have hwf := heffect.wellFormed h
  have htrackers₁ := htrackers.effect heffect h
  generalize hst₂ : (st₁.modifyTransport t fun a =>
    { a with
      protocolVersion := min (wordToInt p.arg0) aVersion
      maxPayload := min p.arg1 maxPayloadConst
      connectionState := bannerState p.data }) = st₂
  have hsockets : st₂.sockets = st₁.sockets := by
    rw [← hst₂]
    rfl
  rw [← hsockets] at hwf htrackers₁ ⊢
  split
  · exact @bounded_updateTransports limit cfg env (handleOnline st₂ t) hwf htrackers₁
  · split
    · have hsent : Effect true (fun _ => True) (fun _ => True) st₂.sockets
          (sendConnect cfg (handleOnline st₂ t) t).sockets := .send t (.inl rfl)
      exact (@bounded_sendConnect limit cfg (handleOnline st₂ t) t).trans
        (bounded_updateTransports (hsent.wellFormed hwf) (htrackers₁.effect hsent hwf))
    · have hsent : Effect true (fun _ => True) (fun _ => True) st₂.sockets
          (sendAuthRequest env st₂ t).sockets := effect_sendAuthRequest t
      exact (bounded_sendAuthRequest t).trans
        (bounded_updateTransports (hsent.wellFormed hwf) (htrackers₁.effect hsent hwf))

theorem bounded_handleAuth (t : TransportRef) (p : Apacket) :
    Emits (Bounded limit) st.sockets (handleAuth cfg env st t p).sockets := by
  have hunauthorized : (if (st.transports t).connectionState = .offline then
      setConnectionState st t .unauthorized else st).sockets = st.sockets := by
    split <;> rfl
  unfold handleAuth
  split
  · dsimp only
    generalize (if (st.transports t).connectionState = .offline then
      setConnectionState st t .unauthorized else st) = st₁ at hunauthorized ⊢
    split
    · rw [← hunauthorized]
      exact bounded_sendPacket t (bounded_of_command (by simp) (by simp))
    · rw [← hunauthorized]
      exact .refl rfl
  split
  · dsimp only
    split
    · exact bounded_sendPacket t (bounded_of_command (by simp) (by simp))
    · exact @bounded_sendAuthRequest limit env (st.modifyTransport t _) t
  split
  · rw [adbdAuthConfirmKey_sockets]
    exact .refl rfl
  · exact @bounded_handleOffline limit (setConnectionState st t .offline) t

theorem bounded_handlePacket (h : WellFormed st.sockets) (htrackers : TrackersOk st.sockets)
    (t : TransportRef) (p : Apacket) :
    Emits (Bounded fun t => (st.transports t).maxPayload) st.sockets
      (handlePacket cfg env st t p).sockets := by
  have hreceived : Emits (Bounded fun t => (st.transports t).maxPayload) st.sockets
      (st.sockets.record (.received t p)) := bounded_record trivial
  have hwf : WellFormed (st.sockets.record (.received t p)) := h.congr rfl rfl rfl ⟨rfl, rfl⟩
  have htrackers' : TrackersOk (st.sockets.record (.received t p)) :=
    ⟨htrackers.jdwp, htrackers.device⟩
  refine hreceived.trans ?_
  unfold handlePacket
  dsimp only
  generalize hst₁ : ({ st with sockets := st.sockets.record (.received t p) }.log
    (.received t p)) = st₁
  have hsockets : st₁.sockets = st.sockets.record (.received t p) := by
    rw [← hst₁]
    rfl
  have htransports : st.transports = st₁.transports := by
    rw [← hst₁]
    rfl
  rw [htransports]
  rw [← hsockets] at hwf htrackers' ⊢
  split
  next hcommand =>
      have hecho : ∀ {st : Server}, Emits (Bounded fun t => (st₁.transports t).maxPayload)
          st.sockets (st.send t p).sockets :=
        bounded_sendPacket t (bounded_of_command (by simp [hcommand]) (by simp [hcommand]))
      have hempty : ∀ {st : Server}, Emits (Bounded fun t => (st₁.transports t).maxPayload)
          st.sockets (st.send t { command := .other 0, arg0 := 0, arg1 := 0, data := [] }).sockets :=
        bounded_sendPacket t (bounded_of_command (by simp) (by simp))
      split
      · split
        · exact (hecho.trans hempty).trans (bounded_sendConnect t)
        · exact hecho
      · exact (@bounded_handleOffline _ (setConnectionState st₁ t .offline) t).trans hecho
  · exact bounded_handleNewConnection hwf htrackers' t p
  · exact bounded_handleAuth t p
  · split
    · exact @bounded_handleStream _ (serviceContext cfg env st₁) t hwf p
    · exact .refl rfl

end Server

section Runs

variable {cfg : Config} {st : Server} {l : Action × Oracle}

/-- The condition under which a callback keeps to the limits: a request that may
open a stream can be sent to transports with a limit other than zero only, and
a new process list fits the transports of its trackers. -/
def KeepsLimits (cfg : Config) (st : Server) : Action × Oracle → Prop
  | (.dispatch s, env) | (.subprocExited s _, env) =>
      RequestFits (serviceContext cfg env st) st.sockets s
  | (.accept r, _) => ∀ listener ∈ st.listeners, listener.ref = r →
      ∀ t, listener.transport = some t → (st.transports t).maxPayload ≠ 0
  | (.jdwpUpdated, env) =>
      ListFits (fun t => (st.transports t).maxPayload) st.sockets env.jdwpPids
  | _ => True

/-- The callback sends no `OPEN` and no `WRTE` with more data than
`get_max_payload` of its transport. -/
def SendsWithinLimits (cfg : Config) (st : Server) (l : Action × Oracle) : Prop :=
  Emits (Bounded fun t => (st.transports t).maxPayload) st.sockets (step cfg l.2 st l.1).sockets

theorem bounded_runSockets {env : Oracle} {f : ServiceContext → Sockets → Sockets}
    (hf : Emits (Bounded limit) st.sockets (f (serviceContext cfg env st) st.sockets)) :
    Emits (Bounded limit) st.sockets (runSockets cfg env st f).sockets :=
  hf.trans (.refl (listenerChange_runSockets f).sockets.trace)

theorem sendsWithinLimits_step (h : Settled st.sockets) (henabled : Enabled cfg st l.1)
    (hfit : KeepsLimits cfg st l) : SendsWithinLimits cfg st l := by
  obtain ⟨action, env⟩ := l
  have hwf : WellFormed (scripted env st) := h.wellFormed.congr rfl rfl rfl ⟨rfl, rfl⟩
  have htrackers : TrackersOk (scripted env st) := ⟨h.trackers.jdwp, h.trackers.device⟩
  have hscripted : Emits (Bounded fun t => (st.transports t).maxPayload) st.sockets
      (scripted env st) := .refl rfl
  refine hscripted.trans ?_
  cases action with
  | packet t p =>
      exact @bounded_handlePacket cfg env { st with sockets := scripted env st } hwf htrackers t p
  | poll s revents => exact .refl rfl
  | dispatch s =>
      obtain ⟨a, ha, hkind, -⟩ := henabled
      refine @bounded_runSockets _ cfg { st with sockets := scripted env st } env _ ?_
      rw [serviceContext_sockets]
      exact bounded_dispatchSocket hwf ha (isLocal_of_kind hkind) hfit
  | subprocExited s unread =>
      obtain ⟨-, a, ha, hkind⟩ := henabled
      refine @bounded_runSockets _ cfg { st with sockets := scripted env st } env _ ?_
      rw [serviceContext_sockets]
      exact bounded_subprocExited hwf ha (isLocal_of_kind hkind) hfit unread
  | accept r =>
      simp only [step]
      split
      · exact .refl rfl
      next listener hlistener =>
          have href : listener.ref = r := by simpa using List.find?_some hlistener
          exact @bounded_runSockets _ cfg { st with sockets := scripted env st } env _
            (bounded_listenerEventFunc listener
              (hfit listener (List.mem_of_find?_eq_some hlistener) href))
  | acceptSmart =>
      exact @bounded_runSockets _ cfg { st with sockets := scripted env st } env _
        (bounded_ssListenerEventFunc hwf)
  | jdwpUpdated =>
      exact @bounded_runSockets _ cfg { st with sockets := scripted env st } env _
        (bounded_jdwpProcessListUpdated hwf hfit)
  | register t state type =>
      exact @bounded_updateTransports _ cfg env
        ({ { st with sockets := scripted env st }.modifyTransport t (fun _ => .blank state type)
          with transportList := t :: st.transportList }.log (.created t)) hwf htrackers
  | remove t =>
      exact @bounded_updateTransports _ cfg env
        ({ st with
          sockets := scripted env st
          transportList := st.transportList.filter (· ≠ t) }.log (.deleted t)) hwf htrackers
  | reverseRequest service =>
      exact .refl (@listenerChange_applyForwardRequest cfg env
        { st with sockets := scripted env st } _).sockets.trace
  | frameworkConnect =>
      simp only [step, adbdAuthListener]
      split
      · split
        · exact @bounded_sendAuthRequest _ env { st with
            sockets := scripted env st
            frameworkConnected := true
            unanswered := []
            needsRetry := false } _
        · exact .refl rfl
      · exact .refl rfl
  | frameworkRead response answered =>
      simp only [step, adbdAuthEvent]
      split
      · exact .refl rfl
      split
      · split
        · exact bounded_sendPacket _ (bounded_of_command (by simp) (by simp))
        · exact .refl rfl
      · exact .refl rfl

/-- In every run whose callbacks meet the condition, every callback keeps to the
limits. -/
theorem run_sendsWithinLimits (cfg : Config) {labels : List (Action × Oracle)}
    (h : (serverSystem cfg).Executable (KeepsLimits cfg) .initial labels) :
    (serverSystem cfg).Executable (SendsWithinLimits cfg) .initial labels := by
  have hinitial : Settled Server.initial.sockets :=
    @settled_of_reachable cfg _ ⟨.initial, rfl, .refl⟩
  generalize Server.initial = st at h hinitial ⊢
  induction labels generalizing st with
  | nil => trivial
  | cons l labels ih =>
      obtain ⟨⟨henabled, hfit⟩, hrest⟩ := h
      exact ⟨⟨henabled, sendsWithinLimits_step hinitial henabled.2 hfit⟩,
        ih _ hrest (hinitial.next henabled.2)⟩

/-- The other end announces a limit of eight bytes, and a service of the device
has ten bytes to send. -/
def readWithLimit : List (Action × Oracle) :=
  [(.register 0 .offline .usb, {}),
    (.packet 0 { command := .aCnxn, arg0 := 0, arg1 := 8, data := ascii "host::" }, {}),
    (.packet 0 { command := .aOpen, arg0 := 7, arg1 := 0, data := ascii "tcp:5 " }, {}),
    (.poll 0 .readable, {}),
    (.dispatch 0, { reads := [.data [1, 2, 3, 4, 5, 6, 7, 8, 9, 10]] })]

theorem run_sendsWithinLimits_readWithLimit :
    .sent 0 { command := .aWrte, arg0 := 1, arg1 := 7, data := [1, 2, 3, 4, 5, 6, 7, 8] } ∈
        ((serverSystem (plainConfig false false)).execute .initial readWithLimit).sockets.trace ∧
      (serverSystem (plainConfig false false)).Executable
        (SendsWithinLimits (plainConfig false false)) .initial readWithLimit := by
  refine ⟨by decide, run_sendsWithinLimits (plainConfig false false) ?_⟩
  refine ⟨⟨by decide, trivial⟩, ⟨by decide, trivial⟩, ⟨by decide, trivial⟩, ⟨by decide, trivial⟩,
    ⟨by decide, ?_⟩, trivial⟩
  intro q b hq hb hsmart
  obtain rfl : 1 = q := Option.some.inj hq
  obtain rfl := Option.some.inj hb
  exact absurd hsmart (by decide)

theorem not_emits {P : Event → Prop} {st st' : Sockets} {e : Event} (hnew : e ∈ st'.trace)
    (hold : e ∉ st.trace) (he : ¬ P e) : ¬ Emits P st st' := by
  rintro ⟨events, htrace, hevents⟩
  rw [htrace] at hnew
  rcases List.mem_append.mp hnew with hmem | hmem
  · exact hold hmem
  · exact he (hevents e hmem)

/-- A host connects a process tracker over a transport with a limit of eight
bytes. -/
def trackWithLimit : List (Action × Oracle) :=
  [(.register 0 .offline .usb, {}),
    (.packet 0 { command := .aCnxn, arg0 := 0, arg1 := 8, data := ascii "host::" }, {}),
    (.packet 0 { command := .aOpen, arg0 := 7, arg1 := 0, data := ascii "track-jdwp " }, {})]

/-- The process list then has three entries. -/
def threeProcesses : Action × Oracle := (.jdwpUpdated, { jdwpPids := [100, 200, 300] })

def threeProcessesPacket : Apacket where
  command := .aWrte
  arg0 := 1
  arg1 := 7
  data := ascii "000c100" ++ [10] ++ ascii "200" ++ [10] ++ ascii "300" ++ [10]

/-- A client of the host forwards a port to the only device, which has announced
a limit of zero. -/
def forwardWithoutLimit : List (Action × Oracle) :=
  [(.register 0 .offline .usb, {}),
    (.packet 0 { command := .aCnxn, arg0 := 0, arg1 := 0, data := ascii "device::" }, {}),
    (.acceptSmart, {}),
    (.poll 0 .readable, {}),
    (.dispatch 0,
      { reads := [.data (ascii "0018host:forward:tcp:1;tcp:2")], listen := some 0 })]

/-- The forwarded port is connected to. -/
def forwardedConnection : Action × Oracle := (.accept 0, {})

def forwardedPacket : Apacket where
  command := .aOpen
  arg0 := 2
  arg1 := 0
  data := ascii "tcp:2" ++ [0]

/-- The update of a process list, and the first message of a forwarded
connection, are longer than the limit. -/
theorem limits_exceeded :
    ((serverSystem (plainConfig false false)).Executable (fun _ _ => True) .initial
        (trackWithLimit.append [threeProcesses]) ∧
      ¬ SendsWithinLimits (plainConfig false false)
        ((serverSystem (plainConfig false false)).execute .initial trackWithLimit)
        threeProcesses) ∧
    ((serverSystem (plainConfig true false)).Executable (fun _ _ => True) .initial
        (forwardWithoutLimit.append [forwardedConnection]) ∧
      ¬ SendsWithinLimits (plainConfig true false)
        ((serverSystem (plainConfig true false)).execute .initial forwardWithoutLimit)
        forwardedConnection) := by
  constructor
  · refine ⟨by decide, not_emits (e := .sent 0 threeProcessesPacket) ?_ ?_ ?_⟩
    · decide
    · decide
    · decide
  · refine ⟨by decide, not_emits (e := .sent 0 forwardedPacket) ?_ ?_ ?_⟩
    · decide
    · decide
    · decide

end Runs

end Adb.PayloadBounds
