import Adb.GraphInvariants
import Adb.ListenerRegistration
import Adb.AuthEffects
import Adb.TransportIsolation
import Mathlib.Data.List.Nodup
import Mathlib.Data.List.Perm.Subperm

/-!
What refers to a transport.  Once it has gone offline nothing does, and this
stays so until its next packet.
-/

namespace Adb.OfflineTransports

open Adb.DescriptorIo
open Adb.WirePackets
open Adb.SocketTable
open Adb.SocketEvents
open Adb.SocketOperations
open Adb.SocketClosing
open Adb.SocketGraph
open Adb.SocketEffects
open Adb.CallbackEffects
open Adb.AuthEffects
open Adb.GraphInvariants
open Adb.ListenerRegistration
open Adb.ServerState
open Adb.ServerRuns
open Adb.ServerEffects
open Adb.TransitionSystems
open Adb.TransportIsolation

/-! ### The sockets -/

/-- No socket of the list belongs to the transport. -/
def Unreferred (st : Sockets) (t : TransportRef) : Prop :=
  ∀ s ∈ st.localSocketList, ¬ Belongs st s t

section Sockets

variable {st st' : Sockets} {t : TransportRef}

theorem Unreferred.of_cells (h : Unreferred st t)
    (hlist : ∀ s ∈ st'.localSocketList, s ∈ st.localSocketList)
    (hcells : ∀ s ∈ st'.localSocketList, ∀ a', st'.heap s = some a' →
      ∃ a, st.heap s = some a ∧ (a'.transport = some t → a.transport = some t) ∧
        ∀ q b', a'.peer = some q → st'.heap q = some b' → b'.transport = some t →
          a.peer = some q ∧ ∃ b, st.heap q = some b ∧ b.transport = some t) :
    Unreferred st' t := by
  intro s hs hbelongs
  obtain ⟨a', ha', hrefers⟩ := hbelongs
  obtain ⟨a, ha, hown, hpeer⟩ := hcells s hs a' ha'
  refine h s (hlist s hs) ⟨a, ha, ?_⟩
  rcases hrefers with htransport | ⟨q, b', hq, hb', hbt⟩
  · exact .inl (hown htransport)
  · obtain ⟨hq', b, hb, hbt'⟩ := hpeer q b' hq hb' hbt
    exact .inr ⟨q, b, hq', hb, hbt'⟩

theorem Unreferred.congr (h : Unreferred st t) (hheap : st'.heap = st.heap)
    (hlist : st'.localSocketList = st.localSocketList) : Unreferred st' t := by
  intro s hs
  rw [hlist] at hs
  rw [Belongs, hheap]
  exact h s hs

theorem Unreferred.modify (h : Unreferred st t) {s : SocketRef} {a : Asocket}
    {f : Asocket → Asocket} (hs : st.heap s = some a) (hpeer : (f a).peer = a.peer)
    (htransport : (f a).transport = some t → a.transport = some t) :
    Unreferred (st.modify s f) t := by
  have hcell : ∀ p b', (st.modify s f).heap p = some b' → ∃ b, st.heap p = some b ∧
      b'.peer = b.peer ∧ (b'.transport = some t → b.transport = some t) := by
    intro p b' hb'
    by_cases hp : p = s
    · subst hp
      obtain rfl : f a = b' := by simpa [Sockets.modify, hs] using hb'
      exact ⟨a, hs, hpeer, htransport⟩
    · exact ⟨b', by simpa [Sockets.modify, hp] using hb', rfl, id⟩
  refine h.of_cells (fun _ => id) ?_
  intro p _ a' ha'
  obtain ⟨b, hb, hpeer', htransport'⟩ := hcell p a' ha'
  refine ⟨b, hb, htransport', ?_⟩
  intro q c' hq hc' hct
  obtain ⟨c, hc, -, hct'⟩ := hcell q c' hc'
  exact ⟨hpeer' ▸ hq, c, hc, hct' hct⟩

theorem Unreferred.close (h : Unreferred st t) (hwf : WellFormed st) {s : SocketRef}
    {a : Asocket} (hs : st.heap s = some a) : Unreferred (asocketClose st s) t := by
  have hclosed := hwf.asocketClose_closed hs
  refine h.of_cells (fun p hp => ((hclosed.listed p).mp hp).1) ?_
  intro p hp b' hb'
  obtain ⟨-, hout⟩ := (hclosed.listed p).mp hp
  rw [hclosed.heap, if_neg hout] at hb'
  refine ⟨b', hb', id, ?_⟩
  intro q c' hq hc' hct
  obtain ⟨-, c, hc, hback, -⟩ := (hwf.socket p b' hb').peer q hq
  -- the peer of a socket outside the closed pair is outside of it too
  have hqout : q ∉ withPeer st s := by
    intro hmem
    refine hout ?_
    rcases mem_withPeer.mp hmem with rfl | hpeer
    · exact mem_withPeer.mpr (.inr (peerOf_eq_some.mpr ⟨c, hc, hback⟩))
    · obtain ⟨a', ha', hpeer'⟩ := peerOf_eq_some.mp hpeer
      obtain ⟨-, c', hc', hback', -⟩ := (hwf.socket s a' ha').peer q hpeer'
      obtain rfl := Option.some.inj (hc.symm.trans hc')
      obtain rfl := Option.some.inj (hback.symm.trans hback')
      exact self_mem_withPeer st p
  rw [hclosed.heap, if_neg hqout] at hc'
  exact ⟨hq, c', hc', hct⟩

theorem unreferred_of_refers (h : Unreferred st t) (hwf : WellFormed st) {s : SocketRef}
    (hactive : Active st s) : ¬ Refers st s t := by
  rintro ⟨a, ha, hlisted, hrefers⟩
  exact h s ((hwf.listed s).mpr ⟨a, ha, hlisted, hactive a ha⟩) ⟨a, ha, hrefers⟩

theorem Unreferred.allocate (h : Unreferred st t) (hwf : WellFormed st) (a : Asocket) :
    Unreferred (st.allocate a).2 t := by
  refine h.of_cells (fun _ => id) ?_
  intro s hs b' hb'
  obtain ⟨b, hb, -, -⟩ := (hwf.listed s).mp hs
  have hfresh := (hwf.socket s b hb).fresh
  obtain rfl : b = b' := by
    simpa [Sockets.allocate, Nat.ne_of_lt hfresh, hb] using hb'
  refine ⟨b, hb, id, ?_⟩
  intro q c' hq hc' hct
  obtain ⟨-, c, hc, -, -⟩ := (hwf.socket s b hb).peer q hq
  obtain rfl : c = c' := by
    simpa [Sockets.allocate, Nat.ne_of_lt (hwf.socket q c hc).fresh, hc] using hc'
  exact ⟨hq, c, hc, hct⟩

theorem Unreferred.install (h : Unreferred st t) (hwf : WellFormed st) {a : Asocket}
    (hpeer : a.peer = none) (htransport : a.transport = none) :
    Unreferred (installLocalSocket (st.allocate a).2 st.nextRef) t := by
  intro s hs hbelongs
  have hheap : ∀ p, p ≠ st.nextRef →
      (installLocalSocket (st.allocate a).2 st.nextRef).heap p = st.heap p := by
    intro p hp
    simp [installLocalSocket, Sockets.haltWhen, Sockets.modify, Sockets.allocate, hp]
  obtain ⟨b', hb', hrefers⟩ := hbelongs
  by_cases hnew : s = st.nextRef
  · subst hnew
    obtain rfl : { a with id := st.localSocketNextId } = b' := by
      simpa [installLocalSocket, Sockets.haltWhen, Sockets.modify, Sockets.allocate] using hb'
    simp [hpeer, htransport] at hrefers
  · have hmem : s ∈ st.localSocketList := by
      simpa [installLocalSocket, Sockets.haltWhen, Sockets.modify, Sockets.allocate, hnew] using hs
    rw [hheap s hnew] at hb'
    refine h s hmem ⟨b', hb', hrefers.imp_right ?_⟩
    rintro ⟨q, c', hq, hc', hct⟩
    obtain ⟨-, c, hc, -, -⟩ := (hwf.socket s b' hb').peer q hq
    rw [hheap q (Nat.ne_of_lt (hwf.socket q c hc).fresh)] at hc'
    exact ⟨q, c', hq, hc', hct⟩

variable {free : Bool} {T lossy drops : SocketRef → Prop} {R : TransportRef → Prop}

theorem Unreferred.effect (heffect : Effect free T R st st') (hwf : WellFormed st) (hR : ¬ R t)
    (h : Unreferred st t) : Unreferred st' t := by
  induction heffect with
  | same hsame => exact h.congr hsame.heap hsame.listed
  | note | send | track => exact h.congr rfl rfl
  | @update st s a f hs _ hf =>
      refine h.modify hs hf.respects.peer ?_
      intro htransport
      rcases hf.transport with hkept | ⟨t', ht', hRt'⟩
      · rw [← hkept, htransport]
      · obtain rfl := Option.some.inj (htransport.symm.trans ht')
        exact absurd hRt' hR
  | close hs _ _ => exact h.close hwf hs
  | allocate _ _ _ _ => exact h.allocate hwf _
  | install _ hnew _ htransport _ => exact h.install hwf hnew.peer htransport
  | @link st s q a b f g hs hq _ hlink =>
      have hs' : ((st.modify s f).modify q g).heap s = some (f a) := by
        simp [Sockets.modify, hlink.ne, hs]
      have hq' : ((st.modify s f).modify q g).heap q = some (g b) := by
        simp [Sockets.modify, hlink.ne.symm, hq]
      have hother : ∀ p, p ≠ s → p ≠ q → ((st.modify s f).modify q g).heap p = st.heap p := by
        intro p hps hpq
        simp [Sockets.modify, hps, hpq]
      have hnone : ¬ ((f a).transport = some t ∨ (g b).transport = some t) := by
        intro htransport
        rcases hlink.refers t htransport with hRt | hrefers | hrefers
        · exact hR hRt
        · refine unreferred_of_refers h hwf ?_ hrefers
          intro c hc
          obtain rfl := Option.some.inj (hs.symm.trans hc)
          exact hlink.closingLeft.1
        · refine unreferred_of_refers h hwf ?_ hrefers
          intro c hc
          obtain rfl := Option.some.inj (hq.symm.trans hc)
          exact hlink.closingRight.1
      intro p hp hbelongs
      obtain ⟨c, hc, hrefers⟩ := hbelongs
      by_cases hps : p = s
      · subst hps
        obtain rfl := Option.some.inj (hs'.symm.trans hc)
        rcases hrefers with hown | ⟨r, d, hr, hd, hdt⟩
        · exact hnone (.inl hown)
        · rcases hlink.link with ⟨hpeer, -⟩ | ⟨hpeer, -, -⟩
          · rw [hpeer] at hr
            cases hr
          · obtain rfl := Option.some.inj (hpeer.symm.trans hr)
            obtain rfl := Option.some.inj (hq'.symm.trans hd)
            exact hnone (.inr hdt)
      by_cases hpq : p = q
      · subst hpq
        obtain rfl := Option.some.inj (hq'.symm.trans hc)
        rcases hrefers with hown | ⟨r, d, hr, hd, hdt⟩
        · exact hnone (.inr hown)
        · rcases hlink.link with ⟨-, hpeer⟩ | ⟨-, hpeer, -⟩
          · rw [hpeer] at hr
            cases hr
          · obtain rfl := Option.some.inj (hpeer.symm.trans hr)
            obtain rfl := Option.some.inj (hs'.symm.trans hd)
            exact hnone (.inl hdt)
      · rw [hother p hps hpq] at hc
        refine h p hp ⟨c, hc, hrefers.imp_right ?_⟩
        rintro ⟨r, d, hr, hd, hdt⟩
        obtain ⟨-, e, he, hback, -⟩ := (hwf.socket p c hc).peer r hr
        -- the two cells of the link are nobody else's peers
        have hrs : r ≠ s := by
          rintro rfl
          obtain rfl := Option.some.inj (hs.symm.trans he)
          exact hpq (hlink.peerLeft p hback)
        have hrq : r ≠ q := by
          rintro rfl
          obtain rfl := Option.some.inj (hq.symm.trans he)
          exact hps (hlink.peerRight p hback)
        rw [hother r hrs hrq] at hd
        exact ⟨r, d, hr, hd, hdt⟩
  | trans h₁ _ ih₁ ih₂ => exact ih₂ (h₁.wellFormed hwf) (ih₁ hwf h)

theorem Unreferred.callback (hcallback : Callback lossy drops R st st') (hwf : WellFormed st)
    (hR : ¬ R t) (h : Unreferred st t) : Unreferred st' t := by
  induction hcallback with
  | effect heffect => exact h.effect heffect hwf hR
  | own hs hf => exact h.modify hs hf.peer fun ht => hf.transport ▸ ht
  | @drained st s a hs _ =>
      have h' : Unreferred (st.afterWrite s (drain st.writeScript a.pkts)) t := h.congr rfl rfl
      exact h'.modify hs rfl id
  | failed | readSilent | readHanded | received => exact h.congr rfl rfl
  | finish hs _ _ => exact h.close hwf hs
  | trans h₁ _ ih₁ ih₂ => exact ih₂ (h₁.wellFormed hwf) (ih₁ hwf h)

theorem length_asocketClose (hwf : WellFormed st) (hchecked : Checked st) {s : SocketRef}
    {a : Asocket} (hs : st.heap s = some a) (hmem : s ∈ st.localSocketList) :
    (asocketClose st s).localSocketList.length < st.localSocketList.length := by
  have hclosed := hwf.asocketClose_closed hs
  have hdistinct := (hchecked.close hwf s).lists.opened.distinct
  have hnodup : (asocketClose st s).localSocketList.Nodup :=
    List.Nodup.of_map _ (List.nodup_cons.mp hdistinct).2
  have hgone : s ∉ (asocketClose st s).localSocketList := by
    rw [hclosed.listed]
    rintro ⟨-, hnot⟩
    exact hnot (self_mem_withPeer st s)
  have hsubset : s :: (asocketClose st s).localSocketList ⊆ st.localSocketList := by
    rw [List.cons_subset]
    exact ⟨hmem, fun p hp => ((hclosed.listed p).mp hp).1⟩
  exact (List.subperm_of_subset (List.nodup_cons.mpr ⟨hgone, hnodup⟩) hsubset).length_le

/-- Enough rounds leave nothing of the transport on the list, whether or not the
process ends on the way. -/
theorem unreferred_closeAllSocketsFuel (hwf : WellFormed st) (hchecked : Checked st)
    (t : TransportRef) {rounds : Nat} (hrounds : st.localSocketList.length < rounds) :
    Unreferred (closeAllSocketsFuel rounds st t) t := by
  induction rounds generalizing st with
  | zero => cases hrounds
  | succ rounds ih =>
      rw [closeAllSocketsFuel]
      split
      · rename_i hnone
        intro s hs hbelongs
        refine List.find?_eq_none.mp hnone s hs ?_
        obtain ⟨a, ha, hrefers⟩ := hbelongs
        rcases hrefers with hown | ⟨q, b, hq, hb, hbt⟩
        · simp [ha, hown]
        · simp [ha, hq, hb, hbt]
      · rename_i s hfound
        have hmem := List.mem_of_find?_eq_some hfound
        obtain ⟨a, hs, -⟩ := (hwf.listed s).mp hmem
        have hshorter := length_asocketClose hwf hchecked hs hmem
        exact ih (hwf.asocketClose hs) (hchecked.close hwf s) (by omega)

end Sockets

/-! ### Listeners and `usb_transport` -/

/-- The events by which a transport joins and leaves the list. -/
def changesList : AuthEvent → Bool
  | .created _ | .deleted _ => true
  | _ => false

/-- Two servers with the same registrations. -/
structure SameHolders (st st' : Server) : Prop where
  state : ∀ t, (st'.transports t).connectionState = (st.transports t).connectionState
  disconnects : ∀ t, (st'.transports t).disconnects = (st.transports t).disconnects
  listeners : st'.listeners = st.listeners
  nextListener : st'.nextListener = st.nextListener
  usbTransport : st'.usbTransport = st.usbTransport
  transportList : st'.transportList = st.transportList
  listing : st'.authLog.filter changesList = st.authLog.filter changesList

/-- What a callback does to the registrations; it goes by the transports in `P`,
and the list of transports changes as the events in `N` say. -/
inductive Upkeep (cfg : Config) (P : TransportRef → Prop) (N : AuthEvent → Prop) :
    Server → Server → Prop where
  | same {st st' : Server} (h : SameHolders st st') : Upkeep cfg P N st st'
  | transport {st : Server} {t : TransportRef} {f : Atransport → Atransport} (hP : P t)
      (hf : ∀ a, (f a).disconnects = a.disconnects) : Upkeep cfg P N st (st.modifyTransport t f)
  | offline {st : Server} {t : TransportRef} (hP : P t) : Upkeep cfg P N st (handleOffline st t)
  | claim {st : Server} {t : TransportRef} (hP : P t) :
      Upkeep cfg P N st (addDisconnect { st with usbTransport := some t } t .usb)
  | forward {st : Server} (env : Oracle) (request : ForwardRequest) :
      Upkeep cfg P N st (applyForwardRequest cfg env st request)
  | register {st : Server} {t : TransportRef} (state : ConnectionState) (type : TransportType)
      (h : .created t ∉ st.authLog) (hN : N (.created t)) :
      Upkeep cfg P N st ({ st.modifyTransport t (fun _ => .blank state type) with
        transportList := t :: st.transportList }.log (.created t))
  | delete {st : Server} {t : TransportRef} (hN : N (.deleted t)) :
      Upkeep cfg P N st
        ({ st with transportList := st.transportList.filter (· ≠ t) }.log (.deleted t))
  | trans {st₁ st₂ st₃ : Server} (h₁ : Upkeep cfg P N st₁ st₂) (h₂ : Upkeep cfg P N st₂ st₃) :
      Upkeep cfg P N st₁ st₃

section Upkeep

variable {cfg : Config} {env : Oracle} {P : TransportRef → Prop} {N : AuthEvent → Prop}
  {st st' : Server} {t : TransportRef}

theorem SameHolders.refl : SameHolders st st :=
  ⟨fun _ => rfl, fun _ => rfl, rfl, rfl, rfl, rfl, rfl⟩

theorem SameHolders.mem (h : SameHolders st st') {e : AuthEvent} (he : changesList e = true) :
    e ∈ st'.authLog ↔ e ∈ st.authLog := by
  have hfiltered : ∀ log : List AuthEvent, e ∈ log ↔ e ∈ log.filter changesList := by
    simp [he]
  rw [hfiltered, h.listing, ← hfiltered]

theorem Upkeep.refl : Upkeep cfg P N st st := .same .refl

theorem upkeep_sockets (sockets : Sockets) : Upkeep cfg P N st { st with sockets := sockets } :=
  .same ⟨fun _ => rfl, fun _ => rfl, rfl, rfl, rfl, rfl, rfl⟩

theorem upkeep_send (p : Apacket) : Upkeep cfg P N st (st.send t p) :=
  upkeep_sockets _

theorem upkeep_log {e : AuthEvent} (he : changesList e = false) : Upkeep cfg P N st (st.log e) :=
  .same ⟨fun _ => rfl, fun _ => rfl, rfl, rfl, rfl, rfl, by simp [Server.log, he]⟩

theorem upkeep_modifyTransport {f : Atransport → Atransport}
    (hdisconnects : ∀ a, (f a).disconnects = a.disconnects)
    (hstate : ∀ a, (f a).connectionState = a.connectionState) :
    Upkeep cfg P N st (st.modifyTransport t f) := by
  refine .same ⟨?_, ?_, rfl, rfl, rfl, rfl, rfl⟩
  · intro t'
    by_cases ht : t' = t
    · subst ht
      simpa [Server.modifyTransport] using hstate _
    · simp [Server.modifyTransport, ht]
  · intro t'
    by_cases ht : t' = t
    · subst ht
      simpa [Server.modifyTransport] using hdisconnects _
    · simp [Server.modifyTransport, ht]

theorem upkeep_handleOnline : Upkeep cfg P N st (handleOnline st t) :=
  upkeep_modifyTransport (fun _ => rfl) fun _ => rfl

theorem upkeep_setConnectionState (ht : P t) (state : ConnectionState) :
    Upkeep cfg P N st (setConnectionState st t state) :=
  .transport ht fun _ => rfl

theorem upkeep_goOffline (ht : P t) :
    Upkeep cfg P N st (handleOffline (setConnectionState st t .offline) t) :=
  (upkeep_setConnectionState ht _).trans (.offline ht)

theorem upkeep_updateTransports : Upkeep cfg P N st (updateTransports cfg env st) := by
  unfold updateTransports
  split
  · exact upkeep_sockets _
  · exact .refl

theorem upkeep_sendAuthRequest : Upkeep cfg P N st (sendAuthRequest env st t) := by
  have htoken : ∀ token, Upkeep cfg P N st
      (st.modifyTransport t fun a => { a with token := token }) :=
    fun _ => upkeep_modifyTransport (fun _ => rfl) fun _ => rfl
  unfold sendAuthRequest
  split
  · exact (htoken _).trans (upkeep_log rfl)
  · exact ((htoken _).trans (upkeep_send _)).trans (upkeep_log rfl)

theorem upkeep_adbdAuthVerified (cause : AuthCause) :
    Upkeep cfg P N st (adbdAuthVerified cfg st t cause) :=
  ((upkeep_log rfl).trans upkeep_handleOnline).trans (upkeep_send _)

theorem upkeep_handleNewConnection (ht : P t) (p : Apacket) :
    Upkeep cfg P N st (handleNewConnection cfg env st t p) := by
  have hoffline : Upkeep cfg P N st
      (if (st.transports t).connectionState ≠ .offline then
        handleOffline (setConnectionState st t .offline) t else st) := by
    split
    · exact upkeep_goOffline ht
    · exact .refl
  unfold handleNewConnection
  dsimp only
  generalize (if (st.transports t).connectionState ≠ .offline then
    handleOffline (setConnectionState st t .offline) t else st) = st₁ at hoffline ⊢
  have hconnected : Upkeep cfg P N st₁ (st₁.modifyTransport t fun a =>
      { a with
        protocolVersion := min (wordToInt p.arg0) aVersion
        maxPayload := min p.arg1 maxPayloadConst
        connectionState := bannerState p.data }) := .transport ht fun _ => rfl
  refine (hoffline.trans hconnected).trans (Upkeep.trans ?_ upkeep_updateTransports)
  · split
    · exact upkeep_handleOnline
    · split
      · exact upkeep_handleOnline.trans (upkeep_send _)
      · exact upkeep_sendAuthRequest

theorem upkeep_adbdAuthConfirmKey (ht : P t) (key : Bytes) :
    Upkeep cfg P N st (adbdAuthConfirmKey env st t key) := by
  have hclaim : Upkeep cfg P N st
      (if st.usbTransport.isNone then
        addDisconnect { st with usbTransport := some t } t .usb else st) := by
    split
    · exact .claim ht
    · exact .refl
  unfold adbdAuthConfirmKey
  dsimp only
  generalize (if st.usbTransport.isNone then
    addDisconnect { st with usbTransport := some t } t .usb else st) = st₁ at hclaim ⊢
  refine hclaim.trans ?_
  split
  · exact .same ⟨fun _ => rfl, fun _ => rfl, rfl, rfl, rfl, rfl, rfl⟩
  split
  · exact .refl
  split
  · exact .refl
  · exact .same ⟨fun _ => rfl, fun _ => rfl, rfl, rfl, rfl, rfl,
      by simp [Server.log, changesList]⟩

theorem upkeep_handleAuth (ht : P t) (p : Apacket) :
    Upkeep cfg P N st (handleAuth cfg env st t p) := by
  have hunauthorized : Upkeep cfg P N st (if (st.transports t).connectionState = .offline then
      setConnectionState st t .unauthorized else st) := by
    split
    · exact upkeep_setConnectionState ht _
    · exact .refl
  have hattempts : ∀ (st : Server) (attempts : Atransport → Nat), Upkeep cfg P N st
      (st.modifyTransport t fun a => { a with failedAuthAttempts := attempts a }) :=
    fun _ _ => upkeep_modifyTransport (fun _ => rfl) fun _ => rfl
  unfold handleAuth
  split
  · dsimp only
    split
    · exact hunauthorized.trans (upkeep_send _)
    · exact hunauthorized
  split
  · dsimp only
    split
    · exact (upkeep_adbdAuthVerified _).trans (hattempts _ fun _ => 0)
    · exact (hattempts _ fun a => a.failedAuthAttempts + 1).trans upkeep_sendAuthRequest
  split
  · exact upkeep_adbdAuthConfirmKey ht _
  · exact upkeep_goOffline ht

theorem upkeep_handlePacket (ht : P t) (p : Apacket) :
    Upkeep cfg P N st (handlePacket cfg env st t p) := by
  have hnoted : Upkeep cfg P N st
      ({ st with sockets := st.sockets.record (.received t p) }.log (.received t p)) :=
    (upkeep_sockets _).trans (upkeep_log rfl)
  unfold handlePacket
  dsimp only
  generalize { st with sockets := st.sockets.record (.received t p) }.log (.received t p) = st₁
    at hnoted ⊢
  refine hnoted.trans ?_
  split
  · split
    · split
      · exact ((upkeep_send _).trans (upkeep_send _)).trans (upkeep_send _)
      · exact upkeep_send _
    · exact (upkeep_goOffline ht).trans (upkeep_send _)
  · exact upkeep_handleNewConnection ht p
  · exact upkeep_handleAuth ht p
  · split
    · exact (upkeep_sockets _).trans (upkeep_log rfl)
    · exact .refl

theorem upkeep_runSockets (f : ServiceContext → Sockets → Sockets) :
    Upkeep cfg P N st (runSockets cfg env st f) := by
  have hfold : ∀ (requests : List ForwardRequest) (st : Server),
      Upkeep cfg P N st (requests.foldl (applyForwardRequest cfg env) st) := by
    intro requests
    induction requests with
    | nil =>
        intro st
        exact .refl
    | cons request requests ih =>
        intro st
        exact (Upkeep.forward env request).trans (ih _)
  exact (upkeep_sockets _).trans (hfold _ _)

/-- What a callback does to the list of transports. -/
def Lists (action : Action) : AuthEvent → Prop
  | .created t => ∃ state type, action = .register t state type
  | .deleted t => action = .remove t
  | _ => False

theorem upkeep_step {l : Action × Oracle} (henabled : Enabled cfg st l.1) :
    Upkeep cfg (fun t => ∃ p, l.1 = .packet t p) (Lists l.1) st (step cfg l.2 st l.1) := by
  obtain ⟨action, env⟩ := l
  have hscripted : ∀ P, Upkeep cfg P (Lists action) st { st with sockets := scripted env st } :=
    fun _ => upkeep_sockets _
  cases action with
  | packet t p => exact (hscripted _).trans (upkeep_handlePacket ⟨p, rfl⟩ p)
  | poll s revents => exact (hscripted _).trans (upkeep_sockets _)
  | dispatch s =>
      exact (hscripted _).trans (upkeep_runSockets fun ctx sockets => dispatchSocket ctx sockets s)
  | subprocExited s unread =>
      exact (hscripted _).trans
        (upkeep_runSockets fun ctx sockets => subprocExited ctx sockets s unread)
  | acceptSmart | jdwpUpdated => exact (hscripted _).trans (upkeep_runSockets _)
  | accept r =>
      refine (hscripted _).trans ?_
      simp only [step]
      split
      · exact .refl
      · exact upkeep_runSockets _
  | register t state type =>
      refine ((hscripted _).trans (.register state type ?_ ⟨state, type, rfl⟩)).trans
        upkeep_updateTransports
      exact henabled
  | remove t => exact ((hscripted _).trans (.delete rfl)).trans upkeep_updateTransports
  | reverseRequest service => exact (hscripted _).trans (.forward env _)
  | frameworkConnect =>
      refine (hscripted _).trans ?_
      simp only [step, adbdAuthListener]
      split
      · split
        · refine Upkeep.trans ?_ (@upkeep_sendAuthRequest cfg env _ _ { st with
            sockets := scripted env st
            frameworkConnected := true
            unanswered := []
            needsRetry := false } _)
          exact .same ⟨fun _ => rfl, fun _ => rfl, rfl, rfl, rfl, rfl, rfl⟩
        · exact .same ⟨fun _ => rfl, fun _ => rfl, rfl, rfl, rfl, rfl, rfl⟩
      · exact .same ⟨fun _ => rfl, fun _ => rfl, rfl, rfl, rfl, rfl, rfl⟩
  | frameworkRead response answered =>
      refine (hscripted _).trans ?_
      simp only [step, adbdAuthEvent]
      split
      · exact .same ⟨fun _ => rfl, fun _ => rfl, rfl, rfl, rfl, rfl, rfl⟩
      split
      · have hanswered : Upkeep cfg (fun t => ∃ p, Action.frameworkRead response answered =
            .packet t p) (Lists (.frameworkRead response answered))
            { st with sockets := scripted env st }
              ({ st with
                sockets := scripted env st
                unanswered := st.unanswered.drop (answered + 1) }.log
                  (.frameworkOk st.usbTransport st.unanswered[answered]?)) :=
          .same ⟨fun _ => rfl, fun _ => rfl, rfl, rfl, rfl, rfl,
            by simp [Server.log, changesList]⟩
        split
        · exact hanswered.trans (upkeep_adbdAuthVerified _)
        · exact hanswered
      · exact .refl

/-- The registrations fit together: listeners with the lists of the transports,
and `usb_transport` with the callback that clears it. -/
structure Held (st : Server) : Prop where
  registered : Registered st
  listed : ∀ t ∈ st.transportList, .created t ∈ st.authLog
  listeners : ∀ l ∈ st.listeners, ∀ t, l.transport = some t → .created t ∈ st.authLog
  usb : ∀ t, st.usbTransport = some t →
    .created t ∈ st.authLog ∧ .usb ∈ (st.transports t).disconnects

/-- The transport is offline, and no registration refers to it. -/
structure Unheld (st : Server) (t : TransportRef) : Prop where
  state : (st.transports t).connectionState = .offline
  listeners : ∀ l ∈ st.listeners, l.transport ≠ some t
  usb : st.usbTransport ≠ some t

theorem mem_of_acquireLoop {type : TransportType} {serial : Option Bytes}
    {l : List TransportRef} {result : Option TransportRef} {error error' : Bytes}
    (h : acquireLoop cfg st type serial l result error = (some t, error')) :
    t ∈ l ∨ result = some t := by
  induction l generalizing result error with
  | nil => exact .inr (Prod.mk.inj h).1
  | cons t' l ih =>
      unfold acquireLoop at h
      split at h
      · exact (ih h).imp_left (List.mem_cons_of_mem _)
      · split at h
        · split at h
          · cases (Prod.mk.inj h).1
          · rcases ih h with hmem | heq
            · exact .inl (List.mem_cons_of_mem _ hmem)
            · obtain rfl := Option.some.inj heq
              exact .inl List.mem_cons_self
        · exact (ih h).imp_left (List.mem_cons_of_mem _)

theorem acquired {type : TransportType} {serial : Option Bytes}
    (h : acquireOneTransport cfg st type serial false = .ok t) :
    t ∈ st.transportList ∧ (st.transports t).connectionState ≠ .offline := by
  unfold acquireOneTransport at h
  split at h
  · cases h
  · rename_i t' error hloop
    split at h
    · rename_i hany
      cases hany
    · split at h
      · cases h
      · split at h
        · cases h
        · rename_i hstate
          cases h
          exact ⟨(mem_of_acquireLoop hloop).resolve_right nofun, hstate⟩

theorem rebindListener_listeners (l : Alistener) (connectTo : Bytes) (t : TransportRef) :
    (rebindListener st l connectTo t).listeners = st.listeners.map fun m =>
      if m.ref = l.ref then { l with connectTo := connectTo, transport := some t } else m := by
  unfold rebindListener
  dsimp only
  split
  · rfl
  · split <;> rfl

theorem transport_of_forward {request : ForwardRequest} {l : Alistener}
    (hl : l ∈ (applyForwardRequest cfg env st request).listeners)
    (ht : l.transport = some t) :
    (∃ m ∈ st.listeners, m.transport = some t) ∨
      acquireOneTransport cfg st request.type request.serial false = .ok t := by
  have hkept : l ∈ st.listeners → (∃ m ∈ st.listeners, m.transport = some t) ∨
      acquireOneTransport cfg st request.type request.serial false = .ok t :=
    fun hmem => .inl ⟨l, hmem, ht⟩
  unfold applyForwardRequest at hl
  dsimp only at hl
  split at hl
  · have hmem : l ∈ ((st.listeners.filter fun l => !isSpecial l).foldl forget
        { st with listeners := st.listeners.filter isSpecial }).listeners := hl
    rw [foldl_forget_listeners] at hmem
    exact hkept (List.mem_of_mem_filter hmem)
  split at hl
  · split at hl
    · split at hl
      · exact hkept hl
      · split at hl
        · exact hkept hl
        · unfold removeListener at hl
          split at hl
          · exact hkept hl
          · dsimp only at hl
            split at hl
            · exact hkept (List.mem_of_mem_filter hl)
            · exact hkept (List.mem_of_mem_filter hl)
    · exact hkept hl
  split at hl
  · exact hkept hl
  · split at hl
    · split at hl
      · exact hkept hl
      · split at hl
        · exact hkept hl
        · rename_i t' hacquired
          have hnew : some t' = some t → (∃ m ∈ st.listeners, m.transport = some t) ∨
              acquireOneTransport cfg st request.type request.serial false = .ok t := by
            rintro ⟨⟩
            exact .inr hacquired
          unfold installListener at hl
          split at hl
          · unfold addListener at hl
            split at hl
            · exact hkept hl
            · rcases List.mem_append.mp hl with hold | hlast
              · exact hkept hold
              · obtain rfl := List.mem_singleton.mp hlast
                exact hnew ht
          · split at hl
            · exact hkept hl
            · rw [rebindListener_listeners, List.mem_map] at hl
              obtain ⟨m, hm, rfl⟩ := hl
              split at ht
              · exact hnew ht
              · exact .inl ⟨m, hm, ht⟩
    · exact hkept hl

theorem handleOffline_transportList (t : TransportRef) :
    (handleOffline st t).transportList = st.transportList := by
  have hfold : ∀ (l : List Disconnect) (st : Server),
      (l.foldl runDisconnect st).transportList = st.transportList := by
    intro l
    induction l with
    | nil =>
        intro st
        rfl
    | cons d l ih =>
        intro st
        rw [List.foldl_cons, ih]
        cases d <;> rfl
  exact hfold _ _

theorem Upkeep.changes (h : Upkeep cfg P N st st') {e : AuthEvent} (he : changesList e = true)
    (hmem : e ∈ st'.authLog) : e ∈ st.authLog ∨ N e := by
  induction h with
  | same h => exact .inl ((h.mem he).mp hmem)
  | transport | claim => exact .inl hmem
  | offline =>
      rw [handleOffline_authLog] at hmem
      rcases List.mem_append.mp hmem with hold | hnew
      · exact .inl hold
      · rw [List.mem_singleton.mp hnew] at he
        cases he
  | forward env request =>
      rw [(listenerChange_applyForwardRequest request).authLog] at hmem
      exact .inl hmem
  | register _ _ _ hN | delete hN =>
      rcases List.mem_append.mp hmem with hold | hnew
      · exact .inl hold
      · rw [List.mem_singleton.mp hnew]
        exact .inr hN
  | trans _ _ ih₁ ih₂ =>
      rcases ih₂ hmem with hold | hN
      · exact ih₁ hold
      · exact .inr hN

theorem Upkeep.stays (h : Upkeep cfg P N st st') {t : TransportRef}
    (ht : t ∈ st.transportList) : t ∈ st'.transportList ∨ N (.deleted t) := by
  induction h with
  | same h => exact .inl (h.transportList ▸ ht)
  | transport | claim => exact .inl ht
  | offline => exact .inl ((handleOffline_transportList _).symm ▸ ht)
  | forward env request =>
      exact .inl ((listenerChange_applyForwardRequest request).transportList.symm ▸ ht)
  | register => exact .inl (List.mem_cons_of_mem _ ht)
  | @delete st t' hN =>
      by_cases heq : t = t'
      · exact .inr (heq ▸ hN)
      · exact .inl (List.mem_filter.mpr ⟨ht, by simpa using heq⟩)
  | trans _ _ ih₁ ih₂ =>
      rcases ih₁ ht with hkept | hN
      · exact ih₂ hkept
      · exact .inr hN

theorem Upkeep.created (h : Upkeep cfg P N st st') {t : TransportRef}
    (ht : .created t ∈ st.authLog) : .created t ∈ st'.authLog := by
  induction h with
  | same h => exact (h.mem rfl).mpr ht
  | transport | claim => exact ht
  | offline =>
      rw [handleOffline_authLog]
      exact List.mem_append_left _ ht
  | forward env request =>
      rw [(listenerChange_applyForwardRequest request).authLog]
      exact ht
  | register | delete => exact List.mem_append_left _ ht
  | trans _ _ ih₁ ih₂ => exact ih₂ (ih₁ ht)

theorem registered_of_counts (h : Registered st) (hlisteners : st'.listeners = st.listeners)
    (hnext : st'.nextListener = st.nextListener)
    (hcounts : ∀ t r, (st'.transports t).disconnects.count (.listener r) =
      (st.transports t).disconnects.count (.listener r)) : Registered st' where
  refs := hlisteners ▸ h.refs
  fresh := by
    rw [hlisteners, hnext]
    exact h.fresh
  counts := by
    intro t r
    rw [hcounts, hlisteners, h.counts]

theorem registered_applyForwardRequest (h : Registered st) (request : ForwardRequest) :
    Registered (applyForwardRequest cfg env st request) := by
  unfold applyForwardRequest
  dsimp only
  split
  · exact registered_removeAllListeners h
  split
  · split
    · split
      · exact h
      · split
        · exact h
        · exact registered_removeListener h _
    · exact h
  split
  · exact h
  · split
    · split
      · exact h
      · split
        · exact h
        · rw [← installListenerOn_some]
          exact registered_installListenerOn h _ _ _ _
    · exact h

theorem handleOffline_listeners (h : Held st) (t : TransportRef) :
    Registered (handleOffline st t) ∧ (handleOffline st t).listeners =
      st.listeners.filter fun l => decide (l.transport ≠ some t) := by
  have hquiet : Registered ({ st.modifyTransport t (fun a => { a with online := false }) with
      sockets := closeAllSockets st.sockets t }.log (.wentOffline t)) := by
    refine registered_of_counts h.registered rfl rfl ?_
    intro t' r
    change ((st.modifyTransport t fun a => { a with online := false }).transports
      t').disconnects.count (.listener r) = _
    rw [disconnects_modifyTransport]
    split
    · rename_i ht
      rw [ht]
    · rfl
  exact ⟨registered_runDisconnects hquiet t, runDisconnects_listeners_eq hquiet t⟩

theorem Held.handleOffline (h : Held st) (t : TransportRef) : Held (handleOffline st t) := by
  obtain ⟨hregistered, hlisteners⟩ := handleOffline_listeners h t
  refine ⟨hregistered, ?_, ?_, ?_⟩
  · intro t' ht'
    rw [handleOffline_authLog]
    exact List.mem_append_left _ (h.listed t' (handleOffline_transportList t ▸ ht'))
  · rw [hlisteners, handleOffline_authLog]
    intro l hl t' ht'
    exact List.mem_append_left _ (h.listeners l (List.mem_of_mem_filter hl) t' ht')
  · intro u hu
    rw [handleOffline_usbTransport] at hu
    split at hu
    · cases hu
    · rename_i husb
      obtain ⟨hcreated, hmem⟩ := h.usb u hu
      have hne : u ≠ t := by
        rintro rfl
        exact husb hmem
      rw [handleOffline_authLog, handleOffline_transports, if_neg hne]
      exact ⟨List.mem_append_left _ hcreated, hmem⟩

theorem Held.modifyTransport (h : Held st) {f : Atransport → Atransport}
    (hf : ∀ a, (f a).disconnects = a.disconnects) : Held (st.modifyTransport t f) := by
  have hkept : ∀ t', ((st.modifyTransport t f).transports t').disconnects =
      (st.transports t').disconnects := by
    intro t'
    rw [disconnects_modifyTransport]
    split
    · rename_i ht
      rw [hf, ht]
    · rfl
  refine ⟨registered_of_counts h.registered rfl rfl ?_, h.listed, h.listeners, ?_⟩
  · intro t' r
    rw [hkept]
  · intro u hu
    rw [hkept]
    exact h.usb u hu

theorem Upkeep.held (heffect : Upkeep cfg P N st st')
    (hP : ∀ t, P t → .created t ∈ st.authLog) (h : Held st) : Held st' := by
  induction heffect with
  | same hsame =>
      refine ⟨registered_of_counts h.registered hsame.listeners hsame.nextListener ?_, ?_, ?_, ?_⟩
      · intro t r
        rw [hsame.disconnects]
      · rw [hsame.transportList]
        exact fun t ht => (hsame.mem rfl).mpr (h.listed t ht)
      · rw [hsame.listeners]
        exact fun l hl t ht => (hsame.mem rfl).mpr (h.listeners l hl t ht)
      · rw [hsame.usbTransport]
        intro t ht
        rw [hsame.disconnects]
        exact ⟨(hsame.mem rfl).mpr (h.usb t ht).1, (h.usb t ht).2⟩
  | transport _ hf => exact h.modifyTransport hf
  | offline => exact h.handleOffline _
  | @claim st t ht =>
      have hother : ∀ t', ((addDisconnect { st with usbTransport := some t } t .usb).transports
          t').disconnects = (st.transports t').disconnects ++ if t' = t then [.usb] else [] := by
        intro t'
        rw [addDisconnect, disconnects_modifyTransport]
        split
        · rename_i heq
          rw [heq]
        · rw [List.append_nil]
      refine ⟨registered_of_counts h.registered rfl rfl ?_, h.listed, h.listeners, ?_⟩
      · intro t' r
        rw [hother]
        split <;> simp
      · intro u hu
        obtain rfl : t = u := Option.some.inj hu
        rw [hother, if_pos rfl]
        exact ⟨hP t ht, by simp⟩
  | @forward st env request =>
      have hchange := @listenerChange_applyForwardRequest cfg env st request
      refine ⟨registered_applyForwardRequest h.registered request, ?_, ?_, ?_⟩
      · rw [hchange.transportList, hchange.authLog]
        exact h.listed
      · intro l hl t ht
        rw [hchange.authLog]
        rcases transport_of_forward hl ht with ⟨m, hm, hmt⟩ | hacquired
        · exact h.listeners m hm t hmt
        · exact h.listed t (acquired hacquired).1
      · rw [hchange.usbTransport, hchange.authLog]
        intro u hu
        rw [hchange.usb]
        exact h.usb u hu
  | @register st t state type hfresh _ =>
      have hnone : ∀ l ∈ st.listeners, l.transport ≠ some t :=
        fun l hl ht => hfresh (h.listeners l hl t ht)
      have hother : ∀ t', (({ st.modifyTransport t (fun _ => .blank state type) with
          transportList := t :: st.transportList }.log (.created t)).transports t').disconnects =
            if t' = t then [] else (st.transports t').disconnects := by
        intro t'
        exact disconnects_modifyTransport (fun _ => .blank state type) t t'
      refine ⟨registered_of_counts h.registered rfl rfl ?_, ?_, ?_, ?_⟩
      · intro t' r
        rw [hother]
        split
        · rename_i ht
          subst ht
          rw [h.registered.counts, List.count_nil, eq_comm, List.countP_eq_zero]
          intro l hl hboth
          exact hnone l hl (of_decide_eq_true hboth).2
        · rfl
      · intro t' ht'
        rcases List.mem_cons.mp ht' with rfl | hold
        · exact List.mem_append_right _ (List.mem_singleton.mpr rfl)
        · exact List.mem_append_left _ (h.listed t' hold)
      · exact fun l hl t' ht' => List.mem_append_left _ (h.listeners l hl t' ht')
      · intro u hu
        obtain ⟨hcreated, hmem⟩ := h.usb u hu
        have hne : u ≠ t := by
          rintro rfl
          exact hfresh hcreated
        rw [hother, if_neg hne]
        exact ⟨List.mem_append_left _ hcreated, hmem⟩
  | delete t =>
      refine ⟨registered_of_counts h.registered rfl rfl fun _ _ => rfl, ?_, ?_, ?_⟩
      · exact fun t' ht' => List.mem_append_left _ (h.listed t' (List.mem_of_mem_filter ht'))
      · exact fun l hl t' ht' => List.mem_append_left _ (h.listeners l hl t' ht')
      · exact fun u hu => ⟨List.mem_append_left _ (h.usb u hu).1, (h.usb u hu).2⟩
  | trans h₁ _ ih₁ ih₂ => exact ih₂ (fun t ht => h₁.created (hP t ht)) (ih₁ hP h)

theorem Upkeep.unheld (heffect : Upkeep cfg P N st st')
    (hP : ∀ t, P t → .created t ∈ st.authLog) (ht : ¬ P t) (hcreated : .created t ∈ st.authLog)
    (hheld : Held st) (h : Unheld st t) : Unheld st' t := by
  induction heffect with
  | same hsame =>
      exact ⟨(hsame.state t).trans h.state, hsame.listeners ▸ h.listeners,
        hsame.usbTransport ▸ h.usb⟩
  | @transport st t' f hPt' _ =>
      have hne : t ≠ t' := by
        rintro rfl
        exact ht hPt'
      refine ⟨?_, h.listeners, h.usb⟩
      simpa [Server.modifyTransport, hne] using h.state
  | @offline st t' hPt' =>
      have hne : t ≠ t' := by
        rintro rfl
        exact ht hPt'
      refine ⟨?_, ?_, ?_⟩
      · rw [handleOffline_transports, if_neg hne]
        exact h.state
      · intro l hl
        rw [(handleOffline_listeners hheld t').2] at hl
        exact h.listeners l (List.mem_of_mem_filter hl)
      · rw [handleOffline_usbTransport]
        split
        · intro hsome
          cases hsome
        · exact h.usb
  | @claim st t' hPt' =>
      have hne : t ≠ t' := by
        rintro rfl
        exact ht hPt'
      refine ⟨?_, h.listeners, fun heq => hne (Option.some.inj heq).symm⟩
      simpa [addDisconnect, Server.modifyTransport, hne] using h.state
  | @forward st env request =>
      have hchange := @listenerChange_applyForwardRequest cfg env st request
      refine ⟨?_, ?_, hchange.usbTransport ▸ h.usb⟩
      · exact (congrArg Atransport.connectionState (hchange.transports t)).trans h.state
      · intro l hl hlt
        rcases transport_of_forward hl hlt with ⟨m, hm, hmt⟩ | hacquired
        · exact h.listeners m hm hmt
        · exact (acquired hacquired).2 h.state
  | @register st t' state type hfresh _ =>
      have hne : t ≠ t' := by
        rintro rfl
        exact hfresh hcreated
      refine ⟨?_, h.listeners, h.usb⟩
      simpa [Server.modifyTransport, Server.log, hne] using h.state
  | delete => exact ⟨h.state, h.listeners, h.usb⟩
  | trans h₁ _ ih₁ ih₂ =>
      exact ih₂ (fun t ht => h₁.created (hP t ht)) (h₁.created hcreated) (h₁.held hP hheld)
        (ih₁ hP hcreated hheld h)

/-- Going offline drops every registration. -/
theorem unheld_goOffline (h : Held st) (t : TransportRef) :
    Unheld (handleOffline (setConnectionState st t .offline) t) t := by
  have hheld : Held (setConnectionState st t .offline) := h.modifyTransport fun _ => rfl
  generalize hst₁ : setConnectionState st t .offline = st₁ at hheld
  have hstate : (st₁.transports t).connectionState = .offline := by
    rw [← hst₁]
    simp [setConnectionState, Server.modifyTransport]
  refine ⟨?_, ?_, ?_⟩
  · rw [handleOffline_transports, if_pos rfl]
    exact hstate
  · rw [(handleOffline_listeners hheld t).2]
    intro l hl
    simpa using (List.mem_filter.mp hl).2
  · rw [handleOffline_usbTransport]
    split
    · intro hsome
      cases hsome
    · rename_i husb
      exact fun heq => husb (hheld.usb t heq).2

end Upkeep

/-! ### The process -/

/-- Nothing in the process refers to the transport. -/
structure Cleared (st : Server) (t : TransportRef) : Prop where
  held : Unheld st t
  sockets : Unreferred st.sockets t

/-- The end of a connection, as the read thread reports it. -/
def Apacket.isOffline (p : Apacket) : Prop := p.command = .aSync ∧ p.arg0 = 0

section Process

variable {cfg : Config} {st : Server} {l : Action × Oracle} {t : TransportRef}

theorem created_of_enabled (h : Held st) (henabled : Enabled cfg st l.1) :
    ∀ t, (∃ p, l.1 = .packet t p) → .created t ∈ st.authLog := by
  rintro t ⟨p, hp⟩
  rw [hp] at henabled
  exact h.listed t henabled

theorem held_step (h : Held st) (henabled : Enabled cfg st l.1) :
    Held (step cfg l.2 st l.1) :=
  (upkeep_step henabled).held (created_of_enabled h henabled) h

theorem held_of_reachable (h : (serverSystem cfg).Reachable st) : Held st := by
  refine h.invariant ?_ ?_
  · rintro st rfl
    refine ⟨registered_of_empty rfl ?_, nofun, nofun, nofun⟩
    simp [Server.initial, Atransport.blank]
  · intro st l hheld henabled _
    exact held_step hheld henabled.2

theorem not_uses (h : Unheld st t) (hother : ∀ p, l.1 ≠ .packet t p) : ¬ Uses cfg st l.1 t := by
  intro huses
  have hacquire : ∀ type serial, acquireOneTransport cfg st type serial false ≠ .ok t :=
    fun type serial hacquired => (acquired hacquired).2 h.state
  cases hl : l.1 with
  | packet t' p =>
      rw [hl] at huses
      obtain rfl : t = t' := huses
      exact hother p hl
  | dispatch | subprocExited =>
      rw [hl] at huses
      obtain ⟨type, serial, hacquired⟩ := huses
      exact hacquire type serial hacquired
  | accept r =>
      rw [hl] at huses
      obtain ⟨listener, hmem, -, ht⟩ := huses
      exact h.listeners listener hmem ht
  | _ =>
      rw [hl] at huses
      exact huses

/-- Only a packet of the transport itself can bring it back into use. -/
theorem cleared_step (hwf : WellFormed st.sockets) (hheld : Held st)
    (henabled : Enabled cfg st l.1) (hcreated : .created t ∈ st.authLog)
    (hother : ∀ p, l.1 ≠ .packet t p) (h : Cleared st t) : Cleared (step cfg l.2 st l.1) t := by
  have hstep : Callback (fun _ => True) (fun _ => True) (Uses cfg st l.1) st.sockets
      (step cfg l.2 st l.1).sockets :=
    callback_step hwf henabled (fun _ => .inl trivial) fun _ => .inl trivial
  refine ⟨(upkeep_step henabled).unheld (created_of_enabled hheld henabled) ?_ hcreated hheld
    h.held, h.sockets.callback hstep hwf (not_uses h.held hother)⟩
  rintro ⟨p, hp⟩
  exact hother p hp

theorem cleared_offline (hsettled : Settled st.sockets) (hheld : Held st) (env : Oracle)
    {p : Apacket} (hp : Apacket.isOffline p) :
    Cleared (step cfg env st (.packet t p)) t := by
  have hnoted : Upkeep cfg (fun _ => False) (fun _ => False) st
      ({ st with sockets := (scripted env st).record (.received t p) }.log (.received t p)) :=
    (upkeep_sockets _).trans (upkeep_log rfl)
  have hheld₁ := hnoted.held (fun _ => False.elim) hheld
  have hwf : WellFormed ((scripted env st).record (.received t p)) :=
    hsettled.wellFormed.congr rfl rfl rfl ⟨rfl, rfl⟩
  have hchecked : Checked ((scripted env st).record (.received t p)) :=
    hsettled.checked.congr rfl rfl rfl id
  generalize hst₁ : { st with sockets := (scripted env st).record (.received t p) }.log
    (.received t p) = st₁ at hheld₁
  have hsockets : st₁.sockets = (scripted env st).record (.received t p) := by
    rw [← hst₁]
    rfl
  have hstep : step cfg env st (.packet t p) =
      (handleOffline (setConnectionState st₁ t .offline) t).send t p := by
    rw [← hst₁]
    simp only [step, handlePacket, hp.1, hp.2]
    rfl
  rw [hstep]
  have hunheld := unheld_goOffline hheld₁ t
  refine ⟨⟨hunheld.state, hunheld.listeners, hunheld.usb⟩, ?_⟩
  have hclosed : Unreferred (handleOffline (setConnectionState st₁ t .offline) t).sockets t := by
    rw [handleOffline_sockets, setConnectionState_sockets, hsockets]
    exact unreferred_closeAllSocketsFuel hwf hchecked t (Nat.lt_succ_self _)
  exact hclosed.congr rfl rfl

end Process

end Adb.OfflineTransports
