import Adb.OperationEffects

/-! The effects of creating sockets and of the smart socket's requests. -/

namespace Adb.SmartEffects

open Adb.DescriptorIo
open Adb.EventInterest
open Adb.WirePackets
open Adb.SocketTable
open Adb.SocketOperations
open Adb.SmartSockets
open Adb.SocketClosing
open Adb.SocketGraph
open Adb.SocketEffects
open Adb.OperationEffects

variable {free : Bool} {T : SocketRef → Prop} {R : TransportRef → Prop} {st : Sockets}

theorem newSocket_blank {k : SocketKind} (hk : k ≠ .remote) : NewSocket (.blank k) :=
  ⟨rfl, rfl, rfl, sound_fdeventInstall, fun h => absurd h hk, fun _ => rfl⟩

theorem effect_createLocalSocket (hT : T st.nextRef) :
    Effect free T R st (createLocalSocket st).2 :=
  .install hT (newSocket_blank (by simp)) rfl rfl (.inr rfl)

theorem effect_createDeviceTracker (hT : T st.nextRef) :
    Effect free T R st (createDeviceTracker st).2 := by
  have hallocate : Effect free T R st
      (st.allocate { Asocket.blank .deviceTracker with updateNeeded := true }).2 := by
    refine .allocate hT ⟨rfl, rfl, rfl, sound_fdeventInstall, ?_, fun _ => rfl⟩ rfl (.inr ?_)
    · simp [Asocket.blank]
    · simp [Asocket.blank]
  refine hallocate.trans (.track (fun _ hs => .inl hs) ?_ (.inr rfl))
  intro s hs
  rcases List.mem_cons.mp hs with rfl | hs
  · exact .inr (by simp [Sockets.kindOf, Sockets.allocate, Asocket.blank])
  · exact .inl hs

theorem modify_comm {p q : SocketRef} (h : p ≠ q) (f g : Asocket → Asocket) :
    (st.modify p f).modify q g = (st.modify q g).modify p f := by
  simp only [Sockets.modify, Function.update_of_ne h, Function.update_of_ne h.symm]
  rw [Function.update_comm h]

theorem modify_modify (p : SocketRef) (f g : Asocket → Asocket) :
    (st.modify p f).modify p g = st.modify p fun a => g (f a) := by
  simp only [Sockets.modify, Function.update_self, Function.update_idem, Option.map_map]
  rfl

/-- What handling a request leaves of the graph: nothing but the transport of
the smart socket may change. -/
structure Handled (free : Bool) (T : SocketRef → Prop) (R : TransportRef → Prop)
    (st st' : Sockets) : Prop where
  effect : Effect free T R st st'
  kindOf : ∀ p, st'.kindOf p = st.kindOf p
  peerOf : ∀ p, st'.peerOf p = st.peerOf p
  nextRef : st'.nextRef = st.nextRef

theorem handled_ite {c : Prop} [Decidable c] {x y : Int × Sockets}
    (hx : Handled free T R st x.2) (hy : Handled free T R st y.2) :
    Handled free T R st (if c then x else y).2 := by
  split
  · exact hx
  · exact hy

theorem handled_refl : Handled free T R st st := ⟨.refl, fun _ => rfl, fun _ => rfl, rfl⟩

theorem handled_reply {client : SocketRef} (hT : T client) (hactive : Active st client)
    (r : Reply) : Handled free T R st (st.reply client r) :=
  ⟨effect_reply hT hactive r, fun _ => rfl, fun _ => rfl, rfl⟩

/-- A smart socket and its client. -/
structure Serves (st : Sockets) (s client : SocketRef) : Prop where
  smart : st.kindOf s = some .smart
  peer : st.peerOf s = some client

theorem Serves.of_handled {st' : Sockets} {s client : SocketRef} (h : Serves st s client)
    (hhandled : Handled free T R st st') : Serves st' s client :=
  ⟨(hhandled.kindOf s).trans h.smart, (hhandled.peerOf s).trans h.peer⟩

theorem Serves.cells {s client : SocketRef} (h : Serves st s client) (hwf : WellFormed st) :
    ∃ a b, st.heap client = some a ∧ st.heap s = some b ∧ a.kind = .localSocket ∧
      b.kind = .smart ∧ a.peer = some s ∧ b.peer = some client ∧ a.closing = false ∧
      b.closing = false ∧ client ≠ s := by
  obtain ⟨b, hb, hpeer⟩ := peerOf_eq_some.mp h.peer
  have hbkind : b.kind = .smart := by simpa [Sockets.kindOf, hb] using h.smart
  obtain ⟨hne, a, ha, hback, hcompat⟩ := (hwf.socket s b hb).peer client hpeer
  refine ⟨a, b, ha, hb, ?_, hbkind, hback, hpeer, ?_, ?_, hne⟩
  · rw [hbkind] at hcompat
    cases hakind : a.kind <;> simp_all [Compatible]
  · exact active_peer hwf h.peer a ha
  · exact active_of_peer hwf h.peer b hb

theorem Serves.not_attached {s client : SocketRef} (h : Serves st s client)
    (hwf : WellFormed st) : ¬ Attached st s ∧ ¬ Attached st client := by
  obtain ⟨a, b, ha, hb, hakind, hbkind, hback, hpeer, -⟩ := h.cells hwf
  constructor
  · rintro ⟨q, hq, hkind⟩
    obtain rfl : client = q := by simpa [Sockets.peerOf, hb, hpeer] using hq
    simp [Sockets.kindOf, ha, hakind] at hkind
  · rintro ⟨q, hq, hkind⟩
    obtain rfl : s = q := by simpa [Sockets.peerOf, ha, hback] using hq
    simp [Sockets.kindOf, hb, hbkind] at hkind

theorem handled_setTransport {s client : SocketRef} (h : Serves st s client)
    (hwf : WellFormed st) (hT : T s) {t : TransportRef} (ht : R t) :
    Handled free T R st (st.modify s fun a => { a with transport := some t }) := by
  obtain ⟨a, b, ha, hb, hakind, hbkind, hback, hpeer, hactiveClient, hactive, hne⟩ := h.cells hwf
  have hok := hwf.socket s b hb
  refine ⟨.update hb hT ⟨.of_kind rfl rfl rfl rfl hok.queue hok.fde (fun _ => rfl), hactive,
    by simp [hbkind], .inr (h.not_attached hwf).1, .inr ⟨t, rfl, ht⟩, .inr fun _ => .inl rfl⟩,
    ?_, ?_, rfl⟩
  · intro p
    by_cases hp : p = s
    · subst hp
      simp [Sockets.kindOf, Sockets.modify, hb]
    · simp [Sockets.kindOf, Sockets.modify, hp]
  · intro p
    by_cases hp : p = s
    · subst hp
      simp [Sockets.peerOf, Sockets.modify, hb]
    · simp [Sockets.peerOf, Sockets.modify, hp]

section Smart

variable {ctx : ServiceContext} {s client : SocketRef} (h : WellFormed st)
  (hserves : Serves st s client)
  (hR : ∀ type serial t, ctx.acquire type serial = .ok t → R t)
  (hs : T s) (hclient : T client)

include h hserves hR hs hclient

theorem handled_handleHostRequest (request : HostService) :
    Handled free T R st (handleHostRequest ctx st s client request).2 := by
  have hactive : Active st client := active_peer h hserves.peer
  have hreply : ∀ r, Handled free T R st (st.reply client r) :=
    handled_reply hclient hactive
  have hanswer : ∀ onError,
      Handled free T R st (answerAbout ctx st client request onError).2 := by
    intro onError
    unfold answerAbout
    split
    · exact hreply _
    · exact hreply _
  have hforward : Handled free T R st (handleForwardRequest ctx st client request).2 := by
    unfold handleForwardRequest
    refine handled_ite (hreply _) (handled_ite ?_ handled_refl)
    exact ⟨.same ⟨rfl, rfl, rfl, ⟨rfl, rfl⟩, rfl, rfl, rfl, ⟨rfl, rfl⟩, id⟩, fun _ => rfl,
      fun _ => rfl, rfl⟩
  unfold handleHostRequest
  refine handled_ite ?_ (handled_ite ?_ (handled_ite (handled_ite (hreply _) handled_refl)
    (handled_ite (hreply _) (handled_ite (hanswer _) (handled_ite (hreply _)
    (handled_ite (handled_ite (hreply _) ?_) (handled_ite (hreply _) (handled_ite (hanswer _)
    (handled_ite handled_refl (handled_ite (hreply _) ?_))))))))))
  · exact ⟨(hreply _).effect.trans (effect_halt _), fun _ => rfl, fun _ => rfl, rfl⟩
  · dsimp only
    split
    · rename_i t ht
      have htransport : Handled free T R st (st.modify s fun a => { a with transport := some t }) :=
        handled_setTransport hserves h hs (hR _ _ t ht)
      have hactive' : Active (st.modify s fun a => { a with transport := some t }) client :=
        active_peer (htransport.effect.wellFormed h) ((htransport.peerOf s).trans hserves.peer)
      exact ⟨htransport.effect.trans (effect_reply hclient hactive' _), htransport.kindOf,
        htransport.peerOf, htransport.nextRef⟩
    · exact hreply _
  · split
    · exact hreply _
    · exact hreply _
  · exact hforward

omit hR in
theorem effect_smartSocketFail : Effect free T R st (smartSocketFail st s).2 := by
  refine effect_asocketClose (active_of_peer h hserves.peer) fun p hp => ?_
  rcases mem_withPeer.mp hp with rfl | hp
  · exact hs
  · rw [hserves.peer] at hp
    obtain rfl := Option.some.inj hp
    exact hclient

omit hR in
theorem effect_replyFail (r : Reply) :
    Effect free T R st (smartSocketFail (st.reply client r) s).2 :=
  (effect_reply hclient (active_peer h hserves.peer) r).trans
    (effect_smartSocketFail (h.congr rfl rfl rfl ⟨rfl, rfl⟩) ⟨hserves.smart, hserves.peer⟩
      hs hclient)

omit hR in
theorem effect_detach {f : Asocket → Asocket}
    (hf : ∀ a, st.heap client = some a → (f a).id = a.id ∧ (f a).closing = a.closing ∧
      SocketKind.isLocal (f a).kind = true ∧ (f a).peer = none ∧ (f a).pkts = a.pkts ∧
      (f a).fde = a.fde ∧ ∀ t, (f a).transport = some t → Refers st client t) :
    Effect free T R st
      ((st.modify client f).modify s fun a => { a with peer := none }) := by
  obtain ⟨a, b, ha, hb, hakind, hbkind, hback, hpeer, hactiveClient, hactive, hne⟩ :=
    hserves.cells h
  obtain ⟨hid, hclosing, hlocal, hnone, hpkts, hfde, hrefers⟩ := hf a ha
  have hoka := h.socket client a ha
  have hokb := h.socket s b hb
  have hnotRemote : (f a).kind ≠ .remote := by
    intro hk
    simp [hk, SocketKind.isLocal] at hlocal
  refine .link ha hb ⟨hclient, hs⟩
    { ne := hne
      peerLeft := fun p hp => by simpa [hback, eq_comm] using hp
      peerRight := fun p hp => by simpa [hpeer, eq_comm] using hp
      id := ⟨hid, rfl⟩
      closingLeft := ⟨hactiveClient, hclosing.trans hactiveClient⟩
      closingRight := ⟨hactive, hactive⟩
      listedLeft := ?_
      listedRight := rfl
      link := .inl ⟨hnone, rfl⟩
      queueLeft := fun _ hq => ?_
      queueRight := fun hl => by simp [hbkind, SocketKind.isLocal] at hl
      fde := ⟨hfde ▸ hoka.fde, hokb.fde⟩
      transportLeft := fun hk => absurd hk hnotRemote
      transportRight := fun hk => by simp [hbkind] at hk
      remote := .inr ⟨by simp [hakind], by simp [hbkind], hnotRemote, by simp [hbkind]⟩
      refers := fun t ht => ?_
      kindLeft := .inr ⟨by simp [hakind, SocketKind.isLocal], hlocal⟩
      kindRight := .inl rfl
      unfedLeft := fun _ => ⟨.inr hbkind, hpkts⟩
      unfedRight := fun hl => by simp [hbkind, SocketKind.isLocal] at hl }
  · rw [hakind]
    cases hk : (f a).kind <;> simp_all [SocketKind.isLocal, SocketKind.isListed]
  · rw [hpkts] at hq
    rw [hfde]
    exact hoka.queue (by simp [hakind, SocketKind.isLocal]) hq
  · rcases ht with ht | ht
    · exact .inr (.inl (hrefers t ht))
    · exact .inr (.inl ⟨a, ha, by simp [hakind, SocketKind.isListed],
        .inr ⟨s, b, hback, hb, ht⟩⟩)

end Smart

theorem effect_connectToRemote (ctx : ServiceContext) (s : SocketRef) (destination : Bytes) :
    Effect free T R st (connectToRemote ctx st s destination) := by
  unfold connectToRemote
  split
  · exact effect_halt _
  · dsimp only
    split
    · exact effect_halt _
    · exact effect_sendOn _ (.inr (.inr rfl))

theorem connectToRemote_heap (ctx : ServiceContext) (s : SocketRef) (destination : Bytes) :
    (connectToRemote ctx st s destination).heap = st.heap := by
  unfold connectToRemote
  split
  · rfl
  · dsimp only
    split
    · rfl
    · exact sendOn_heap _ _

/-- Sending and changing a socket do not depend on each other. -/
theorem effect_connectToRemote_modify (ctx : ServiceContext) (s p : SocketRef)
    (destination : Bytes) (f : Asocket → Asocket) :
    Effect free T R (st.modify p f) ((connectToRemote ctx st s destination).modify p f) := by
  unfold connectToRemote sendOn
  split
  · exact effect_halt _
  · dsimp only
    split
    · exact effect_halt _
    · split
      · exact effect_halt _
      · exact .send _ (.inr (.inr rfl))

section Requests

variable {ctx : ServiceContext} {s client : SocketRef} (h : WellFormed st)
  (hserves : Serves st s client)
  (hR : ∀ type serial t, ctx.acquire type serial = .ok t → R t)
  (hs : T s) (hclient : T client)

include h hserves hs hclient

theorem effect_smartSocketConnect (service : Bytes) :
    Effect free T R st (smartSocketConnect ctx st s client service).2 := by
  obtain ⟨a, b, ha, hb, hakind, hbkind, hback, hpeer, -, hactive, hne⟩ := hserves.cells h
  unfold smartSocketConnect
  split
  · exact effect_replyFail h hserves hs hclient _
  · rename_i t ht
    split
    · exact effect_replyFail h hserves hs hclient _
    · have hdetach : Effect free T R st
          ((st.modify client fun a =>
            { a with kind := .localNotify, peer := none, transport := some t }).modify s
              fun a => { a with peer := none }) := by
        refine effect_detach h hserves hs hclient fun c hc => ?_
        refine ⟨rfl, rfl, rfl, rfl, rfl, rfl, ?_⟩
        rintro t' ⟨⟩
        refine ⟨a, ha, by simp [hakind, SocketKind.isListed], .inr ⟨s, b, hback, hb, ?_⟩⟩
        simpa [hb] using ht
      refine (hdetach.trans (effect_connectToRemote_modify ctx client s service _)).trans ?_
      have hcell : ((connectToRemote ctx (st.modify client fun a =>
          { a with kind := .localNotify, peer := none, transport := some t }) client
          service).modify s fun a => { a with peer := none }).heap s =
            some { b with peer := none } := by
        simp [Sockets.modify, connectToRemote_heap, hne.symm, hb]
      refine .close hcell hactive fun p hp => ?_
      rcases mem_withPeer.mp hp with rfl | hp
      · exact hs
      · simp [Sockets.peerOf, hcell] at hp

/-- The client is given to a new service socket in place of the smart socket. -/
theorem effect_handOff {s2 : SocketRef} {d : Asocket} (hd : st.heap s2 = some d)
    (hT : T s2) (hnew : NewSocket d) (hkind : d.kind = .localSocket ∨ d.kind = .deviceTracker)
    (htransport : d.transport = none) (hne : s2 ≠ s ∧ s2 ≠ client) :
    Effect free T R st (handOff st s client s2) := by
  obtain ⟨a, b, ha, hb, hakind, hbkind, hback, hpeer, hactiveClient, hactive, hcs⟩ :=
    hserves.cells h
  have hdetach : Effect free T R st
      ((st.modify client fun a => { a with kind := .localSocket, peer := none }).modify s
        fun a => { a with peer := none }) := by
    refine effect_detach h hserves hs hclient fun c hc => ⟨rfl, rfl, rfl, rfl, rfl, rfl, ?_⟩
    intro t ht
    obtain rfl : a = c := by simpa [ha] using hc
    exact ⟨a, ha, by simp [hakind, SocketKind.isListed], .inl ht⟩
  have hsplit : st.modify client (fun a => { a with kind := .localSocket, peer := some s2 }) =
      (st.modify client fun a => { a with kind := .localSocket, peer := none }).modify client
        fun a => { a with kind := .localSocket, peer := some s2 } := by
    rw [modify_modify]
  simp only [handOff]
  rw [modify_comm hne.1, hsplit, modify_comm hcs]
  refine hdetach.trans ?_
  have hwf := hdetach.wellFormed h
  have hclient' : ((st.modify client fun a =>
      { a with kind := .localSocket, peer := none }).modify s
        fun a => { a with peer := none }).heap client =
          some { a with kind := .localSocket, peer := none } := by
    simp [Sockets.modify, hcs, ha]
  have hs2' : ((st.modify client fun a =>
      { a with kind := .localSocket, peer := none }).modify s
        fun a => { a with peer := none }).heap s2 = some d := by
    simp [Sockets.modify, hne.1, hne.2, hd]
  have hok := hwf.socket client _ hclient'
  have hdRemote : d.kind ≠ .remote := by
    rintro hk
    simp [hk] at hkind
  refine .link hclient' hs2' ⟨hclient, hT⟩
    { ne := hne.2.symm
      peerLeft := by simp
      peerRight := by simp [hnew.peer]
      id := ⟨rfl, rfl⟩
      closingLeft := ⟨hactiveClient, hactiveClient⟩
      closingRight := ⟨hnew.closing, hnew.closing⟩
      listedLeft := rfl
      listedRight := rfl
      link := .inr ⟨rfl, rfl, by rcases hkind with hk | hk <;> simp [hk, Compatible]⟩
      queueLeft := hok.queue
      queueRight := fun _ hq => absurd hnew.pkts hq
      fde := ⟨hok.fde, hnew.fde⟩
      transportLeft := by simp
      transportRight := fun hk => absurd hk hdRemote
      remote := .inr ⟨by simp, hdRemote, by simp, hdRemote⟩
      refers := fun t ht => ?_
      kindLeft := .inl rfl
      kindRight := .inl rfl
      unfedLeft := fun _ => ⟨.inl rfl, rfl⟩
      unfedRight := fun _ => ⟨.inl hnew.peer, rfl⟩ }
  rcases ht with ht | ht
  · exact .inr (.inl ⟨_, hclient', rfl, .inl ht⟩)
  · simp [htransport] at ht

omit hs hclient in
theorem handOff_heap {s2 : SocketRef} {d : Asocket} (hd : st.heap s2 = some d)
    (hne : s2 ≠ s ∧ s2 ≠ client) : ∃ a b, st.heap client = some a ∧ st.heap s = some b ∧
      (handOff st s client s2).heap s = some { b with peer := none } ∧
      (handOff st s client s2).heap s2 = some { d with peer := some client } ∧
      (handOff st s client s2).heap client =
        some { a with kind := .localSocket, peer := some s2 } ∧
      b.closing = false ∧ client ≠ s := by
  obtain ⟨a, b, ha, hb, hakind, hbkind, hback, hpeer, hactiveClient, hactive, hcs⟩ :=
    hserves.cells h
  refine ⟨a, b, ha, hb, ?_, ?_, ?_, hactive, hcs⟩
  · simp [handOff, Sockets.modify, hne.1.symm, hcs.symm, hb]
  · simp [handOff, Sockets.modify, hne.1, hne.2, hd]
  · simp [handOff, Sockets.modify, hcs, hne.2.symm, ha]

theorem effect_handOffClose {s2 : SocketRef} {d : Asocket} (hd : st.heap s2 = some d)
    (hT : T s2) (hnew : NewSocket d) (hkind : d.kind = .localSocket ∨ d.kind = .deviceTracker)
    (htransport : d.transport = none) (hne : s2 ≠ s ∧ s2 ≠ client) :
    Effect free T R st (asocketClose (handOff st s client s2) s) := by
  obtain ⟨a, b, ha, hb, hcell, hs2, hcell2, hactive, hcs⟩ := handOff_heap h hserves hd hne
  have hhand : Effect free T R st (handOff st s client s2) :=
    effect_handOff h hserves hs hclient hd hT hnew hkind htransport hne
  refine hhand.trans (.close hcell hactive fun p hp => ?_)
  rcases mem_withPeer.mp hp with rfl | hp
  · exact hs
  · simp [Sockets.peerOf, hcell] at hp

theorem effect_startService {s2 : SocketRef} {d : Asocket} (hd : st.heap s2 = some d)
    (hT : T s2) (hnew : NewSocket d) (hkind : d.kind = .localSocket ∨ d.kind = .deviceTracker)
    (htransport : d.transport = none) (hne : s2 ≠ s ∧ s2 ≠ client) :
    Effect free T R st
      (asocketReady ctx (asocketClose (handOff st s client s2) s) s2) := by
  obtain ⟨a, b, ha, hb, hcell, hs2, hcell2, hactive, hcs⟩ := handOff_heap h hserves hd hne
  have hhand : Effect free T R st (handOff st s client s2) :=
    effect_handOff h hserves hs hclient hd hT hnew hkind htransport hne
  have hwf := hhand.wellFormed h
  have hcells : ∀ p, p ≠ s →
      (asocketClose (handOff st s client s2) s).heap p = (handOff st s client s2).heap p := by
    intro p hp
    rw [(hwf.asocketClose_closed hcell).heap, if_neg]
    simp [withPeer, Sockets.peerOf, hcell, hp]
  have hclosed : Effect free T R st (asocketClose (handOff st s client s2) s) :=
    effect_handOffClose h hserves hs hclient hd hT hnew hkind htransport hne
  refine hclosed.trans ?_
  have hwf' := hclosed.wellFormed h
  generalize asocketClose (handOff st s client s2) s = st₁ at hcells hwf' ⊢
  have hs2' : st₁.heap s2 = some { d with peer := some client } := by rw [hcells s2 hne.1, hs2]
  have hclient' : st₁.heap client = some { a with kind := .localSocket, peer := some s2 } := by
    rw [hcells client hcs, hcell2]
  refine effect_asocketReady hwf' ?_ (.inr ⟨?_, ?_⟩) ?_ ctx
  · intro c hc
    obtain rfl : { d with peer := some client } = c := by simpa [hs2'] using hc
    exact hnew.closing
  · rintro ⟨q, hq, hqkind⟩
    obtain rfl : client = q := by simpa [Sockets.peerOf, hs2'] using hq
    simp [Sockets.kindOf, hclient'] at hqkind
  · rcases hkind with hk | hk <;> simp [Sockets.kindOf, hs2', hk]
  · intro p hp
    rcases mem_withPeer.mp hp with rfl | hp
    · exact hT
    · obtain rfl : client = p := by simpa [Sockets.peerOf, hs2'] using hp
      exact hclient

end Requests

/-- The socket that a host service runs on is new. -/
structure HostSocket (st st' : Sockets) (s2 : SocketRef) (d : Asocket) : Prop where
  ref : s2 = st.nextRef
  cell : st'.heap s2 = some d
  new : NewSocket d
  kind : d.kind = .localSocket ∨ d.kind = .deviceTracker
  transport : d.transport = none
  heap : ∀ p, p ≠ s2 → st'.heap p = st.heap p

theorem hostSocket_createLocalSocket :
    HostSocket st (createLocalSocket st).2 (createLocalSocket st).1
      { Asocket.blank .localSocket with id := st.localSocketNextId } := by
  refine ⟨rfl, ?_, ⟨rfl, rfl, rfl, sound_fdeventInstall, by simp [Asocket.blank],
    by simp [Asocket.blank]⟩, .inl rfl, rfl, ?_⟩
  · simp [createLocalSocket, installLocalSocket, Sockets.haltWhen, Sockets.modify,
      Sockets.allocate]
  · intro p hp
    have hne : p ≠ st.nextRef := hp
    simp [createLocalSocket, installLocalSocket, Sockets.haltWhen, Sockets.modify,
      Sockets.allocate, hne]

theorem hostSocket_createDeviceTracker :
    HostSocket st (createDeviceTracker st).2 (createDeviceTracker st).1
      { Asocket.blank .deviceTracker with updateNeeded := true } := by
  refine ⟨rfl, ?_, ⟨rfl, rfl, rfl, sound_fdeventInstall, by simp [Asocket.blank],
    fun _ => rfl⟩, .inr rfl, rfl, ?_⟩
  · simp [createDeviceTracker, Sockets.allocate]
  · intro p hp
    have hne : p ≠ st.nextRef := hp
    simp [createDeviceTracker, Sockets.allocate, hne]

theorem hostServiceToSocket_cases (name : Bytes) :
    hostServiceToSocket st name = some (createDeviceTracker st) ∨
      hostServiceToSocket st name = some (createLocalSocket st) ∨
      hostServiceToSocket st name = none := by
  unfold hostServiceToSocket
  split
  · exact .inl rfl
  · split
    · exact .inr (.inl rfl)
    · split
      · exact .inr (.inl rfl)
      · exact .inr (.inr rfl)

theorem hostServiceToSocket_spec {name : Bytes} {s2 : SocketRef} {st' : Sockets}
    (h : hostServiceToSocket st name = some (s2, st')) (hT : T st.nextRef) :
    Effect free T R st st' ∧ ∃ d, HostSocket st st' s2 d := by
  rcases hostServiceToSocket_cases name with hc | hc | hc
  · rw [hc] at h
    obtain ⟨rfl, rfl⟩ := Prod.mk.inj (Option.some.inj h)
    exact ⟨effect_createDeviceTracker hT, _, hostSocket_createDeviceTracker⟩
  · rw [hc] at h
    obtain ⟨rfl, rfl⟩ := Prod.mk.inj (Option.some.inj h)
    exact ⟨effect_createLocalSocket hT, _, hostSocket_createLocalSocket⟩
  · simp [hc] at h

example :
    let asked := (createSmartSocket (createLocalSocket .initial).2).2
    ((hostServiceToSocket asked (ascii "track-devices")).map fun out =>
        (out.1, (out.2.heap out.1).map (·.kind))) = some (2, some .deviceTracker) ∧
      ((hostServiceToSocket asked (ascii "connect:host")).map fun out =>
        (out.1, out.2.kindOf 0, (out.2.heap out.1).map (·.id))) =
          some (2, some .localSocket, some 2) ∧
      hostServiceToSocket asked (ascii "devices") = none := by
  decide +kernel

section Dispatch

variable {ctx : ServiceContext} {s client : SocketRef} (h : WellFormed st)
  (hR : ∀ type serial t, ctx.acquire type serial = .ok t → R t)
  (hs : T s) (hnew : ∀ p, st.nextRef ≤ p → T p)

include h hR hs hnew

omit hR hs hnew in
theorem hostSocket_serves (hserves : Serves st s client) {st' : Sockets} {s2 : SocketRef}
    {d : Asocket} (hd : HostSocket st st' s2 d) :
    s2 ≠ s ∧ s2 ≠ client ∧ Serves st' s client := by
  obtain ⟨a, b, ha, hb, -, -, -, -, -, -, hcs⟩ := hserves.cells h
  have hsne : s2 ≠ s := by
    rintro rfl
    exact absurd hd.ref (Nat.ne_of_lt (h.socket s2 b hb).fresh)
  have hcne : s2 ≠ client := by
    rintro rfl
    exact absurd hd.ref (Nat.ne_of_lt (h.socket s2 a ha).fresh)
  refine ⟨hsne, hcne, ?_, ?_⟩
  · rw [Sockets.kindOf, hd.heap s hsne.symm]
    exact hserves.smart
  · rw [Sockets.peerOf, hd.heap s hsne.symm]
    exact hserves.peer

theorem effect_smartSocketHostService (hserves : Serves st s client) (hclient : T client)
    (request : HostService) :
    Effect free T R st (smartSocketHostService ctx st s client request).2 := by
  have hhandled : Handled free T R st (handleHostRequest ctx st s client request).2 :=
    handled_handleHostRequest h hserves hR hs hclient request
  have hserves' := hserves.of_handled hhandled
  have hwf := hhandled.effect.wellFormed h
  have hnext := hhandled.nextRef
  have heffect := hhandled.effect
  unfold smartSocketHostService
  dsimp only
  generalize handleHostRequest ctx st s client request = out at hserves' hwf hnext heffect ⊢
  obtain ⟨ret, st₁⟩ := out
  simp only at hserves' hwf hnext heffect ⊢
  split
  · exact heffect.trans (effect_smartSocketFail hwf hserves' hs hclient)
  split
  · refine heffect.trans (effect_modify hs fun b hb => ?_)
    have hbkind : b.kind = .smart := by simpa [Sockets.kindOf, hb] using hserves'.smart
    have hok := hwf.socket s b hb
    refine ⟨.of_kind rfl rfl rfl rfl ?_ hok.fde hok.transport,
      active_of_peer hwf hserves'.peer b hb, by simp [hbkind],
      .inr (hserves'.not_attached hwf).1, .inl rfl, .inr ?_⟩
    all_goals
      intro hl
      simp [hbkind, SocketKind.isLocal] at hl
  · split
    · exact heffect.trans (effect_replyFail hwf hserves' hs hclient _)
    · rename_i s2 st₂ hs2
      obtain ⟨hcreated, d, hd⟩ : Effect free T R st₁ st₂ ∧ ∃ d, HostSocket st₁ st₂ s2 d :=
        hostServiceToSocket_spec hs2 (hnew _ (Nat.le_of_eq hnext.symm))
      obtain ⟨hsne, hcne, hserves₂⟩ := hostSocket_serves hwf hserves' hd
      have hwf₂ := hcreated.wellFormed hwf
      have hreplied : Effect free T R st₂ (st₂.reply client .okay) :=
        effect_reply hclient (active_peer hwf₂ hserves₂.peer) _
      refine ((heffect.trans hcreated).trans hreplied).trans ?_
      refine effect_startService (hreplied.wellFormed hwf₂) ⟨hserves₂.smart, hserves₂.peer⟩ hs
        hclient hd.cell ?_ hd.new hd.kind hd.transport ⟨hsne, hcne⟩
      exact hnew s2 (Nat.le_of_eq (hd.ref.trans hnext).symm)

theorem effect_smartSocketDispatch (hsmart : st.kindOf s = some .smart)
    (hT : ∀ p ∈ withPeer st s, T p) (service : Bytes) :
    Effect free T R st (smartSocketDispatch ctx st s service).2 := by
  unfold smartSocketDispatch
  split
  · exact effect_halt _
  · rename_i client hpeer
    have hserves : Serves st s client := ⟨hsmart, hpeer⟩
    have hclient : T client := hT client (mem_withPeer.mpr (.inr hpeer))
    split
    · split
      · exact effect_smartSocketHostService h hR hs hnew hserves hclient _
      · exact effect_smartSocketConnect h hserves hs hclient service
    · split
      · exact effect_replyFail h hserves hs hclient _
      · rename_i t _ hacquire
        have hset : Handled free T R st
            (st.modify s fun a => { a with transport := some t }) :=
          handled_setTransport hserves h hs (hR _ _ t hacquire)
        exact hset.effect.trans (effect_smartSocketConnect (hset.effect.wellFormed h)
          (hserves.of_handled hset) hs hclient service)
      · exact effect_smartSocketConnect h hserves hs hclient service

theorem effect_smartSocketRequest (hsmart : st.kindOf s = some .smart)
    (hactive : Active st s) (hT : ∀ p ∈ withPeer st s, T p) (packet : Bytes) :
    Effect free T R st (smartSocketRequest ctx st s packet).2 := by
  unfold smartSocketRequest
  split
  · exact .refl
  · dsimp only
    split
    · exact effect_asocketClose hactive hT
    · split
      · exact .refl
      · exact effect_smartSocketDispatch h hR hs hnew hsmart hT _

theorem effect_smartSocketEnqueue (hsmart : st.kindOf s = some .smart)
    (hactive : Active st s) (hattached : free = true ∨ ¬ Attached st s)
    (hT : ∀ p ∈ withPeer st s, T p) (data : Bytes) :
    Effect free T R st (smartSocketEnqueue ctx st s data).2 := by
  have hstore : ∀ pkts, Effect free T R st (st.modify s fun a => { a with pkts := pkts }) := by
    intro pkts
    refine effect_modify hs fun b hb => ?_
    have hbkind : b.kind = .smart := by simpa [Sockets.kindOf, hb] using hsmart
    have hok := h.socket s b hb
    refine ⟨.of_kind rfl rfl rfl rfl ?_ hok.fde hok.transport, hactive b hb, by simp [hbkind],
      hattached, .inl rfl, .inr ?_⟩
    all_goals
      intro hl
      simp [hbkind, SocketKind.isLocal] at hl
  have hrequest : ∀ pkts packet, Effect free T R st
      (smartSocketRequest ctx (st.modify s fun a => { a with pkts := pkts }) s packet).2 := by
    intro pkts packet
    refine (hstore pkts).trans (effect_smartSocketRequest ((hstore pkts).wellFormed h) hR hs
      hnew ?_ ?_ ?_ packet)
    · obtain ⟨b, hb, hbkind⟩ : ∃ b, st.heap s = some b ∧ b.kind = .smart := by
        simpa [Sockets.kindOf] using hsmart
      simp [Sockets.kindOf, Sockets.modify, hb, hbkind]
    · exact active_modify hactive fun _ => rfl
    · intro p hp
      refine hT p ?_
      rwa [withPeer_congr] at hp
      exact peerOf_modify_self fun _ _ => rfl
  unfold smartSocketEnqueue
  split
  · exact effect_halt _
  · split
    · exact hrequest _ _
    · split
      · exact effect_asocketClose hactive hT
      · exact hrequest _ _

end Dispatch

theorem effect_peerEnqueue {ctx : ServiceContext} {q : SocketRef} (h : WellFormed st)
    (hR : ∀ type serial t, ctx.acquire type serial = .ok t → R t) (hactive : Active st q)
    (hfree : free = true ∨ Offstream st q) (hfed : free = true ∨ Fed st q)
    (hT : ∀ p ∈ withPeer st q, T p) (hnew : ∀ p, st.nextRef ≤ p → T p) (data : Bytes) :
    Effect free T R st (peerEnqueue ctx st q data).2 := by
  have hq : T q := hT q (self_mem_withPeer st q)
  unfold peerEnqueue
  split
  · rename_i hsmart
    have hcalled : Effect free T R st (st.record (.enqueueCalled q data)) :=
      .note (hfree.imp_right And.left) (by rintro p ⟨⟩; exact ⟨hq, hactive⟩)
    exact hcalled.trans (effect_smartSocketEnqueue (hcalled.wellFormed h) hR hq hnew hsmart
      hactive (hfree.imp_right And.left) hT data)
  · exact (effect_asocketEnqueue h hactive hfree hfed data).mono id hT fun _ ht => ht

/-- A new object at the other end of the socket `s`. -/
def linkNew (st : Sockets) (s : SocketRef) (b : Asocket) : Sockets :=
  ((st.allocate b).2.modify s fun a => { a with peer := some st.nextRef }).modify st.nextRef
    fun a => { a with peer := some s }

section LinkNew

variable {s : SocketRef} {a b : Asocket} (h : WellFormed st) (hs : st.heap s = some a)

include h hs

theorem linkNew_heap : (linkNew st s b).heap s = some { a with peer := some st.nextRef } ∧
    (linkNew st s b).heap st.nextRef = some { b with peer := some s } ∧
    ∀ p, p ≠ s → p ≠ st.nextRef → (linkNew st s b).heap p = st.heap p := by
  have hne : s ≠ st.nextRef := Nat.ne_of_lt (h.socket s a hs).fresh
  refine ⟨?_, ?_, ?_⟩
  · simp [linkNew, Sockets.modify, Sockets.allocate, hne, hs]
  · simp [linkNew, Sockets.modify, Sockets.allocate, hne.symm]
  · intro p hp hp'
    simp [linkNew, Sockets.modify, Sockets.allocate, hp, hp']

theorem effect_linkNew (hnew : NewSocket b) (hlisted : SocketKind.isListed b.kind = false)
    (hcompat : Compatible a.kind b.kind = true) (hpeer : a.peer = none)
    (hactive : a.closing = false) (hfree : free = true ∨ b.kind ≠ .remote)
    (hremote : a.kind ≠ .remote)
    (hR : ∀ t, b.transport = some t → R t) (hlistedLeft : SocketKind.isListed a.kind = true)
    (hT : T s) (hTnew : T st.nextRef) : Effect free T R st (linkNew st s b) := by
  have hne : s ≠ st.nextRef := Nat.ne_of_lt (h.socket s a hs).fresh
  have hallocate : Effect free T R st (st.allocate b).2 := .allocate hTnew hnew hlisted hfree
  have hs' : (st.allocate b).2.heap s = some a := by simp [Sockets.allocate, hne, hs]
  have hb' : (st.allocate b).2.heap st.nextRef = some b := by simp [Sockets.allocate]
  have hok := h.socket s a hs
  refine hallocate.trans (.link hs' hb' ⟨hT, hTnew⟩
    { ne := hne
      peerLeft := by simp [hpeer]
      peerRight := by simp [hnew.peer]
      id := ⟨rfl, rfl⟩
      closingLeft := ⟨hactive, hactive⟩
      closingRight := ⟨hnew.closing, hnew.closing⟩
      listedLeft := rfl
      listedRight := rfl
      link := .inr ⟨rfl, rfl, hcompat⟩
      queueLeft := hok.queue
      queueRight := fun _ hq => absurd hnew.pkts hq
      fde := ⟨hok.fde, hnew.fde⟩
      transportLeft := fun hk => absurd hk hremote
      transportRight := hnew.transport
      remote := hfree.imp_right fun hb => ⟨hremote, hb, hremote, hb⟩
      refers := fun t ht => ?_
      kindLeft := .inl rfl
      kindRight := .inl rfl
      unfedLeft := fun _ => ⟨.inl hpeer, rfl⟩
      unfedRight := fun _ => ⟨.inl hnew.peer, rfl⟩ })
  rcases ht with ht | ht
  · exact .inr (.inl ⟨a, hs', hlistedLeft, .inl ht⟩)
  · exact .inl (hR t ht)

theorem effect_connectToSmartsocket {ctx : ServiceContext} (hkind : a.kind = .localSocket)
    (hpeer : a.peer = none) (hactive : a.closing = false) (hT : T s) (hTnew : T st.nextRef) :
    Effect free T R st (connectToSmartsocket ctx st s) := by
  have hlink : Effect free T R st (linkNew st s (.blank .smart)) :=
    effect_linkNew h hs (newSocket_blank (by simp)) rfl
      (by simp [hkind, Asocket.blank, Compatible]) hpeer hactive
      (.inr (by simp [Asocket.blank])) (by simp [hkind]) (by simp [Asocket.blank])
      (by simp [hkind, SocketKind.isListed]) hT hTnew
  obtain ⟨hcell, hcell', -⟩ := linkNew_heap (b := .blank .smart) h hs
  have hwf := hlink.wellFormed h
  refine hlink.trans ?_
  show Effect free T R _ (asocketReady ctx (linkNew st s (.blank .smart)) s)
  refine effect_asocketReady hwf ?_ (.inr ⟨?_, ?_⟩) ?_ ctx
  · intro c hc
    obtain rfl : { a with peer := some st.nextRef } = c := by
      rw [hcell] at hc
      exact Option.some.inj hc
    exact hactive
  · rintro ⟨q, hq, hqkind⟩
    obtain rfl : st.nextRef = q := by simpa [Sockets.peerOf, hcell] using hq
    rw [Sockets.kindOf, hcell'] at hqkind
    simp [Asocket.blank] at hqkind
  · simp [Sockets.kindOf, hcell, hkind]
  · intro p hp
    rcases mem_withPeer.mp hp with rfl | hp
    · exact hT
    · obtain rfl : st.nextRef = p := by simpa [Sockets.peerOf, hcell] using hp
      exact hTnew

end LinkNew

end Adb.SmartEffects
