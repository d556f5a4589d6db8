import Adb.SocketGraph

/-!
What the functions on sockets can do, as a relation between two tables.  Every
function is shown once to be made of these effects, and every invariant is
shown once to be kept by them.
-/

namespace Adb.SocketEffects

open Adb.DescriptorIo
open Adb.EventInterest
open Adb.WirePackets
open Adb.SocketTable
open Adb.SocketOperations
open Adb.SmartSockets
open Adb.SocketClosing
open Adb.SocketGraph

/-- A socket that is not waiting on the closing list. -/
def Active (st : Sockets) (s : SocketRef) : Prop :=
  ∀ a, st.heap s = some a → a.closing = false

/-- A socket whose stream runs over a transport. -/
def Attached (st : Sockets) (s : SocketRef) : Prop :=
  ∃ q, st.peerOf s = some q ∧ st.kindOf q = some .remote

/-- A socket on the list that keeps a transport in use. -/
def Refers (st : Sockets) (s : SocketRef) (t : TransportRef) : Prop :=
  ∃ a, st.heap s = some a ∧ SocketKind.isListed a.kind = true ∧
    (a.transport = some t ∨ ∃ q b, a.peer = some q ∧ st.heap q = some b ∧
      b.transport = some t)

/-- Two tables that differ in the bookkeeping only. -/
structure SameTable (st st' : Sockets) : Prop where
  heap : st'.heap = st.heap
  listed : st'.localSocketList = st.localSocketList
  closing : st'.localSocketClosingList = st.localSocketClosingList
  counters : SameCounters st st'
  outbox : st'.outbox = st.outbox
  trace : st'.trace = st.trace
  links : st'.links = st.links
  trackers : st'.jdwpTrackers = st.jdwpTrackers ∧ st'.deviceTrackerList = st.deviceTrackerList
  check : st'.halted = some .check → st.halted = some .check

theorem SameTable.rfl' {st : Sockets} : SameTable st st :=
  ⟨rfl, rfl, rfl, .rfl', rfl, rfl, rfl, ⟨rfl, rfl⟩, id⟩

theorem SameTable.trans {st₁ st₂ st₃ : Sockets} (h₁ : SameTable st₁ st₂)
    (h₂ : SameTable st₂ st₃) : SameTable st₁ st₃ :=
  ⟨h₂.heap.trans h₁.heap, h₂.listed.trans h₁.listed, h₂.closing.trans h₁.closing,
    h₁.counters.trans h₂.counters, h₂.outbox.trans h₁.outbox, h₂.trace.trans h₁.trace,
    h₂.links.trans h₁.links, ⟨h₂.trackers.1.trans h₁.trackers.1,
      h₂.trackers.2.trans h₁.trackers.2⟩, fun h => h₁.check (h₂.check h)⟩

/-- A socket whose peer hands it something: the peer is no smart socket, whose id is `0`. -/
def Fed (st : Sockets) (s : SocketRef) : Prop :=
  ∃ q b, st.peerOf s = some q ∧ st.heap q = some b ∧ (b.kind ≠ .smart ∨ b.id ≠ 0)

/-- The events that are recorded alone.  When `free` is not set, the streams
over transports carry nothing. -/
def Noted (free : Bool) (st : Sockets) : Event → Prop
  | .readyCalled _ | .fdWriteFailed _ | .replied _ _ => True
  | .connected _ _ _ _ => free = true
  | .enqueueCalled s _ => free = true ∨ ¬ Attached st s
  | .fdWrote s _ => (st.heap s).isSome = true ∧ (free = true ∨ ¬ Attached st s)
  | _ => False

/-- A change of one socket's fields. -/
structure Update (free : Bool) (R : TransportRef → Prop) (st : Sockets) (s : SocketRef)
    (a a' : Asocket) : Prop where
  respects : Respects a a'
  active : a.closing = false
  kind : a.kind ≠ .remote
  attached : free = true ∨ ¬ Attached st s
  transport : a'.transport = a.transport ∨ ∃ t, a'.transport = some t ∧ R t
  queue : free = true ∨ (SocketKind.isLocal a.kind = true → a'.pkts = a.pkts ∨ Fed st s)

/-- New cells for two sockets that are linked with each other or with nothing. -/
structure Link (free : Bool) (R : TransportRef → Prop) (st : Sockets) (s q : SocketRef)
    (a b a' b' : Asocket) : Prop where
  ne : s ≠ q
  peerLeft : ∀ p, a.peer = some p → p = q
  peerRight : ∀ p, b.peer = some p → p = s
  id : a'.id = a.id ∧ b'.id = b.id
  closingLeft : a.closing = false ∧ a'.closing = false
  closingRight : b.closing = false ∧ b'.closing = false
  listedLeft : SocketKind.isListed a'.kind = SocketKind.isListed a.kind
  listedRight : SocketKind.isListed b'.kind = SocketKind.isListed b.kind
  link : (a'.peer = none ∧ b'.peer = none) ∨
    (a'.peer = some q ∧ b'.peer = some s ∧ Compatible a'.kind b'.kind = true)
  queueLeft : SocketKind.isLocal a'.kind = true → a'.pkts ≠ [] → a'.fde.state.write = true
  queueRight : SocketKind.isLocal b'.kind = true → b'.pkts ≠ [] → b'.fde.state.write = true
  fde : a'.fde.Sound ∧ b'.fde.Sound
  transportLeft : a'.kind = .remote → a'.transport.isSome = true
  transportRight : b'.kind = .remote → b'.transport.isSome = true
  remote : free = true ∨ (a.kind ≠ .remote ∧ b.kind ≠ .remote ∧ a'.kind ≠ .remote ∧
    b'.kind ≠ .remote)
  refers : ∀ t, a'.transport = some t ∨ b'.transport = some t →
    R t ∨ Refers st s t ∨ Refers st q t
  kindLeft : SameKind a.kind a'.kind
  kindRight : SameKind b.kind b'.kind
  unfedLeft : SocketKind.isLocal a.kind = true →
    (a.peer = none ∨ b.kind = .smart) ∧ a'.pkts = a.pkts
  unfedRight : SocketKind.isLocal b.kind = true →
    (b.peer = none ∨ a.kind = .smart) ∧ b'.pkts = b.pkts

/-- A new object as its constructor leaves it. -/
structure NewSocket (a : Asocket) : Prop where
  peer : a.peer = none
  closing : a.closing = false
  pkts : a.pkts = []
  fde : a.fde.Sound
  transport : a.kind = .remote → a.transport.isSome = true
  smart : a.kind = .smart → a.id = 0

/-- The effects of the functions on sockets.  `T` are the sockets that may be
touched and `R` the transports that may come into use. -/
inductive Effect (free : Bool) (T : SocketRef → Prop) (R : TransportRef → Prop) :
    Sockets → Sockets → Prop where
  | same {st st' : Sockets} (h : SameTable st st') : Effect free T R st st'
  | note {st : Sockets} {e : Event} (hnoted : Noted free st e)
      (habout : ∀ p, Event.about e = some p → T p ∧ Active st p) :
      Effect free T R st (st.record e)
  | send {st : Sockets} (t : TransportRef) {p : Apacket}
      (hp : free = true ∨ p.command = .aClse ∨ p.command = .aOpen) :
      Effect free T R st (st.sendPacket t p)
  | update {st : Sockets} {s : SocketRef} {a : Asocket} {f : Asocket → Asocket}
      (hs : st.heap s = some a) (hT : T s) (hf : Update free R st s a (f a)) :
      Effect free T R st (st.modify s f)
  | close {st : Sockets} {s : SocketRef} {a : Asocket} (hs : st.heap s = some a)
      (hactive : a.closing = false) (hT : ∀ p ∈ withPeer st s, T p) :
      Effect free T R st (asocketClose st s)
  | allocate {st : Sockets} {a : Asocket} (hT : T st.nextRef) (hnew : NewSocket a)
      (hlisted : SocketKind.isListed a.kind = false)
      (hfree : free = true ∨ a.kind ≠ .remote) : Effect free T R st (st.allocate a).2
  | install {st : Sockets} {a : Asocket} (hT : T st.nextRef) (hnew : NewSocket a)
      (hlisted : SocketKind.isListed a.kind = true) (htransport : a.transport = none)
      (hfree : free = true ∨ SocketKind.isLocal a.kind = true) :
      Effect free T R st (installLocalSocket (st.allocate a).2 st.nextRef)
  | link {st : Sockets} {s q : SocketRef} {a b : Asocket} {f g : Asocket → Asocket}
      (hs : st.heap s = some a) (hq : st.heap q = some b) (hT : T s ∧ T q)
      (hlink : Link free R st s q a b (f a) (g b)) :
      Effect free T R st ((st.modify s f).modify q g)
  | track {st : Sockets} {jdwp device : List SocketRef}
      (hjdwp : ∀ s ∈ jdwp, s ∈ st.jdwpTrackers ∨ st.kindOf s = some .jdwpTracker)
      (hdevice : ∀ s ∈ device, s ∈ st.deviceTrackerList ∨ st.kindOf s = some .deviceTracker)
      (hstreams : free = true ∨ jdwp = st.jdwpTrackers) :
      Effect free T R st { st with jdwpTrackers := jdwp, deviceTrackerList := device }
  | trans {st₁ st₂ st₃ : Sockets} (h₁ : Effect free T R st₁ st₂)
      (h₂ : Effect free T R st₂ st₃) : Effect free T R st₁ st₃

section Rules

variable {free : Bool} {T : SocketRef → Prop} {R : TransportRef → Prop} {st st' : Sockets}

theorem Effect.refl : Effect free T R st st := .same .rfl'

theorem Effect.mono {free' : Bool} {T' : SocketRef → Prop} {R' : TransportRef → Prop}
    (h : Effect free T R st st') (hfree : free = true → free' = true)
    (hT : ∀ p, T p → T' p) (hR : ∀ t, R t → R' t) : Effect free' T' R' st st' := by
  induction h with
  | same h => exact .same h
  | note hnoted habout =>
      refine .note ?_ fun p hp => ⟨hT p (habout p hp).1, (habout p hp).2⟩
      rename_i e
      cases e with
      | connected s i j t => exact hfree hnoted
      | enqueueCalled s d => exact hnoted.imp_left hfree
      | fdWrote s d => exact hnoted.imp_right (·.imp_left hfree)
      | _ => exact hnoted
  | send t hp => exact .send t (hp.imp_left hfree)
  | update hs hs' hf =>
      exact .update hs (hT _ hs') ⟨hf.respects, hf.active, hf.kind, hf.attached.imp_left hfree,
        hf.transport.imp_right fun ⟨t, ht, hRt⟩ => ⟨t, ht, hR t hRt⟩,
        hf.queue.imp_left hfree⟩
  | close hs hactive hpeers => exact .close hs hactive fun p hp => hT p (hpeers p hp)
  | allocate hnext hnew hlisted hremote =>
      exact .allocate (hT _ hnext) hnew hlisted (hremote.imp_left hfree)
  | install hnext hnew hlisted htransport hlocal =>
      exact .install (hT _ hnext) hnew hlisted htransport (hlocal.imp_left hfree)
  | link hs hq hpair hlink =>
      exact .link hs hq ⟨hT _ hpair.1, hT _ hpair.2⟩
        { hlink with
          remote := hlink.remote.imp_left hfree
          refers := fun t ht => (hlink.refers t ht).imp_left (hR t) }
  | track hjdwp hdevice hstreams => exact .track hjdwp hdevice (hstreams.imp_left hfree)
  | trans _ _ ih₁ ih₂ => exact ih₁.trans ih₂

theorem SameTable.wellFormed (h : SameTable st st') (hwf : WellFormed st) : WellFormed st' :=
  hwf.congr h.heap h.listed h.closing h.counters

theorem Effect.wellFormed (h : Effect free T R st st') (hwf : WellFormed st) :
    WellFormed st' := by
  induction h with
  | same h => exact h.wellFormed hwf
  | note _ _ => exact hwf.congr rfl rfl rfl ⟨rfl, rfl⟩
  | send t _ => exact hwf.congr rfl rfl rfl ⟨rfl, rfl⟩
  | update hs _ hf => exact hwf.modify hs hf.respects
  | close hs _ _ => exact hwf.asocketClose hs
  | allocate _ hnew hlisted _ =>
      exact hwf.allocate hnew.peer hnew.closing hlisted hnew.fde hnew.transport
  | install _ hnew hlisted _ _ =>
      exact hwf.install hnew.peer hnew.closing hnew.pkts hlisted hnew.fde
  | @link st s q a b f g hs hq _ hlink =>
      refine hwf.setPair hlink.ne hs hq hlink.peerLeft hlink.peerRight ?_ ?_ hlink.link
      · exact ⟨⟨hlink.id.1, hlink.closingLeft.2.trans hlink.closingLeft.1.symm, hlink.listedLeft⟩,
          hlink.closingLeft.2, hlink.queueLeft, hlink.fde.1, hlink.transportLeft⟩
      · exact ⟨⟨hlink.id.2, hlink.closingRight.2.trans hlink.closingRight.1.symm,
          hlink.listedRight⟩, hlink.closingRight.2, hlink.queueRight, hlink.fde.2,
          hlink.transportRight⟩
  | track _ _ _ => exact hwf.congr rfl rfl rfl ⟨rfl, rfl⟩
  | trans _ _ ih₁ ih₂ => exact ih₂ (ih₁ hwf)

theorem Effect.counters (h : Effect free T R st st') (hwf : WellFormed st) :
    st.nextRef ≤ st'.nextRef ∧ st.localSocketNextId ≤ st'.localSocketNextId := by
  induction h with
  | same h => exact ⟨Nat.le_of_eq h.counters.nextRef.symm, Nat.le_of_eq h.counters.nextId.symm⟩
  | close hs _ _ =>
      have hcounters := (hwf.asocketClose_closed hs).counters
      exact ⟨Nat.le_of_eq hcounters.nextRef.symm, Nat.le_of_eq hcounters.nextId.symm⟩
  | note | send | update | link | track => exact ⟨Nat.le_refl _, Nat.le_refl _⟩
  | allocate => exact ⟨Nat.le_succ _, Nat.le_refl _⟩
  | install => exact ⟨Nat.le_succ _, Nat.le_succ _⟩
  | trans h₁ _ ih₁ ih₂ =>
      obtain ⟨href, hid⟩ := ih₂ (h₁.wellFormed hwf)
      exact ⟨Nat.le_trans (ih₁ hwf).1 href, Nat.le_trans (ih₁ hwf).2 hid⟩

/-- A socket outside `T` is left alone. -/
theorem Effect.heap (h : Effect free T R st st') (hwf : WellFormed st) {p : SocketRef}
    (hp : ¬ T p) : st'.heap p = st.heap p := by
  have hne : ∀ {s}, T s → p ≠ s := by
    rintro s hs rfl
    exact hp hs
  induction h with
  | same h => rw [h.heap]
  | note | send | track => rfl
  | update hs hT hf => simp [Sockets.modify, hne hT]
  | close hs _ hT =>
      rw [(hwf.asocketClose_closed hs).heap, if_neg fun hmem => hp (hT p hmem)]
  | allocate hT _ _ _ => simp [Sockets.allocate, hne hT]
  | install hT _ _ _ _ =>
      simp [installLocalSocket, Sockets.haltWhen, Sockets.modify, Sockets.allocate, hne hT]
  | link _ _ hT _ => simp [Sockets.modify, hne hT.1, hne hT.2]
  | trans h₁ _ ih₁ ih₂ => exact (ih₂ (h₁.wellFormed hwf)).trans (ih₁ hwf)

theorem Effect.cell (h : Effect free T R st st') (hwf : WellFormed st) {p : SocketRef}
    {b' : Asocket} (hp : p < st.nextRef) (hb' : st'.heap p = some b') :
    ∃ b, st.heap p = some b ∧ SameKind b.kind b'.kind := by
  induction h generalizing b' with
  | same h => exact ⟨b', by rw [← h.heap, hb'], .inl rfl⟩
  | note | send | track => exact ⟨b', hb', .inl rfl⟩
  | @update st s a f hs _ hf =>
      by_cases hps : p = s
      · subst hps
        obtain rfl : f a = b' := by simpa [Sockets.modify, hs] using hb'
        exact ⟨a, hs, hf.respects.kind⟩
      · exact ⟨b', by simpa [Sockets.modify, hps] using hb', .inl rfl⟩
  | @close st s a hs _ _ =>
      rw [(hwf.asocketClose_closed hs).heap] at hb'
      split at hb'
      · obtain ⟨b, hb, hremains⟩ := Option.bind_eq_some_iff.mp hb'
        obtain ⟨hlocal, -, -, -, rfl⟩ := remains_eq_some hremains
        exact ⟨b, hb, .inr ⟨hlocal, rfl⟩⟩
      · exact ⟨b', hb', .inl rfl⟩
  | allocate _ _ _ _ =>
      exact ⟨b', by simpa [Sockets.allocate, Nat.ne_of_lt hp] using hb', .inl rfl⟩
  | install _ _ _ _ _ =>
      exact ⟨b', by simpa [installLocalSocket, Sockets.haltWhen, Sockets.modify,
        Sockets.allocate, Nat.ne_of_lt hp] using hb', .inl rfl⟩
  | @link st s q a b f g hs hq _ hlink =>
      by_cases hpq : p = q
      · subst hpq
        obtain rfl : g b = b' := by simpa [Sockets.modify, hlink.ne.symm, hq] using hb'
        exact ⟨b, hq, hlink.kindRight⟩
      · by_cases hps : p = s
        · subst hps
          obtain rfl : f a = b' := by simpa [Sockets.modify, hlink.ne, hs] using hb'
          exact ⟨a, hs, hlink.kindLeft⟩
        · exact ⟨b', by simpa [Sockets.modify, hps, hpq] using hb', .inl rfl⟩
  | trans h₁ _ ih₁ ih₂ =>
      obtain ⟨c, hc, hkind⟩ :=
        ih₂ (h₁.wellFormed hwf) (Nat.lt_of_lt_of_le hp (h₁.counters hwf).1) hb'
      obtain ⟨b, hb, hkind'⟩ := ih₁ hwf hp hc
      exact ⟨b, hb, hkind'.trans hkind⟩

/-- The events that an effect records. -/
def Quiet (free : Bool) : Event → Prop
  | .fdRead _ _ | .handedOver _ _ | .received _ _ => False
  | .sent _ p => free = true ∨ p.command = .aClse ∨ p.command = .aOpen
  | .connected _ _ _ _ => free = true
  | _ => True

theorem quiet_of_closeEvent {T : List SocketRef} {e : Event} (h : CloseEvent st T e) :
    Quiet free e ∧ ∀ p, Event.about e = some p → p ∈ T := by
  cases e with
  | sent t p =>
      have hclse : p.command = .aClse := h
      simp [Quiet, Event.about, hclse]
  | closeCalled s =>
      have hs : s ∈ T := h
      exact ⟨trivial, by rintro p ⟨⟩; exact hs⟩
  | replied s r | fdClosed s | movedToClosing s q =>
      have hs : s ∈ T := h.1
      exact ⟨trivial, by rintro p ⟨⟩; exact hs⟩
  | _ => exact h.elim

theorem quiet_of_noted {e : Event} (h : Noted free st e) : Quiet free e := by
  cases e with
  | connected s i j t => exact h
  | readyCalled | enqueueCalled | fdWriteFailed | replied | fdWrote => trivial
  | _ => exact h.elim

theorem Effect.emits (h : Effect free T R st st') (hwf : WellFormed st) :
    Emits (fun e => Quiet free e ∧ ∀ p, Event.about e = some p → T p) st st' := by
  induction h with
  | same h => exact .refl h.trace
  | note hnoted habout => exact .single rfl ⟨quiet_of_noted hnoted, fun p hp => (habout p hp).1⟩
  | send t hp => exact .single rfl ⟨hp, by simp [Event.about]⟩
  | update | allocate | install | link | track => exact .refl rfl
  | close hs _ hT =>
      refine (hwf.asocketClose_closed hs).emits.mono fun e he => ?_
      obtain ⟨hquiet, habout⟩ := quiet_of_closeEvent he
      exact ⟨hquiet, fun p hp => hT p (habout p hp)⟩
  | trans h₁ _ ih₁ ih₂ => exact (ih₁ hwf).trans (ih₂ (h₁.wellFormed hwf))

end Rules

section Primitives

variable {free : Bool} {T : SocketRef → Prop} {R : TransportRef → Prop} {st : Sockets}

theorem check_orElse {halted : Option Halt} {reason : Halt} (hreason : reason ≠ .check)
    (h : (halted <|> some reason) = some .check) : halted = some .check := by
  cases halted with
  | none => exact absurd (Option.some.inj h) hreason
  | some _ => exact h

theorem check_haltWhen {condition : Bool} {reason : Halt} (hreason : reason ≠ .check)
    (h : (st.haltWhen condition reason).halted = some .check) : st.halted = some .check := by
  cases condition with
  | false => exact h
  | true => exact check_orElse hreason h

theorem effect_halt (reason : Halt) (hreason : reason ≠ .check := by decide) :
    Effect free T R st (st.halt reason) :=
  .same ⟨rfl, rfl, rfl, ⟨rfl, rfl⟩, rfl, rfl, rfl, ⟨rfl, rfl⟩, check_orElse hreason⟩

theorem effect_reply {s : SocketRef} (hT : T s) (hactive : Active st s) (r : Reply) :
    Effect free T R st (st.reply s r) :=
  .note trivial (by rintro p ⟨⟩; exact ⟨hT, hactive⟩)

theorem effect_sendOn (t : Option TransportRef) {p : Apacket}
    (hp : free = true ∨ p.command = .aClse ∨ p.command = .aOpen) :
    Effect free T R st (sendOn st t p) := by
  cases t with
  | none => exact effect_halt _
  | some t => exact .send t hp

theorem effect_afterWrite {α : Type} {s : SocketRef} {a : Asocket} (hs : st.heap s = some a)
    (hT : T s) (hactive : Active st s) (hattached : free = true ∨ ¬ Attached st s)
    (out : Written α) : Effect free T R st (st.afterWrite s out) := by
  have hnote : Effect free T R st (st.record (.fdWrote s out.bytes)) :=
    .note ⟨by simp [hs], hattached⟩ (by rintro p ⟨⟩; exact ⟨hT, hactive⟩)
  exact hnote.trans (.same ⟨rfl, rfl, rfl, ⟨rfl, rfl⟩, rfl, rfl, rfl, ⟨rfl, rfl⟩, id⟩)

theorem effect_modify {s : SocketRef} {f : Asocket → Asocket} (hT : T s)
    (hf : ∀ a, st.heap s = some a → Update free R st s a (f a)) :
    Effect free T R st (st.modify s f) := by
  cases hs : st.heap s with
  | none =>
      refine .same ⟨?_, rfl, rfl, ⟨rfl, rfl⟩, rfl, rfl, rfl, ⟨rfl, rfl⟩, id⟩
      simp [Sockets.modify, hs]
  | some a => exact .update hs hT (hf a hs)

theorem effect_asocketClose {s : SocketRef} (hactive : Active st s)
    (hT : ∀ p ∈ withPeer st s, T p) : Effect free T R st (asocketClose st s) := by
  cases hs : st.heap s with
  | none =>
      have hnone : asocketClose st s = st.halt .fault := by
        simp [asocketClose, asocketCloseFuel, hs]
      rw [hnone]
      exact effect_halt _
  | some a => exact .close hs (hactive a hs) hT

end Primitives

theorem self_mem_withPeer (st : Sockets) (s : SocketRef) : s ∈ withPeer st s := by
  simp [withPeer]

example :
    let joined := ((createSmartSocket (createLocalSocket .initial).2).2.modify 0
      fun a => { a with peer := some 1 }).modify 1 fun a => { a with peer := some 0 }
    withPeer joined 0 = [0, 1] ∧ withPeer joined 1 = [1, 0] ∧
      withPeer (asocketClose joined 1) 0 = [0] := by
  decide +kernel

theorem withPeer_congr {st st' : Sockets} {s : SocketRef} (h : st'.peerOf s = st.peerOf s) :
    withPeer st' s = withPeer st s := by
  rw [withPeer, h, withPeer]

theorem peerOf_modify_self {st : Sockets} {s : SocketRef} {f : Asocket → Asocket}
    (hf : ∀ a, st.heap s = some a → (f a).peer = a.peer) :
    (st.modify s f).peerOf s = st.peerOf s := by
  cases hs : st.heap s with
  | none => simp [Sockets.peerOf, Sockets.modify, hs]
  | some a => simp [Sockets.peerOf, Sockets.modify, hs, hf a hs]

theorem mem_withPeer_peer {st : Sockets} (h : WellFormed st) {s q p : SocketRef}
    (hq : st.peerOf s = some q) : p ∈ withPeer st q ↔ p ∈ withPeer st s := by
  simp only [mem_withPeer, h.peerOf_symm hq, hq, Option.some.injEq]
  exact ⟨fun hp => hp.elim (fun h => .inr h.symm) fun h => .inl h.symm,
    fun hp => hp.elim (fun h => .inr h.symm) fun h => .inl h.symm⟩

theorem active_of_peer {st : Sockets} (h : WellFormed st) {s q : SocketRef}
    (hq : st.peerOf s = some q) : Active st s := by
  intro a ha
  obtain ⟨a', ha', hpeer⟩ := peerOf_eq_some.mp hq
  obtain rfl : a = a' := by simpa [ha] using ha'
  cases hclosing : a.closing with
  | false => rfl
  | true =>
      have hnone := ((h.socket s a ha).closing hclosing).2
      simp [hnone] at hpeer

theorem active_peer {st : Sockets} (h : WellFormed st) {s q : SocketRef}
    (hq : st.peerOf s = some q) : Active st q :=
  active_of_peer h (h.peerOf_symm hq)

theorem active_modify {st : Sockets} {s : SocketRef} {f : Asocket → Asocket}
    (h : Active st s) (hf : ∀ a, (f a).closing = a.closing) : Active (st.modify s f) s := by
  intro a ha
  cases hs : st.heap s with
  | none => simp [Sockets.modify, hs] at ha
  | some b =>
      obtain rfl : f b = a := by simpa [Sockets.modify, hs] using ha
      rw [hf, h b hs]

theorem attached_modify {st : Sockets} {p s : SocketRef} {f : Asocket → Asocket}
    (hpeer : ∀ a, (f a).peer = a.peer)
    (hkind : ∀ a, (f a).kind = .remote ↔ a.kind = .remote) :
    Attached (st.modify p f) s ↔ Attached st s := by
  have hpeerOf : (st.modify p f).peerOf s = st.peerOf s := by
    by_cases hs : s = p
    · subst hs
      exact peerOf_modify_self fun a _ => hpeer a
    · simp [Sockets.peerOf, Sockets.modify, hs]
  have hkindOf : ∀ q, (st.modify p f).kindOf q = some .remote ↔
      st.kindOf q = some .remote := by
    intro q
    by_cases hq : q = p
    · subst hq
      cases h : st.heap q <;> simp [Sockets.kindOf, Sockets.modify, h, hkind]
    · simp [Sockets.kindOf, Sockets.modify, hq]
  simp only [Attached, hpeerOf, hkindOf]

theorem update_of_same {free : Bool} {R : TransportRef → Prop} {st : Sockets} {s : SocketRef}
    {a a' : Asocket} (h : SocketOk st s a) (hactive : a.closing = false)
    (hattached : free = true ∨ ¬ Attached st s) (hremote : a.kind ≠ .remote)
    (hkind : a'.kind = a.kind) (hpeer : a'.peer = a.peer) (hid : a'.id = a.id)
    (hclosing : a'.closing = a.closing) (hpkts : a'.pkts = a.pkts) (hfde : a'.fde = a.fde)
    (htransport : a'.transport = a.transport) : Update free R st s a a' := by
  refine ⟨.of_kind hkind hpeer hid hclosing ?_ ?_ ?_, hactive, hremote, hattached,
    .inl htransport, .inr fun _ => .inl hpkts⟩
  · rw [hpkts, hfde]
    exact h.queue
  · rw [hfde]
    exact h.fde
  · rw [htransport]
    exact h.transport

end Adb.SocketEffects
