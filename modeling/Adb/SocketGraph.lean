import Adb.SocketClosing
import Adb.SmartSockets

/-!
The invariant of the socket table between two callbacks, and the changes that
keep it: updates of one socket, new sockets, new links, and closing.
-/

namespace Adb.SocketGraph

open Adb.DescriptorIo
open Adb.EventInterest
open Adb.WirePackets
open Adb.SocketTable
open Adb.SocketOperations
open Adb.SmartSockets
open Adb.SocketClosing

/-- Which kinds of sockets are ever connected to each other. -/
def Compatible : SocketKind → SocketKind → Bool
  | .localSocket, .localSocket | .localSocket, .remote | .localSocket, .smart
  | .localSocket, .deviceTracker | .localNotify, .remote
  | .remote, .localSocket | .remote, .localNotify | .remote, .jdwp | .remote, .jdwpTracker
  | .smart, .localSocket | .deviceTracker, .localSocket
  | .jdwp, .remote | .jdwpTracker, .remote => true
  | _, _ => false

theorem compatible_symm {k k' : SocketKind} (h : Compatible k k' = true) :
    Compatible k' k = true := by
  cases k <;> cases k' <;> simp_all [Compatible]

/-- What holds of one live socket. -/
structure SocketOk (st : Sockets) (s : SocketRef) (a : Asocket) : Prop where
  fresh : s < st.nextRef
  peer : ∀ q, a.peer = some q → q ≠ s ∧
    ∃ b, st.heap q = some b ∧ b.peer = some s ∧ Compatible a.kind b.kind = true
  closing : a.closing = true → a.kind = .localSocket ∧ a.peer = none
  queue : SocketKind.isLocal a.kind = true → a.pkts ≠ [] → a.fde.state.write = true
  fde : a.fde.Sound
  id : SocketKind.isListed a.kind = true → a.closing = false →
    0 < a.id ∧ a.id < st.localSocketNextId
  transport : a.kind = .remote → a.transport.isSome = true

/-- The socket table is well formed: every live socket is, the two lists hold
exactly the sockets that belong there, and ids are unique. -/
structure WellFormed (st : Sockets) : Prop where
  socket : ∀ s a, st.heap s = some a → SocketOk st s a
  listed : ∀ s, s ∈ st.localSocketList ↔
    ∃ a, st.heap s = some a ∧ SocketKind.isListed a.kind = true ∧ a.closing = false
  closing : ∀ s, s ∈ st.localSocketClosingList ↔
    ∃ a, st.heap s = some a ∧ a.closing = true
  idInj : ∀ s s' a a', st.heap s = some a → st.heap s' = some a' →
    s ∈ st.localSocketList → s' ∈ st.localSocketList → a.id = a'.id → s = s'
  counter : 0 < st.localSocketNextId

theorem wellFormed_initial : WellFormed .initial := by
  constructor <;> simp [Sockets.initial]

theorem WellFormed.congr {st st' : Sockets} (h : WellFormed st)
    (hheap : st'.heap = st.heap) (hlist : st'.localSocketList = st.localSocketList)
    (hclosing : st'.localSocketClosingList = st.localSocketClosingList)
    (hcounters : SameCounters st st') : WellFormed st' := by
  obtain ⟨hsocket, hlisted, hclosing', hid, hcounter⟩ := h
  refine ⟨?_, ?_, ?_, ?_, hcounters.nextId ▸ hcounter⟩
  · intro s a hs
    rw [hheap] at hs
    obtain ⟨h₁, h₂, h₃, h₄, h₅, h₆, h₇⟩ := hsocket s a hs
    exact ⟨hcounters.nextRef ▸ h₁, hheap ▸ h₂, h₃, h₄, h₅, hcounters.nextId ▸ h₆, h₇⟩
  · rw [hheap, hlist]
    exact hlisted
  · rw [hheap, hclosing]
    exact hclosing'
  · rw [hheap, hlist]
    exact hid

theorem WellFormed.placed {st : Sockets} (h : WellFormed st) {s : SocketRef} {a : Asocket}
    (hs : st.heap s = some a) : Placed st s a := by
  constructor
  · intro hlisted
    by_cases hclosing : a.closing = true
    · exact .inr ((h.closing s).mpr ⟨a, hs, hclosing⟩)
    · exact .inl ((h.listed s).mpr ⟨a, hs, hlisted, by simpa using hclosing⟩)
  · intro hlisted
    constructor
    · intro hmem
      obtain ⟨a', hs', hlisted', -⟩ := (h.listed s).mp hmem
      obtain rfl : a = a' := by simpa [hs] using hs'
      simp [hlisted] at hlisted'
    · intro hmem
      obtain ⟨a', hs', hclosing⟩ := (h.closing s).mp hmem
      obtain rfl : a = a' := by simpa [hs] using hs'
      simp [((h.socket s a hs).closing hclosing).1, SocketKind.isListed] at hlisted

theorem SocketOk.frame {st st' : Sockets} {s : SocketRef} {a : Asocket} (h : SocketOk st s a)
    (hrefs : st.nextRef ≤ st'.nextRef) (hids : st.localSocketNextId ≤ st'.localSocketNextId)
    (hpeer : ∀ q, a.peer = some q → st'.heap q = st.heap q) : SocketOk st' s a := by
  refine ⟨Nat.lt_of_lt_of_le h.fresh hrefs, ?_, h.closing, h.queue, h.fde, ?_, h.transport⟩
  · intro q hq
    obtain ⟨hne, b, hb, hlinked⟩ := h.peer q hq
    exact ⟨hne, b, by rw [hpeer q hq, hb], hlinked⟩
  · intro hlisted hclosing
    obtain ⟨hpos, hlt⟩ := h.id hlisted hclosing
    exact ⟨hpos, Nat.lt_of_lt_of_le hlt hids⟩

/-- The sockets that an operation on `s` may touch. -/
def withPeer (st : Sockets) (s : SocketRef) : List SocketRef :=
  s :: (st.peerOf s).toList

theorem WellFormed.asocketClose_closed {st : Sockets} (h : WellFormed st) {s : SocketRef}
    {a : Asocket} (hs : st.heap s = some a) :
    Closed (withPeer st s) st (asocketClose st s) := by
  cases hpeer : a.peer with
  | none =>
      have hT : withPeer st s = [s] := by simp [withPeer, Sockets.peerOf, hs, hpeer]
      rw [hT]
      exact asocketClose_closed_alone hs hpeer (h.placed hs)
  | some q =>
      have hT : withPeer st s = [s, q] := by simp [withPeer, Sockets.peerOf, hs, hpeer]
      obtain ⟨hne, b, hq, -, -⟩ := (h.socket s a hs).peer q hpeer
      rw [hT]
      exact asocketClose_closed_pair hs hpeer hne.symm hq (h.placed hs) (h.placed hq)

theorem remains_eq_some {a r : Asocket} (h : remains a = some r) :
    SocketKind.isLocal a.kind = true ∧ a.closing = false ∧ a.hasWriteError = false ∧
      a.pkts ≠ [] ∧ r = { a with
        kind := .localSocket
        id := 0
        closing := true
        peer := none
        fde := fdeventDel a.fde .fdeRead } := by
  unfold remains at h
  split at h
  · rename_i hkeep
    simp only [Bool.and_eq_true, Bool.not_eq_true', Bool.or_eq_false_iff,
      List.isEmpty_eq_false_iff] at hkeep
    exact ⟨hkeep.1, hkeep.2.1.1, hkeep.2.1.2, hkeep.2.2, (Option.some.inj h).symm⟩
  · simp at h

example :
    (remains { Asocket.blank .localSocket with id := 7, peer := some 3, pkts := [[65, 66]] }).map
        (fun r => (r.id, r.closing, r.peer, r.pkts)) = some (0, true, none, [[65, 66]]) ∧
      remains { Asocket.blank .smart with pkts := [[65, 66]] } = none := by
  decide +kernel

section Closed

variable {st st' : Sockets} {T : List SocketRef} (hclosed : Closed T st st')

include hclosed

theorem closed_inside {p : SocketRef} {r : Asocket} (hp : p ∈ T) (hr : st'.heap p = some r) :
    ∃ a, st.heap p = some a ∧ remains a = some r := by
  rw [hclosed.heap, if_pos hp] at hr
  exact Option.bind_eq_some_iff.mp hr

theorem closed_outside {p : SocketRef} (hp : p ∉ T) : st'.heap p = st.heap p := by
  rw [hclosed.heap, if_neg hp]

theorem closing_of_closed {p : SocketRef} {r : Asocket} (hp : p ∈ T)
    (hr : st'.heap p = some r) : r.closing = true := by
  obtain ⟨a, -, hremains⟩ := closed_inside hclosed hp hr
  obtain ⟨-, -, -, -, rfl⟩ := remains_eq_some hremains
  rfl

theorem socketOk_of_closed {p : SocketRef} {a r : Asocket} (h : SocketOk st p a)
    (hremains : remains a = some r) : SocketOk st' p r := by
  obtain ⟨hlocal, -, -, hpkts, rfl⟩ := remains_eq_some hremains
  refine ⟨hclosed.counters.nextRef ▸ h.fresh, by simp, by simp, ?_, h.fde.fdeventDel _, by simp,
    by simp⟩
  intro _ _
  simpa [EventMask.diff, EventMask.fdeRead, EventMask.empty] using h.queue hlocal hpkts

/-- Closing keeps the table well formed, when links do not leave the set of
closed sockets. -/
theorem WellFormed.closed (h : WellFormed st)
    (hT : ∀ p a q, st.heap p = some a → a.peer = some q → (p ∈ T ↔ q ∈ T)) :
    WellFormed st' := by
  have hcounters := hclosed.counters
  refine ⟨?_, ?_, ?_, ?_, hcounters.nextId ▸ h.counter⟩
  · intro p a ha
    by_cases hp : p ∈ T
    · obtain ⟨b, hb, hremains⟩ := closed_inside hclosed hp ha
      exact socketOk_of_closed hclosed (h.socket p b hb) hremains
    · rw [closed_outside hclosed hp] at ha
      refine (h.socket p a ha).frame hcounters.nextRef.ge hcounters.nextId.ge fun q hq => ?_
      exact closed_outside hclosed fun hmem => hp ((hT p a q ha hq).mpr hmem)
  · intro p
    rw [hclosed.listed, h.listed]
    constructor
    · rintro ⟨⟨a, ha, hlisted, hclosing⟩, hp⟩
      exact ⟨a, by rw [closed_outside hclosed hp, ha], hlisted, hclosing⟩
    · rintro ⟨a, ha, hlisted, hclosing⟩
      have hp : p ∉ T := fun hmem => by
        simp [closing_of_closed hclosed hmem ha] at hclosing
      exact ⟨⟨a, by rw [← closed_outside hclosed hp, ha], hlisted, hclosing⟩, hp⟩
  · intro p
    rw [hclosed.closing, h.closing]
    constructor
    · rintro (⟨⟨a, ha, hclosing⟩, hp⟩ | ⟨hp, hsome⟩)
      · exact ⟨a, by rw [closed_outside hclosed hp, ha], hclosing⟩
      · obtain ⟨r, hr⟩ := Option.isSome_iff_exists.mp hsome
        have hr' : st'.heap p = some r := by rw [hclosed.heap, if_pos hp, hr]
        exact ⟨r, hr', closing_of_closed hclosed hp hr'⟩
    · rintro ⟨a, ha, hclosing⟩
      by_cases hp : p ∈ T
      · refine .inr ⟨hp, ?_⟩
        rw [hclosed.heap, if_pos hp] at ha
        simp [ha]
      · exact .inl ⟨⟨a, by rw [← closed_outside hclosed hp, ha], hclosing⟩, hp⟩
  · intro p p' a a' ha ha' hp hp' hid
    obtain ⟨hp, hpT⟩ := (hclosed.listed p).mp hp
    obtain ⟨hp', hpT'⟩ := (hclosed.listed p').mp hp'
    rw [closed_outside hclosed hpT] at ha
    rw [closed_outside hclosed hpT'] at ha'
    exact h.idInj p p' a a' ha ha' hp hp' hid

end Closed

theorem mem_withPeer {st : Sockets} {s p : SocketRef} :
    p ∈ withPeer st s ↔ p = s ∨ st.peerOf s = some p := by
  simp [withPeer, eq_comm]

theorem peerOf_eq_some {st : Sockets} {s q : SocketRef} :
    st.peerOf s = some q ↔ ∃ a, st.heap s = some a ∧ a.peer = some q := by
  simp [Sockets.peerOf, Option.bind_eq_some_iff]

theorem WellFormed.peerOf_symm {st : Sockets} (h : WellFormed st) {s q : SocketRef}
    (hq : st.peerOf s = some q) : st.peerOf q = some s := by
  obtain ⟨a, ha, hpeer⟩ := peerOf_eq_some.mp hq
  obtain ⟨-, b, hb, hback, -⟩ := (h.socket s a ha).peer q hpeer
  exact peerOf_eq_some.mpr ⟨b, hb, hback⟩

theorem WellFormed.withPeer_linked {st : Sockets} (h : WellFormed st) (s : SocketRef)
    (p : SocketRef) (a : Asocket) (q : SocketRef) (hp : st.heap p = some a)
    (hq : a.peer = some q) : p ∈ withPeer st s ↔ q ∈ withPeer st s := by
  have hpq : st.peerOf p = some q := peerOf_eq_some.mpr ⟨a, hp, hq⟩
  have hqp : st.peerOf q = some p := h.peerOf_symm hpq
  rw [mem_withPeer, mem_withPeer]
  constructor
  · rintro (rfl | hs)
    · exact .inr hpq
    · have hback := h.peerOf_symm hs
      rw [hpq] at hback
      exact .inl (Option.some.inj hback)
  · rintro (rfl | hs)
    · exact .inr hqp
    · have hback := h.peerOf_symm hs
      rw [hqp] at hback
      exact .inl (Option.some.inj hback)

theorem WellFormed.asocketClose {st : Sockets} (h : WellFormed st) {s : SocketRef}
    {a : Asocket} (hs : st.heap s = some a) : WellFormed (asocketClose st s) :=
  h.closed (h.asocketClose_closed hs) (h.withPeer_linked s)

/-- Only the two kinds of local sockets turn into each other. -/
def SameKind (k k' : SocketKind) : Prop :=
  k' = k ∨ (SocketKind.isLocal k = true ∧ SocketKind.isLocal k' = true)

theorem SameKind.trans {k₁ k₂ k₃ : SocketKind} (h₁ : SameKind k₁ k₂) (h₂ : SameKind k₂ k₃) :
    SameKind k₁ k₃ := by
  rcases h₂ with rfl | ⟨h₂, h₃⟩
  · exact h₁
  · rcases h₁ with rfl | ⟨h₁, -⟩
    · exact .inr ⟨h₂, h₃⟩
    · exact .inr ⟨h₁, h₃⟩

theorem SameKind.of_not_local {k k' : SocketKind} (h : SameKind k k')
    (hk : SocketKind.isLocal k = false) : k' = k := by
  rcases h with rfl | ⟨hlocal, -⟩
  · rfl
  · simp [hlocal] at hk

/-- What an update of one socket has to respect. -/
structure Respects (a a' : Asocket) : Prop where
  peer : a'.peer = a.peer
  id : a'.id = a.id
  closing : a'.closing = a.closing
  listed : SocketKind.isListed a'.kind = SocketKind.isListed a.kind
  compatible : ∀ k, Compatible a.kind k = true → Compatible a'.kind k = true
  closingKind : a.closing = true → a.kind = .localSocket → a'.kind = .localSocket
  queue : SocketKind.isLocal a'.kind = true → a'.pkts ≠ [] → a'.fde.state.write = true
  fde : a'.fde.Sound
  transport : a'.kind = .remote → a'.transport.isSome = true
  kind : SameKind a.kind a'.kind

theorem Respects.of_kind {a a' : Asocket} (hkind : a'.kind = a.kind)
    (hpeer : a'.peer = a.peer) (hid : a'.id = a.id) (hclosing : a'.closing = a.closing)
    (hqueue : SocketKind.isLocal a.kind = true → a'.pkts ≠ [] → a'.fde.state.write = true)
    (hfde : a'.fde.Sound)
    (htransport : a.kind = .remote → a'.transport.isSome = true) : Respects a a' :=
  ⟨hpeer, hid, hclosing, by rw [hkind], fun _ hk => by rw [hkind]; exact hk,
    fun _ hk => by rw [hkind]; exact hk, by rw [hkind]; exact hqueue, hfde,
    by rw [hkind]; exact htransport, .inl hkind⟩

theorem Respects.of_socketOk {st : Sockets} {s : SocketRef} {a : Asocket}
    (h : SocketOk st s a) : Respects a a :=
  .of_kind rfl rfl rfl rfl h.queue h.fde h.transport

/-- A socket that notified its client becomes a plain one. -/
theorem Respects.plain {st : Sockets} {s : SocketRef} {a : Asocket}
    (h : SocketOk st s a) (hkind : a.kind = .localNotify) :
    Respects a { a with kind := .localSocket } := by
  refine ⟨rfl, rfl, rfl, ?_, ?_, fun _ _ => rfl, ?_, h.fde, by simp,
    .inr (by simp [hkind, SocketKind.isLocal])⟩
  · simp [hkind, SocketKind.isListed]
  · intro k hk
    rw [hkind] at hk
    cases k <;> simp_all [Compatible]
  · intro _ hpkts
    exact h.queue (by simp [hkind, SocketKind.isLocal]) hpkts

/-- What decides on which list a socket is, and under which id. -/
structure SamePlace (a a' : Asocket) : Prop where
  id : a'.id = a.id
  closing : a'.closing = a.closing
  listed : SocketKind.isListed a'.kind = SocketKind.isListed a.kind

theorem Respects.place {a a' : Asocket} (h : Respects a a') : SamePlace a a' :=
  ⟨h.id, h.closing, h.listed⟩

/-- The cells of a table are replaced, and every socket stays in its place. -/
structure Rewritten (g : SocketRef → Asocket → Asocket) (st st' : Sockets) : Prop where
  heap : ∀ p, st'.heap p = (st.heap p).map (g p)
  place : ∀ p a, st.heap p = some a → SamePlace a (g p a)
  list : st'.localSocketList = st.localSocketList
  closingList : st'.localSocketClosingList = st.localSocketClosingList
  counters : SameCounters st st'

section Rewritten

variable {st st' : Sockets} {g : SocketRef → Asocket → Asocket}

theorem Rewritten.later (hg : Rewritten g st st') {p : SocketRef} {a : Asocket}
    (ha : st.heap p = some a) : st'.heap p = some (g p a) := by
  rw [hg.heap, ha]
  rfl

theorem Rewritten.earlier (hg : Rewritten g st st') {p : SocketRef} {a' : Asocket}
    (ha' : st'.heap p = some a') : ∃ a, st.heap p = some a ∧ g p a = a' := by
  rw [hg.heap] at ha'
  exact Option.map_eq_some_iff.mp ha'

theorem SamePlace.trans {a₁ a₂ a₃ : Asocket} (h₁ : SamePlace a₁ a₂) (h₂ : SamePlace a₂ a₃) :
    SamePlace a₁ a₃ :=
  ⟨h₂.id.trans h₁.id, h₂.closing.trans h₁.closing, h₂.listed.trans h₁.listed⟩

theorem Rewritten.trans {st₃ : Sockets} {g' : SocketRef → Asocket → Asocket}
    (h₁ : Rewritten g st st') (h₂ : Rewritten g' st' st₃) :
    Rewritten (fun p a => g' p (g p a)) st st₃ := by
  refine ⟨?_, ?_, h₂.list.trans h₁.list, h₂.closingList.trans h₁.closingList,
    h₁.counters.trans h₂.counters⟩
  · intro p
    rw [h₂.heap, h₁.heap, Option.map_map]
    rfl
  · intro p a ha
    exact (h₁.place p a ha).trans (h₂.place p _ (h₁.later ha))

/-- After a rewrite only the sockets themselves are left to be looked at. -/
theorem WellFormed.rewritten (h : WellFormed st) (hg : Rewritten g st st')
    (hsocket : ∀ p a, st.heap p = some a → SocketOk st' p (g p a)) : WellFormed st' := by
  refine ⟨?_, ?_, ?_, ?_, hg.counters.nextId ▸ h.counter⟩
  · intro p a' ha'
    obtain ⟨a, ha, rfl⟩ := hg.earlier ha'
    exact hsocket p a ha
  · intro p
    rw [hg.list, h.listed]
    constructor
    · rintro ⟨a, ha, hlisted, hclosing⟩
      have hplace := hg.place p a ha
      exact ⟨g p a, hg.later ha, hplace.listed.trans hlisted, hplace.closing.trans hclosing⟩
    · rintro ⟨a', ha', hlisted, hclosing⟩
      obtain ⟨a, ha, rfl⟩ := hg.earlier ha'
      have hplace := hg.place p a ha
      exact ⟨a, ha, hplace.listed.symm.trans hlisted, hplace.closing.symm.trans hclosing⟩
  · intro p
    rw [hg.closingList, h.closing]
    constructor
    · rintro ⟨a, ha, hclosing⟩
      exact ⟨g p a, hg.later ha, (hg.place p a ha).closing.trans hclosing⟩
    · rintro ⟨a', ha', hclosing⟩
      obtain ⟨a, ha, rfl⟩ := hg.earlier ha'
      exact ⟨a, ha, (hg.place p a ha).closing.symm.trans hclosing⟩
  · intro p q a' b' ha' hb' hp hq hid
    obtain ⟨a, ha, rfl⟩ := hg.earlier ha'
    obtain ⟨b, hb, rfl⟩ := hg.earlier hb'
    rw [hg.list] at hp hq
    exact h.idInj p q a b ha hb hp hq
      ((hg.place p a ha).id.symm.trans (hid.trans (hg.place q b hb).id))

theorem SocketOk.rewritten (hg : Rewritten g st st') {p : SocketRef} {a : Asocket}
    (ha : st.heap p = some a) (h : SocketOk st p a)
    (hpeer : ∀ q, (g p a).peer = some q → q ≠ p ∧ ∃ b, st'.heap q = some b ∧
      b.peer = some p ∧ Compatible (g p a).kind b.kind = true)
    (hclosing : (g p a).closing = true → (g p a).kind = .localSocket ∧ (g p a).peer = none)
    (hqueue : SocketKind.isLocal (g p a).kind = true → (g p a).pkts ≠ [] →
      (g p a).fde.state.write = true)
    (hfde : (g p a).fde.Sound)
    (htransport : (g p a).kind = .remote → (g p a).transport.isSome = true) :
    SocketOk st' p (g p a) := by
  have hplace := hg.place p a ha
  refine ⟨hg.counters.nextRef ▸ h.fresh, hpeer, hclosing, hqueue, hfde, ?_, htransport⟩
  intro hlisted hactive
  rw [hplace.id, hg.counters.nextId]
  exact h.id (hplace.listed ▸ hlisted) (hplace.closing ▸ hactive)

/-- When every cell is respected, all links stay. -/
theorem WellFormed.respected (h : WellFormed st) (hg : Rewritten g st st')
    (hrespects : ∀ p a, st.heap p = some a → Respects a (g p a)) : WellFormed st' := by
  refine h.rewritten hg fun p a ha => ?_
  have hf := hrespects p a ha
  have hok := h.socket p a ha
  refine hok.rewritten hg ha ?_ ?_ hf.queue hf.fde hf.transport
  · intro q hq
    obtain ⟨hne, b, hb, hback, hkinds⟩ := hok.peer q (hf.peer ▸ hq)
    have hf' := hrespects q b hb
    refine ⟨hne, g q b, hg.later hb, hf'.peer.trans hback, hf.compatible _ ?_⟩
    exact compatible_symm (hf'.compatible _ (compatible_symm hkinds))
  · intro hclosing
    rw [hf.closing] at hclosing
    obtain ⟨hkind, hpeer⟩ := hok.closing hclosing
    exact ⟨hf.closingKind hclosing hkind, hf.peer.trans hpeer⟩

end Rewritten

theorem rewritten_modify {st : Sockets} {s : SocketRef} {a : Asocket} {f : Asocket → Asocket}
    (hs : st.heap s = some a) (hplace : SamePlace a (f a)) :
    Rewritten (fun p b => if p = s then f b else b) st (st.modify s f) := by
  refine ⟨?_, ?_, rfl, rfl, ⟨rfl, rfl⟩⟩
  · intro p
    by_cases hp : p = s
    · subst hp
      simp [Sockets.modify]
    · simp [Sockets.modify, hp]
  · intro p b hb
    by_cases hp : p = s
    · subst hp
      obtain rfl : a = b := by simpa [hs] using hb
      simpa using hplace
    · simpa [hp] using (⟨rfl, rfl, rfl⟩ : SamePlace b b)

theorem WellFormed.modify {st : Sockets} (h : WellFormed st) {s : SocketRef} {a : Asocket}
    (hs : st.heap s = some a) {f : Asocket → Asocket} (hf : Respects a (f a)) :
    WellFormed (st.modify s f) := by
  refine h.respected (rewritten_modify hs hf.place) fun p b hb => ?_
  by_cases hp : p = s
  · subst hp
    obtain rfl : a = b := by simpa [hs] using hb
    simpa using hf
  · simpa [hp] using Respects.of_socketOk (h.socket p b hb)

section NewObject

variable {st : Sockets} (h : WellFormed st)

include h

theorem WellFormed.ne_nextRef {p : SocketRef} {b : Asocket} (hb : st.heap p = some b) :
    p ≠ st.nextRef :=
  Nat.ne_of_lt (h.socket p b hb).fresh

theorem WellFormed.heap_nextRef : st.heap st.nextRef = none := by
  cases hn : st.heap st.nextRef with
  | none => rfl
  | some b => exact absurd rfl (h.ne_nextRef hn)

theorem WellFormed.ne_nextRef_of_mem {p : SocketRef} (hp : p ∈ st.localSocketList) :
    p ≠ st.nextRef := by
  obtain ⟨b, hb, -⟩ := (h.listed p).mp hp
  exact h.ne_nextRef hb

theorem WellFormed.id_lt_of_mem {p : SocketRef} {b : Asocket} (hp : p ∈ st.localSocketList)
    (hb : st.heap p = some b) : b.id < st.localSocketNextId := by
  obtain ⟨c, hc, hlisted, hclosing⟩ := (h.listed p).mp hp
  obtain rfl : b = c := by simpa [hb] using hc
  exact ((h.socket p b hb).id hlisted hclosing).2

/-- Nothing points at the address of a new object. -/
theorem WellFormed.frame_new (st' : Sockets) (hrefs : st.nextRef ≤ st'.nextRef)
    (hids : st.localSocketNextId ≤ st'.localSocketNextId)
    (hother : ∀ p, p ≠ st.nextRef → st'.heap p = st.heap p) {p : SocketRef} {b : Asocket}
    (hb : st.heap p = some b) : SocketOk st' p b := by
  refine (h.socket p b hb).frame hrefs hids fun q hq => ?_
  obtain ⟨-, c, hc, -⟩ := (h.socket p b hb).peer q hq
  exact hother q (h.ne_nextRef hc)

theorem WellFormed.allocate {a : Asocket} (hpeer : a.peer = none) (hclosing : a.closing = false)
    (hlisted : SocketKind.isListed a.kind = false) (hfde : a.fde.Sound)
    (htransport : a.kind = .remote → a.transport.isSome = true) :
    WellFormed (st.allocate a).2 := by
  have hother : ∀ p, p ≠ st.nextRef → (st.allocate a).2.heap p = st.heap p := by
    intro p hp
    simp [Sockets.allocate, hp]
  have hself : (st.allocate a).2.heap st.nextRef = some a := by simp [Sockets.allocate]
  have hlocal : SocketKind.isLocal a.kind = false := by
    cases hk : a.kind <;> simp_all [SocketKind.isListed, SocketKind.isLocal]
  refine ⟨?_, ?_, ?_, ?_, h.counter⟩
  · intro p b hb
    by_cases hp : p = st.nextRef
    · subst hp
      obtain rfl : a = b := by simpa [hself] using hb
      exact ⟨Nat.lt_succ_self _, by simp [hpeer], by simp [hclosing], by simp [hlocal], hfde,
        by simp [hlisted], htransport⟩
    · rw [hother p hp] at hb
      exact h.frame_new (st.allocate a).2 (Nat.le_succ _) (Nat.le_refl _) hother hb
  · intro p
    refine (h.listed p).trans ?_
    by_cases hp : p = st.nextRef
    · subst hp
      simp [hself, h.heap_nextRef, hlisted]
    · rw [hother p hp]
  · intro p
    refine (h.closing p).trans ?_
    by_cases hp : p = st.nextRef
    · subst hp
      simp [hself, h.heap_nextRef, hclosing]
    · rw [hother p hp]
  · intro p p' b b' hb hb' hp hp' hid
    rw [hother p (h.ne_nextRef_of_mem hp)] at hb
    rw [hother p' (h.ne_nextRef_of_mem hp')] at hb'
    exact h.idInj p p' b b' hb hb' hp hp' hid

theorem WellFormed.install {a : Asocket} (hpeer : a.peer = none) (hclosing : a.closing = false)
    (hpkts : a.pkts = []) (hlisted : SocketKind.isListed a.kind = true) (hfde : a.fde.Sound) :
    WellFormed (installLocalSocket (st.allocate a).2 st.nextRef) := by
  have hother : ∀ p, p ≠ st.nextRef →
      (installLocalSocket (st.allocate a).2 st.nextRef).heap p = st.heap p := by
    intro p hp
    simp [installLocalSocket, Sockets.haltWhen, Sockets.modify, Sockets.allocate, hp]
  have hself : (installLocalSocket (st.allocate a).2 st.nextRef).heap st.nextRef =
      some { a with id := st.localSocketNextId } := by
    simp [installLocalSocket, Sockets.haltWhen, Sockets.modify, Sockets.allocate]
  have hlist : (installLocalSocket (st.allocate a).2 st.nextRef).localSocketList =
      st.localSocketList ++ [st.nextRef] := rfl
  have hremote : a.kind ≠ .remote := by
    intro hk
    simp [hk, SocketKind.isListed] at hlisted
  refine ⟨?_, ?_, ?_, ?_, Nat.succ_pos _⟩
  · intro p b hb
    by_cases hp : p = st.nextRef
    · subst hp
      obtain rfl : { a with id := st.localSocketNextId } = b := by simpa [hself] using hb
      exact ⟨Nat.lt_succ_self _, by simp [hpeer], by simp [hclosing], by simp [hpkts], hfde,
        fun _ _ => ⟨h.counter, Nat.lt_succ_self _⟩, fun hk => absurd hk hremote⟩
    · rw [hother p hp] at hb
      exact h.frame_new _ (Nat.le_succ _) (Nat.le_succ _) hother hb
  · intro p
    rw [hlist, List.mem_append, h.listed]
    by_cases hp : p = st.nextRef
    · subst hp
      simp [hself, h.heap_nextRef, hlisted, hclosing]
    · rw [hother p hp]
      simp [hp]
  · intro p
    refine (h.closing p).trans ?_
    by_cases hp : p = st.nextRef
    · subst hp
      simp [hself, h.heap_nextRef, hclosing]
    · rw [hother p hp]
  · intro p p' b b' hb hb' hp hp' hid
    rw [hlist, List.mem_append, List.mem_singleton] at hp hp'
    rcases hp with hp | rfl <;> rcases hp' with hp' | rfl
    · rw [hother p (h.ne_nextRef_of_mem hp)] at hb
      rw [hother p' (h.ne_nextRef_of_mem hp')] at hb'
      exact h.idInj p p' b b' hb hb' hp hp' hid
    · rw [hother p (h.ne_nextRef_of_mem hp)] at hb
      obtain rfl : { a with id := st.localSocketNextId } = b' := by simpa [hself] using hb'
      exact absurd hid (Nat.ne_of_lt (h.id_lt_of_mem hp hb))
    · rw [hother p' (h.ne_nextRef_of_mem hp')] at hb'
      obtain rfl : { a with id := st.localSocketNextId } = b := by simpa [hself] using hb
      exact absurd hid.symm (Nat.ne_of_lt (h.id_lt_of_mem hp' hb'))
    · rfl

end NewObject

/-- A new cell for an active socket that stays in its place. -/
structure Replaces (a a' : Asocket) : Prop where
  place : SamePlace a a'
  active : a'.closing = false
  queue : SocketKind.isLocal a'.kind = true → a'.pkts ≠ [] → a'.fde.state.write = true
  fde : a'.fde.Sound
  transport : a'.kind = .remote → a'.transport.isSome = true

theorem SocketOk.replaces {st st' : Sockets} {g : SocketRef → Asocket → Asocket}
    (hg : Rewritten g st st') {p : SocketRef} {a : Asocket} (ha : st.heap p = some a)
    (h : SocketOk st p a) (hreplaces : Replaces a (g p a))
    (hpeer : ∀ q, (g p a).peer = some q → q ≠ p ∧ ∃ b, st'.heap q = some b ∧
      b.peer = some p ∧ Compatible (g p a).kind b.kind = true) : SocketOk st' p (g p a) :=
  h.rewritten hg ha hpeer (by simp [hreplaces.active]) hreplaces.queue hreplaces.fde
    hreplaces.transport

/-- Replacing the cells of two sockets.  The new cells may point at each other
or at nothing, and no other socket may point at them. -/
theorem WellFormed.setPair {st : Sockets} (h : WellFormed st) {s q : SocketRef} {a b : Asocket}
    {f g : Asocket → Asocket} (hne : s ≠ q) (hs : st.heap s = some a) (hq : st.heap q = some b)
    (hpeerS : ∀ p, a.peer = some p → p = q) (hpeerQ : ∀ p, b.peer = some p → p = s)
    (hreplacesS : Replaces a (f a)) (hreplacesQ : Replaces b (g b))
    (hlink : ((f a).peer = none ∧ (g b).peer = none) ∨
      ((f a).peer = some q ∧ (g b).peer = some s ∧ Compatible (f a).kind (g b).kind = true)) :
    WellFormed ((st.modify s f).modify q g) := by
  have hmodify := rewritten_modify hs hreplacesS.place
  have hq₁ : (st.modify s f).heap q = some b := by simpa [hne.symm] using hmodify.later hq
  have hg := hmodify.trans (rewritten_modify hq₁ hreplacesQ.place)
  have hs' : ((st.modify s f).modify q g).heap s = some (f a) := by
    simpa [hne] using hg.later hs
  have hq' : ((st.modify s f).modify q g).heap q = some (g b) := by
    simpa [hne.symm] using hg.later hq
  refine h.rewritten hg fun p c hc => ?_
  have hok := h.socket p c hc
  by_cases hps : p = s
  · subst hps
    obtain rfl : a = c := by simpa [hs] using hc
    refine hok.replaces hg hs (by simpa [hne] using hreplacesS) fun r hr => ?_
    simp only [hne, if_true, if_false] at hr ⊢
    rcases hlink with ⟨hnone, -⟩ | ⟨hsome, hback, hcompatible⟩
    · simp [hnone] at hr
    · obtain rfl : q = r := by simpa [hsome] using hr
      exact ⟨hne.symm, g b, hq', hback, hcompatible⟩
  · by_cases hpq : p = q
    · subst hpq
      obtain rfl : b = c := by simpa [hq] using hc
      refine hok.replaces hg hq (by simpa [hps] using hreplacesQ) fun r hr => ?_
      simp only [hps, if_true, if_false] at hr ⊢
      rcases hlink with ⟨-, hnone⟩ | ⟨hsome, hback, hcompatible⟩
      · simp [hnone] at hr
      · obtain rfl : s = r := by simpa [hback] using hr
        exact ⟨hne, f a, hs', hsome, compatible_symm hcompatible⟩
    · rw [if_neg hps, if_neg hpq]
      refine hok.frame (Nat.le_refl _) (Nat.le_refl _) fun r hr => ?_
      obtain ⟨-, d, hd, hback, -⟩ := hok.peer r hr
      have hrs : r ≠ s := by
        rintro rfl
        obtain rfl : a = d := by simpa [hs] using hd
        exact hpq (hpeerS p hback)
      have hrq : r ≠ q := by
        rintro rfl
        obtain rfl : b = d := by simpa [hq] using hd
        exact hps (hpeerQ p hback)
      simp [Sockets.modify, hrs, hrq]

end Adb.SocketGraph
