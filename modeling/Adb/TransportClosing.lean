import Adb.GraphInvariants
import Adb.TransportIsolation
import Mathlib.Data.List.Nodup
import Mathlib.Data.List.Perm.Subperm

/-!
`close_all_sockets`: the scan starts over after every close, because a close
takes other sockets off the list.
-/

namespace Adb.TransportClosing

open Adb.EventInterest
open Adb.GraphInvariants
open Adb.ServerRuns
open Adb.ServerState
open Adb.SocketTable
open Adb.SocketOperations
open Adb.SocketClosing
open Adb.SocketGraph
open Adb.TransitionSystems
open Adb.TransportIsolation
open Adb.WirePackets

/-- What the close functions rely on: the process does not end with the socket,
every queue waits for `FDE_WRITE`, and a remote socket has a transport. -/
structure Closable (a : Asocket) : Prop where
  stays : a.exitOnClose = false
  queue : SocketKind.isLocal a.kind = true → a.pkts ≠ [] → a.fde.state.write = true
  transport : a.kind = .remote → a.transport.isSome = true

section Running

variable {st : Sockets} {s q : SocketRef} {a b : Asocket}

theorem halted_localSocketFinish (hs : st.heap s = some a)
    (hlocal : SocketKind.isLocal a.kind = true) (ha : Closable a) :
    (localSocketFinish st s).halted = st.halted := by
  rw [localSocketFinish, hs]
  dsimp only
  split
  · rw [localSocketDestroy, hs]
    simp [Sockets.haltWhen, Sockets.release, removeSocket, Sockets.record, ha.stays]
  · rename_i hstays
    have hpkts : a.pkts ≠ [] := by
      rintro hnil
      simp [hnil] at hstays
    simp [Sockets.haltWhen, removeSocket, Sockets.record, Sockets.modify, ha.queue hlocal hpkts]

theorem halted_freeSocket (kind : SocketKind) (st : Sockets) (s : SocketRef) :
    (freeSocket kind st s).halted = st.halted := by
  cases kind <;> rfl

theorem halted_asocketShutdown (hq : st.heap q = some b) (hb : Closable b) :
    (asocketShutdown st q).halted = st.halted := by
  rw [asocketShutdown]
  split
  · rename_i hkind
    rw [Sockets.kindOf, hq, Option.map_some, Option.some.injEq] at hkind
    obtain ⟨t, ht⟩ := Option.isSome_iff_exists.mp (hb.transport hkind)
    rw [remoteSocketShutdown, hq]
    dsimp only
    rw [ht]
    rfl
  · rfl

theorem halted_detached (fuel : Nat) (hs : st.heap s = some a) (hpeer : a.peer = none)
    (ha : Closable a) : (asocketCloseFuel (fuel + 1) st s).halted = st.halted := by
  cases hlocal : SocketKind.isLocal a.kind with
  | false =>
      have hnone : (st.record (.closeCalled s)).peerOf s = none := by
        simp [Sockets.peerOf, Sockets.record, hs, hpeer]
      rw [asocketCloseFuel_of_not_local fuel hs hlocal, halted_freeSocket, closePeer, hnone]
      rfl
  | true =>
      rw [asocketCloseFuel]
      simp only [hs]
      cases hkind : a.kind with
      | localSocket =>
          have hnone : (st.record (.closeCalled s)).peerOf s = none := by
            simp [Sockets.peerOf, Sockets.record, hs, hpeer]
          simp only [localSocketClose, hnone]
          exact halted_localSocketFinish hs hlocal ha
      | localNotify =>
          have hcell : (((st.record (.closeCalled s)).modify s fun a =>
              { a with kind := .localSocket }).reply s (.fail (ascii "closed"))).heap s =
                some { a with kind := .localSocket } := by
            simp [Sockets.modify, Sockets.reply, Sockets.record, hs]
          simp only [localSocketCloseNotify, localSocketClose, Sockets.peerOf, hcell,
            Option.bind_some, hpeer]
          exact halted_localSocketFinish hcell rfl ⟨ha.stays, fun _ => ha.queue hlocal, by simp⟩
      | _ => simp [hkind, SocketKind.isLocal] at hlocal

theorem halted_closeUnlinked (fuel : Nat) (hq : st.heap q = some b) (hb : Closable b) :
    (asocketCloseFuel (fuel + 1) (st.modify q fun a => { a with peer := none }) q).halted =
      st.halted := by
  have hcell : (st.modify q fun a => { a with peer := none }).heap q =
      some { b with peer := none } := by
    simp [Sockets.modify, hq]
  rw [halted_detached fuel hcell rfl ⟨hb.stays, hb.queue, hb.transport⟩]
  rfl

theorem halted_localSocketClose (hs : st.heap s = some a) (hkind : a.kind = .localSocket)
    (hpeer : a.peer = some q) (hne : s ≠ q) (hq : st.heap q = some b) (hplaced : Placed st q b)
    (ha : Closable a) (hb : Closable b) :
    (localSocketClose (asocketCloseFuel 1) st s).halted = st.halted := by
  have hsome : st.peerOf s = some q := by simp [Sockets.peerOf, hs, hpeer]
  have hshutdown := prepared_asocketShutdown st [s, q] q
  have hq' : (asocketShutdown st q).heap q = some b := by rw [asocketShutdown_heap, hq]
  have hplaced' : Placed (asocketShutdown st q) q b :=
    hplaced.of_lists rfl (by rw [hshutdown.listed]) (by rw [hshutdown.closing])
  have hclosed := closeUnlinked_closed 0 hq' hplaced'
  have hhalted := halted_closeUnlinked 0 hq' hb
  rw [localSocketClose, hsome]
  dsimp only
  generalize asocketCloseFuel 1 _ q = st₂ at hclosed hhalted ⊢
  have hs₂ : st₂.heap s = some a := by
    rw [hclosed.heap, asocketShutdown_heap]
    simp [hne, hs]
  have hcell : (st₂.modify s fun a => { a with peer := none }).heap s =
      some { a with peer := none } := by
    simp [Sockets.modify, hs₂]
  have hlocal : SocketKind.isLocal a.kind = true := by simp [hkind, SocketKind.isLocal]
  rw [halted_localSocketFinish hcell hlocal ⟨ha.stays, ha.queue, ha.transport⟩]
  exact hhalted.trans (halted_asocketShutdown hq hb)

theorem halted_asocketClose_pair (hs : st.heap s = some a) (hpeer : a.peer = some q)
    (hne : s ≠ q) (hq : st.heap q = some b) (hplaced : Placed st q b) (ha : Closable a)
    (hb : Closable b) : (asocketClose st s).halted = st.halted := by
  have hq' : (st.record (.closeCalled s)).heap q = some b := hq
  have hplaced' : Placed (st.record (.closeCalled s)) q b :=
    hplaced.of_lists rfl Iff.rfl Iff.rfl
  rw [asocketClose]
  cases hlocal : SocketKind.isLocal a.kind with
  | false =>
      have hsome : (st.record (.closeCalled s)).peerOf s = some q := by
        simp [Sockets.peerOf, Sockets.record, hs, hpeer]
      rw [asocketCloseFuel_of_not_local 1 hs hlocal, halted_freeSocket, closePeer, hsome]
      exact halted_closeUnlinked 0 hq' hb
  | true =>
      rw [asocketCloseFuel]
      simp only [hs]
      cases hkind : a.kind with
      | localSocket => exact halted_localSocketClose hs hkind hpeer hne hq' hplaced' ha hb
      | localNotify =>
          have hs' : (((st.record (.closeCalled s)).modify s fun a =>
              { a with kind := .localSocket }).reply s (.fail (ascii "closed"))).heap s =
                some { a with kind := .localSocket } := by
            simp [Sockets.modify, Sockets.reply, Sockets.record, hs]
          have hq'' : (((st.record (.closeCalled s)).modify s fun a =>
              { a with kind := .localSocket }).reply s (.fail (ascii "closed"))).heap q =
                some b := by
            simp [Sockets.modify, Sockets.reply, Sockets.record, hq, hne.symm]
          exact halted_localSocketClose hs' rfl hpeer hne hq''
            (hplaced.of_lists rfl Iff.rfl Iff.rfl)
            ⟨ha.stays, fun _ => ha.queue hlocal, by simp⟩ hb
      | _ => simp [hkind, SocketKind.isLocal] at hlocal

end Running

/-- The table is well formed, the pointers stand for the lists, and no socket
ends the process. -/
structure Orderly (st : Sockets) : Prop where
  wellFormed : WellFormed st
  lists : ListsOk st
  stays : ∀ s a, st.heap s = some a → a.exitOnClose = false

section Rounds

variable {st : Sockets} {s : SocketRef} {t : TransportRef}

theorem Orderly.closable (h : Orderly st) {a : Asocket} (hs : st.heap s = some a) :
    Closable a :=
  ⟨h.stays s a hs, (h.wellFormed.socket s a hs).queue, (h.wellFormed.socket s a hs).transport⟩

theorem Orderly.halted_asocketClose (h : Orderly st) {a : Asocket} (hs : st.heap s = some a) :
    (asocketClose st s).halted = st.halted := by
  cases hpeer : a.peer with
  | none => exact halted_detached 1 hs hpeer (h.closable hs)
  | some q =>
      obtain ⟨hne, b, hq, -, -⟩ := (h.wellFormed.socket s a hs).peer q hpeer
      exact halted_asocketClose_pair hs hpeer hne.symm hq (h.wellFormed.placed hq)
        (h.closable hs) (h.closable hq)

theorem Orderly.asocketClose (h : Orderly st) {a : Asocket} (hs : st.heap s = some a)
    (hhalted : st.halted ≠ some .check) : Orderly (asocketClose st s) where
  wellFormed := h.wellFormed.asocketClose hs
  lists := (Checked.close ⟨h.lists, hhalted⟩ h.wellFormed s).lists
  stays p b hp := by
    rw [(h.wellFormed.asocketClose_closed hs).heap] at hp
    split at hp
    · obtain ⟨c, hc, hremains⟩ := Option.bind_eq_some_iff.mp hp
      obtain ⟨-, -, -, -, rfl⟩ := remains_eq_some hremains
      exact h.stays p c hc
    · exact h.stays p b hp

theorem related_iff : ((st.heap s).any fun a => a.transport = some t ||
    (a.peer.bind st.heap).any fun b => b.transport = some t) = true ↔ Belongs st s t := by
  simp only [Belongs, Option.any_eq_true, Bool.or_eq_true, decide_eq_true_eq,
    Option.bind_eq_some_iff]
  apply exists_congr
  intro a
  apply and_congr Iff.rfl
  apply or_congr Iff.rfl
  constructor
  · rintro ⟨b, ⟨q, hq, hb⟩, htransport⟩
    exact ⟨q, b, hq, hb, htransport⟩
  · rintro ⟨q, b, hq, hb, htransport⟩
    exact ⟨b, ⟨q, hq, hb⟩, htransport⟩

/-- Only sockets of `t` have been closed. -/
structure Spares (t : TransportRef) (st st' : Sockets) : Prop where
  heap : ∀ p, ¬ Belongs st p t → st'.heap p = st.heap p
  apart : ∀ p, ¬ Belongs st p t → ¬ Belongs st' p t
  opened : ∀ p, ¬ Belongs st p t → (p ∈ st'.localSocketList ↔ p ∈ st.localSocketList)
  closing : ∀ p, ¬ Belongs st p t →
    (p ∈ st'.localSocketClosingList ↔ p ∈ st.localSocketClosingList)

theorem Spares.refl (t : TransportRef) (st : Sockets) : Spares t st st :=
  ⟨fun _ _ => rfl, fun _ => id, fun _ _ => Iff.rfl, fun _ _ => Iff.rfl⟩

theorem Spares.trans {st₁ st₂ st₃ : Sockets} (h₁ : Spares t st₁ st₂) (h₂ : Spares t st₂ st₃) :
    Spares t st₁ st₃ where
  heap p hp := (h₂.heap p (h₁.apart p hp)).trans (h₁.heap p hp)
  apart p hp := h₂.apart p (h₁.apart p hp)
  opened p hp := (h₂.opened p (h₁.apart p hp)).trans (h₁.opened p hp)
  closing p hp := (h₂.closing p (h₁.apart p hp)).trans (h₁.closing p hp)

theorem spares_asocketClose (h : WellFormed st) {a : Asocket} (hs : st.heap s = some a)
    (hrelated : Belongs st s t) : Spares t st (asocketClose st s) := by
  have hclosed := h.asocketClose_closed hs
  have houtside : ∀ p, ¬ Belongs st p t → p ∉ withPeer st s := fun p hp hmem =>
    hp (belongs_withPeer h hmem hrelated)
  have hheap : ∀ p, ¬ Belongs st p t → (asocketClose st s).heap p = st.heap p := by
    intro p hp
    rw [hclosed.heap, if_neg (houtside p hp)]
  constructor
  · exact hheap
  · rintro p hp ⟨b, hb, hbelongs⟩
    rw [hheap p hp] at hb
    rcases hbelongs with htransport | ⟨q, c, hpeer, hc, htransport⟩
    · exact hp ⟨b, hb, .inl htransport⟩
    · have hq : q ∉ withPeer st s := fun hmem =>
        houtside p hp ((h.withPeer_linked s p b q hb hpeer).mpr hmem)
      rw [hclosed.heap, if_neg hq] at hc
      exact hp ⟨b, hb, .inr ⟨q, c, hpeer, hc, htransport⟩⟩
  · intro p hp
    rw [hclosed.listed]
    exact and_iff_left (houtside p hp)
  · intro p hp
    rw [hclosed.closing]
    simp [houtside p hp]

theorem Orderly.length_asocketClose (h : Orderly st) {a : Asocket} (hs : st.heap s = some a)
    (hmem : s ∈ st.localSocketList) (hhalted : st.halted ≠ some .check) :
    (SocketOperations.asocketClose st s).localSocketList.length < st.localSocketList.length := by
  have hclosed := h.wellFormed.asocketClose_closed hs
  have hdistinct := (h.asocketClose hs hhalted).lists.opened.distinct
  have hnodup : (SocketOperations.asocketClose st s).localSocketList.Nodup :=
    List.Nodup.of_map _ (List.nodup_cons.mp hdistinct).2
  have hgone : s ∉ (SocketOperations.asocketClose st s).localSocketList := by
    rw [hclosed.listed]
    rintro ⟨-, hnot⟩
    exact hnot (mem_withPeer.mpr (.inl rfl))
  have hsubset : s :: (SocketOperations.asocketClose st s).localSocketList ⊆
      st.localSocketList := by
    rw [List.cons_subset]
    exact ⟨hmem, fun p hp => ((hclosed.listed p).mp hp).1⟩
  exact (List.subperm_of_subset (List.nodup_cons.mpr ⟨hgone, hnodup⟩) hsubset).length_le

theorem closeAllSocketsFuel_spec (h : Orderly st) (hhalted : st.halted ≠ some .check)
    (t : TransportRef) {rounds : Nat} (hrounds : st.localSocketList.length < rounds) :
    Orderly (closeAllSocketsFuel rounds st t) ∧
      (closeAllSocketsFuel rounds st t).halted = st.halted ∧
      Spares t st (closeAllSocketsFuel rounds st t) ∧
      ∀ s ∈ (closeAllSocketsFuel rounds st t).localSocketList,
        ¬ Belongs (closeAllSocketsFuel rounds st t) s t := by
  induction rounds generalizing st with
  | zero => cases hrounds
  | succ rounds ih =>
      rw [closeAllSocketsFuel]
      split
      · rename_i hnone
        refine ⟨h, rfl, .refl t st, ?_⟩
        intro s hs hrelated
        exact List.find?_eq_none.mp hnone s hs (related_iff.mpr hrelated)
      · rename_i s hfound
        have hmem := List.mem_of_find?_eq_some hfound
        have htest := List.find?_some hfound
        have hrelated : Belongs st s t := related_iff.mp htest
        obtain ⟨a, hs, -⟩ := id hrelated
        have hreturns := h.halted_asocketClose hs
        have hshorter := h.length_asocketClose hs hmem hhalted
        obtain ⟨horderly, hhalted', hspares, hnone⟩ := ih (h.asocketClose hs hhalted)
          (hreturns ▸ hhalted) (by omega)
        exact ⟨horderly, hhalted'.trans hreturns,
          (spares_asocketClose h.wellFormed hs hrelated).trans hspares, hnone⟩

/-- The number of rounds is that of the scan, not that of the model. -/
theorem closeAllSocketsFuel_stable (h : Orderly st) (hhalted : st.halted ≠ some .check)
    (t : TransportRef) {rounds rounds' : Nat} (hrounds : st.localSocketList.length < rounds)
    (hrounds' : st.localSocketList.length < rounds') :
    closeAllSocketsFuel rounds st t = closeAllSocketsFuel rounds' st t := by
  induction rounds generalizing st rounds' with
  | zero => cases hrounds
  | succ rounds ih =>
      cases rounds' with
      | zero => cases hrounds'
      | succ rounds' =>
          rw [closeAllSocketsFuel, closeAllSocketsFuel]
          split
          · rfl
          · rename_i s hfound
            have htest := List.find?_some hfound
            obtain ⟨a, hs, -⟩ := related_iff.mp htest
            have hshorter := h.length_asocketClose hs (List.mem_of_find?_eq_some hfound) hhalted
            apply ih (h.asocketClose hs hhalted)
            · rw [h.halted_asocketClose hs]
              exact hhalted
            · omega
            · omega

end Rounds

/-- `close_all_sockets` ends and returns; no socket of the transport is left on the
list, and what was neither such a socket nor the peer of one is as it was. -/
theorem close_all_sockets_exact (st : Sockets) (t : TransportRef) (h : Orderly st)
    (hrunning : st.halted = none) :
    let st' := closeAllSockets st t
    (∀ rounds, st.localSocketList.length < rounds → closeAllSocketsFuel rounds st t = st') ∧
      st'.halted = none ∧
      (∀ s ∈ st'.localSocketList, ¬ Belongs st' s t) ∧
      ∀ p a, st.heap p = some a → ¬ Belongs st p t →
        (∀ q, st.peerOf q = some p → ¬ Belongs st q t) →
        st'.heap p = some a ∧ (p ∈ st'.localSocketList ↔ p ∈ st.localSocketList) ∧
          (p ∈ st'.localSocketClosingList ↔ p ∈ st.localSocketClosingList) := by
  have hhalted : st.halted ≠ some .check := by
    rw [hrunning]
    exact nofun
  have hrounds := Nat.lt_succ_self st.localSocketList.length
  obtain ⟨-, hreturns, hspares, hnone⟩ := closeAllSocketsFuel_spec h hhalted t hrounds
  refine ⟨?_, hreturns.trans hrunning, hnone, ?_⟩
  · intro rounds hmore
    exact closeAllSocketsFuel_stable h hhalted t hmore hrounds
  · intro p a hp hnot _
    exact ⟨(hspares.heap p hnot).trans hp, hspares.opened p hnot, hspares.closing p hnot⟩

theorem orderly_of_reachable {cfg : Config} {st : Server} (h : (serverSystem cfg).Reachable st)
    (hstays : ∀ s a, st.sockets.heap s = some a → a.exitOnClose = false) : Orderly st.sockets :=
  ⟨(settled_of_reachable h).wellFormed, (settled_of_reachable h).checked.lists, hstays⟩

/-- A stream on the list and one on the closing list, both of transport 0. -/
def closeAndOpenSockets : Sockets :=
  ((serverSystem (plainConfig false false)).execute .initial closeAndOpen).sockets

theorem orderly_closeAndOpenSockets : Orderly closeAndOpenSockets := by
  have hrun : (serverSystem (plainConfig false false)).Executable (fun _ _ => True) .initial
      closeAndOpen := by decide
  have hreach : (serverSystem (plainConfig false false)).Reachable
      ((serverSystem (plainConfig false false)).execute .initial closeAndOpen) :=
    System.reachableWhen_execute ⟨.initial, rfl, .refl⟩ hrun
  apply orderly_of_reachable hreach
  have hcells : ∀ s < 4, (closeAndOpenSockets.heap s).all (fun a => !a.exitOnClose) = true := by
    decide
  intro s a hs
  have hfresh : s < 4 := ((settled_of_reachable hreach).wellFormed.socket s a hs).fresh
  have hcell := hcells s hfresh
  rw [closeAndOpenSockets, hs] at hcell
  simpa using hcell

theorem close_all_sockets_exact_closeAndOpen :
    closeAndOpenSockets.localSocketList = [2] ∧
      ∀ s ∈ (closeAllSockets closeAndOpenSockets 0).localSocketList,
        ¬ Belongs (closeAllSockets closeAndOpenSockets 0) s 0 :=
  ⟨by decide, (close_all_sockets_exact closeAndOpenSockets 0 orderly_closeAndOpenSockets
    (by decide)).2.2.1⟩

end Adb.TransportClosing
