import Adb.ServerEffects

/-!
What holds of the socket table beyond its well-formedness: the pointers of the
two lists, the trackers' vectors, the sockets that wait on the closing list,
and the ids over a whole run.
-/

namespace Adb.GraphInvariants

open Adb.DescriptorIo
open Adb.EventInterest
open Adb.WirePackets
open Adb.CircularLists
open Adb.SocketTable
open Adb.SocketOperations
open Adb.SmartSockets
open Adb.SocketEvents
open Adb.SocketClosing
open Adb.SocketGraph
open Adb.SocketEffects
open Adb.OperationEffects
open Adb.StreamEffects
open Adb.SmartEffects
open Adb.CallbackEffects
open Adb.EnqueueContract
open Adb.ServerState
open Adb.ServerRuns
open Adb.ServerEffects
open Adb.TransitionSystems

variable {st st' : Sockets}

section Trackers

/-- The vectors of trackers hold trackers, or sockets that have been freed. -/
structure TrackersOk (st : Sockets) : Prop where
  jdwp : ∀ s ∈ st.jdwpTrackers, s < st.nextRef ∧
    ∀ a, st.heap s = some a → a.kind = .jdwpTracker
  device : ∀ s ∈ st.deviceTrackerList, s < st.nextRef ∧
    ∀ a, st.heap s = some a → a.kind = .deviceTracker

theorem fresh_of_kindOf (h : WellFormed st) {s : SocketRef} {k : SocketKind}
    (hs : st.kindOf s = some k) : s < st.nextRef ∧ ∀ a, st.heap s = some a → a.kind = k := by
  obtain ⟨a, ha, hkind⟩ := Option.map_eq_some_iff.mp hs
  refine ⟨(h.socket s a ha).fresh, ?_⟩
  intro a' ha'
  obtain rfl := Option.some.inj (ha.symm.trans ha')
  exact hkind

/-- A socket that is not local keeps its kind for good. -/
theorem kind_kept (hcell : ∀ p b', p < st.nextRef → st'.heap p = some b' →
      ∃ b, st.heap p = some b ∧ SameKind b.kind b'.kind)
    (hnext : st.nextRef ≤ st'.nextRef) {s : SocketRef} {k : SocketKind}
    (hk : SocketKind.isLocal k = false)
    (h : s < st.nextRef ∧ ∀ a, st.heap s = some a → a.kind = k) :
    s < st'.nextRef ∧ ∀ a, st'.heap s = some a → a.kind = k := by
  refine ⟨Nat.lt_of_lt_of_le h.1 hnext, ?_⟩
  intro a ha
  obtain ⟨b, hb, hkind⟩ := hcell s a h.1 ha
  rw [h.2 b hb] at hkind
  exact hkind.of_not_local hk

theorem TrackersOk.kept (h : TrackersOk st)
    (hcell : ∀ p b', p < st.nextRef → st'.heap p = some b' →
      ∃ b, st.heap p = some b ∧ SameKind b.kind b'.kind)
    (hnext : st.nextRef ≤ st'.nextRef) (htrackers : FewerTrackers st st') : TrackersOk st' where
  jdwp s hs := kind_kept hcell hnext rfl (h.jdwp s (htrackers.jdwp.subset hs))
  device s hs := kind_kept hcell hnext rfl (h.device s (htrackers.device.subset hs))

theorem TrackersOk.effect {free : Bool} {T : SocketRef → Prop} {R : TransportRef → Prop}
    (heffect : Effect free T R st st') (hwf : WellFormed st) (h : TrackersOk st) :
    TrackersOk st' := by
  have hkept : ∀ {st st' : Sockets}, TrackersOk st → WellFormed st → Effect free T R st st' →
      FewerTrackers st st' → TrackersOk st' := fun h hwf heffect htrackers =>
    h.kept (fun _ _ hp hb => heffect.cell hwf hp hb) (heffect.counters hwf).1 htrackers
  induction heffect with
  | same hsame =>
      refine hkept h hwf (.same hsame) ?_
      exact ⟨hsame.trackers.1 ▸ .refl _, hsame.trackers.2 ▸ .refl _⟩
  | note hnoted habout => exact hkept h hwf (.note hnoted habout) ⟨.refl _, .refl _⟩
  | send t hp => exact hkept h hwf (.send t hp) ⟨.refl _, .refl _⟩
  | update hs hT hf => exact hkept h hwf (.update hs hT hf) ⟨.refl _, .refl _⟩
  | close hs hactive hT =>
      exact hkept h hwf (.close hs hactive hT) (hwf.asocketClose_closed hs).trackers
  | allocate hT hnew hlisted hfree =>
      exact hkept h hwf (.allocate hT hnew hlisted hfree) ⟨.refl _, .refl _⟩
  | install hT hnew hlisted htransport hfree =>
      exact hkept h hwf (.install hT hnew hlisted htransport hfree) ⟨.refl _, .refl _⟩
  | link hs hq hT hlink => exact hkept h hwf (.link hs hq hT hlink) ⟨.refl _, .refl _⟩
  | track hjdwp hdevice _ =>
      constructor
      · intro s hs
        rcases hjdwp s hs with hs | hs
        · exact h.jdwp s hs
        · exact fresh_of_kindOf hwf hs
      · intro s hs
        rcases hdevice s hs with hs | hs
        · exact h.device s hs
        · exact fresh_of_kindOf hwf hs
  | trans h₁ _ ih₁ ih₂ => exact ih₂ (h₁.wellFormed hwf) (ih₁ hwf h)

end Trackers

section Lists

/-- The pointers stand for the two lists. -/
structure ListsOk (st : Sockets) : Prop where
  opened : st.links.Ring .localSocketList (st.localSocketList.map .socket)
  closing : st.links.Ring .localSocketClosingList (st.localSocketClosingList.map .socket)
  apart : ∀ s ∈ st.localSocketList, s ∉ st.localSocketClosingList
  loose : ∀ s, s ∉ st.localSocketList → s ∉ st.localSocketClosingList →
    st.links.Loose (.socket s)

theorem listsOk_initial : ListsOk .initial where
  opened := ⟨by simp [Sockets.initial], by simp [Sockets.initial, Links.Joined, emptyLinks]⟩
  closing := ⟨by simp [Sockets.initial], by simp [Sockets.initial, Links.Joined, emptyLinks]⟩
  apart := by simp [Sockets.initial]
  loose := fun _ _ _ => ⟨rfl, rfl⟩

theorem ListsOk.congr (h : ListsOk st) (hlist : st'.localSocketList = st.localSocketList)
    (hclosing : st'.localSocketClosingList = st.localSocketClosingList)
    (hlinks : st'.links = st.links) : ListsOk st' := by
  obtain ⟨h₁, h₂, h₃, h₄⟩ := h
  constructor
  · rw [hlinks, hlist]
    exact h₁
  · rw [hlinks, hclosing]
    exact h₂
  · rw [hlist, hclosing]
    exact h₃
  · rw [hlist, hclosing, hlinks]
    exact h₄

theorem filter_map_socket (l : List SocketRef) (s : SocketRef) :
    (l.map ListNode.socket).filter (· ≠ .socket s) =
      (l.filter (· ≠ s)).map ListNode.socket := by
  simp [List.filter_map, Function.comp_def]

theorem filter_ne_eq_self {l : List SocketRef} {s : SocketRef} (hs : s ∉ l) :
    l.filter (· ≠ s) = l := by
  refine List.filter_eq_self.mpr fun p hp => ?_
  have hne : p ≠ s := by
    rintro rfl
    exact hs hp
  simpa using hne

theorem rings_remove {links : Links ListNode} {head head' : ListNode} {l l' : List SocketRef}
    (h : links.Ring head (l.map .socket)) (h' : links.Ring head' (l'.map .socket))
    (hhead : head' ∉ head :: l.map .socket) (hsocket : ∀ p, ListNode.socket p ≠ head)
    (hapart : ∀ p ∈ l, p ∉ l') {s : SocketRef} (hs : s ∈ l) :
    (links.remove (.socket s)).Ring head ((l.filter (· ≠ s)).map .socket) ∧
      (links.remove (.socket s)).Ring head' ((l'.filter (· ≠ s)).map .socket) ∧
      (links.remove (.socket s)).Loose (.socket s) ∧
      ∀ p, p ∉ l → links.Loose (.socket p) → (links.remove (.socket s)).Loose (.socket p) := by
  have hmem : ListNode.socket s ∈ l.map .socket := List.mem_map_of_mem hs
  have hoff : ∀ p, p ∉ l → ListNode.socket p ∉ head :: l.map .socket := by
    intro p hp
    simp [hsocket p, hp]
  refine ⟨?_, ?_, h.loose_remove hmem, ?_⟩
  · have hring := h.remove_mem hmem
    rw [filter_map_socket] at hring
    exact hring
  · rw [filter_ne_eq_self (hapart s hs)]
    refine h.remove_apart hmem h' fun b hb => ?_
    rcases List.mem_cons.mp hb with rfl | hb
    · exact hhead
    · obtain ⟨p, hp, rfl⟩ := List.mem_map.mp hb
      exact hoff p fun hpl => hapart p hpl hp
  · intro p hp hloose
    obtain ⟨hnext, hprev⟩ := h.remove_other hmem (hoff p hp)
    exact ⟨hnext.trans hloose.1, hprev.trans hloose.2⟩

theorem rings_insert {links : Links ListNode} {head head' : ListNode} {l l' : List SocketRef}
    (h : links.Ring head (l.map .socket)) (h' : links.Ring head' (l'.map .socket))
    (hhead : head' ∉ head :: l.map .socket) (hsocket : ∀ p, ListNode.socket p ≠ head)
    (hsocket' : ∀ p, ListNode.socket p ≠ head') (hapart : ∀ p ∈ l, p ∉ l') {s : SocketRef}
    (hs : s ∉ l) (hs' : s ∉ l') :
    (links.insert (.socket s) head).Ring head ((l ++ [s]).map .socket) ∧
      (links.insert (.socket s) head).Ring head' (l'.map .socket) ∧
      ∀ p, p ∉ l → p ≠ s → links.Loose (.socket p) →
        (links.insert (.socket s) head).Loose (.socket p) := by
  have hoff : ∀ p, p ∉ l → ListNode.socket p ∉ head :: l.map .socket := by
    intro p hp
    simp [hsocket p, hp]
  refine ⟨?_, ?_, ?_⟩
  · rw [List.map_append]
    exact h.insert (hoff s hs)
  · refine h.insert_apart h' fun b hb => ?_
    rcases List.mem_cons.mp hb with rfl | hb
    · exact ⟨hhead, (hsocket' s).symm⟩
    · obtain ⟨p, hp, rfl⟩ := List.mem_map.mp hb
      refine ⟨hoff p fun hpl => hapart p hpl hp, ?_⟩
      rintro ⟨⟩
      exact hs' hp
  · intro p hp hps hloose
    have hne : ListNode.socket p ≠ .socket s := by
      rintro ⟨⟩
      exact hps rfl
    obtain ⟨hnext, hprev⟩ := h.insert_other (hoff p hp) hne
    exact ⟨hnext.trans hloose.1, hprev.trans hloose.2⟩

theorem ListsOk.removeSocket (h : ListsOk st) (s : SocketRef) : ListsOk (removeSocket st s) := by
  have hapart : ∀ p ∈ (SocketTable.removeSocket st s).localSocketList,
      p ∉ (SocketTable.removeSocket st s).localSocketClosingList := by
    intro p hp hp'
    exact h.apart p (mem_filter_ne.mp hp).1 (mem_filter_ne.mp hp').1
  have hwas : ∀ {p : SocketRef} {l : List SocketRef}, p ∉ l.filter (· ≠ s) → p = s ∨ p ∉ l := by
    intro p l hp
    by_cases hps : p = s
    · exact .inl hps
    · exact .inr fun hmem => hp (mem_filter_ne.mpr ⟨hmem, hps⟩)
  by_cases hopen : s ∈ st.localSocketList
  · obtain ⟨hopened, hclosing, hself, hother⟩ :=
      rings_remove h.opened h.closing (by simp) (by simp) h.apart hopen
    refine ⟨hopened, hclosing, hapart, ?_⟩
    intro p hp hp'
    rcases hwas hp with rfl | hp
    · exact hself
    rcases hwas hp' with rfl | hp'
    · exact hself
    · exact hother p hp (h.loose p hp hp')
  · by_cases hclosed : s ∈ st.localSocketClosingList
    · obtain ⟨hclosing, hopened, hself, hother⟩ :=
        rings_remove h.closing h.opened (by simp) (by simp)
          (fun p hp hp' => h.apart p hp' hp) hclosed
      refine ⟨hopened, hclosing, hapart, ?_⟩
      intro p hp hp'
      rcases hwas hp with rfl | hp
      · exact hself
      rcases hwas hp' with rfl | hp'
      · exact hself
      · exact hother p hp' (h.loose p hp hp')
    · refine h.congr (filter_ne_eq_self hopen) (filter_ne_eq_self hclosed) ?_
      exact Links.remove_of_loose (h.loose s hopen hclosed)

theorem ListsOk.install (h : ListsOk st) {s : SocketRef} (hopen : s ∉ st.localSocketList)
    (hclosing : s ∉ st.localSocketClosingList) : ListsOk (installLocalSocket st s) := by
  obtain ⟨hopened, hclosed, hother⟩ := rings_insert h.opened h.closing (by simp) (by simp)
    (by simp) h.apart hopen hclosing
  refine ⟨hopened, hclosed, ?_, ?_⟩
  · intro p hp hp'
    rcases List.mem_append.mp hp with hp | hp
    · exact h.apart p hp hp'
    · obtain rfl := List.mem_singleton.mp hp
      exact hclosing hp'
  · intro p hp hp'
    have hmem : p ∉ st.localSocketList ∧ p ≠ s := by
      simpa [installLocalSocket, Sockets.haltWhen, Sockets.modify] using hp
    exact hother p hmem.1 hmem.2 (h.loose p hmem.1 hp')

theorem ListsOk.insertClosing (h : ListsOk st) {s : SocketRef} (hopen : s ∉ st.localSocketList)
    (hclosing : s ∉ st.localSocketClosingList)
    (hlist : st'.localSocketList = st.localSocketList)
    (hlist' : st'.localSocketClosingList = st.localSocketClosingList ++ [s])
    (hlinks : st'.links = insertLocalSocket st.links s .localSocketClosingList) :
    ListsOk st' := by
  obtain ⟨hclosed, hopened, hother⟩ := rings_insert h.closing h.opened (by simp) (by simp)
    (by simp) (fun p hp hp' => h.apart p hp' hp) hclosing hopen
  constructor
  · rw [hlist, hlinks]
    exact hopened
  · rw [hlist', hlinks]
    exact hclosed
  · rw [hlist, hlist']
    intro p hp hp'
    rcases List.mem_append.mp hp' with hp' | hp'
    · exact h.apart p hp hp'
    · obtain rfl := List.mem_singleton.mp hp'
      exact hopen hp
  · rw [hlist, hlist', hlinks]
    intro p hp hp'
    have hmem : p ∉ st.localSocketClosingList ∧ p ≠ s := by simpa using hp'
    exact hother p hmem.1 hmem.2 (h.loose p hp hmem.1)

end Lists

section Closing

/-- What the close functions rely on and keep: the lists are in order, every
queue waits for `FDE_WRITE`, and the check has not failed. -/
structure CloseOk (st : Sockets) : Prop where
  lists : ListsOk st
  queue : ∀ s a, st.heap s = some a → SocketKind.isLocal a.kind = true → a.pkts ≠ [] →
    a.fde.state.write = true
  check : st.halted ≠ some .check

theorem CloseOk.congr (h : CloseOk st) (hheap : st'.heap = st.heap)
    (hlist : st'.localSocketList = st.localSocketList)
    (hclosing : st'.localSocketClosingList = st.localSocketClosingList)
    (hlinks : st'.links = st.links)
    (hhalted : st'.halted = some .check → st.halted = some .check) : CloseOk st' :=
  ⟨h.lists.congr hlist hclosing hlinks, hheap ▸ h.queue, fun hc => h.check (hhalted hc)⟩

/-- A part of a close function: it keeps the invariant, and sockets keep their
kind. -/
structure Closes (st st' : Sockets) : Prop where
  ok : CloseOk st → CloseOk st'
  kind : ∀ p b, st'.heap p = some b → ∃ a, st.heap p = some a ∧ SameKind a.kind b.kind

theorem Closes.trans {st₁ st₂ st₃ : Sockets} (h₁ : Closes st₁ st₂) (h₂ : Closes st₂ st₃) :
    Closes st₁ st₃ := by
  refine ⟨fun h => h₂.ok (h₁.ok h), ?_⟩
  intro p c hc
  obtain ⟨b, hb, hkind⟩ := h₂.kind p c hc
  obtain ⟨a, ha, hkind'⟩ := h₁.kind p b hb
  exact ⟨a, ha, hkind'.trans hkind⟩

theorem Closes.of_same (hheap : st'.heap = st.heap)
    (hlist : st'.localSocketList = st.localSocketList)
    (hclosing : st'.localSocketClosingList = st.localSocketClosingList)
    (hlinks : st'.links = st.links)
    (hhalted : st'.halted = some .check → st.halted = some .check) : Closes st st' := by
  refine ⟨fun h => h.congr hheap hlist hclosing hlinks hhalted, ?_⟩
  intro p b hb
  exact ⟨b, hheap ▸ hb, .inl rfl⟩

theorem closes_halt {reason : Halt} (hreason : reason ≠ .check) : Closes st (st.halt reason) :=
  .of_same rfl rfl rfl rfl (check_orElse hreason)

theorem closes_modify (s : SocketRef) {f : Asocket → Asocket}
    (hkind : ∀ a, st.heap s = some a → SameKind a.kind (f a).kind)
    (hpkts : ∀ a, (f a).pkts = a.pkts)
    (hfde : ∀ a, a.fde.state.write = true → (f a).fde.state.write = true) :
    Closes st (st.modify s f) := by
  have hcell : ∀ p b, (st.modify s f).heap p = some b → ∃ a, st.heap p = some a ∧
      (b = a ∨ (p = s ∧ b = f a)) := by
    intro p b hb
    by_cases hp : p = s
    · subst hp
      obtain ⟨a, ha, rfl⟩ : ∃ a, st.heap p = some a ∧ f a = b := by
        simpa [Sockets.modify] using hb
      exact ⟨a, ha, .inr ⟨rfl, rfl⟩⟩
    · exact ⟨b, by simpa [Sockets.modify, hp] using hb, .inl rfl⟩
  constructor
  · intro h
    refine ⟨h.lists.congr rfl rfl rfl, ?_, h.check⟩
    intro p b hb hlocal hne
    obtain ⟨a, ha, rfl | ⟨rfl, rfl⟩⟩ := hcell p b hb
    · exact h.queue p b ha hlocal hne
    · rw [hpkts] at hne
      refine hfde a (h.queue p a ha ?_ hne)
      rcases hkind a ha with hk | ⟨hk, -⟩
      · rw [← hk]
        exact hlocal
      · exact hk
  · intro p b hb
    obtain ⟨a, ha, rfl | ⟨rfl, rfl⟩⟩ := hcell p b hb
    · exact ⟨b, ha, .inl rfl⟩
    · exact ⟨a, ha, hkind a ha⟩

theorem closes_clearPeer (s : SocketRef) :
    Closes st (st.modify s fun a => { a with peer := none }) :=
  closes_modify s (fun _ _ => .inl rfl) (fun _ => rfl) fun _ hw => hw

theorem closes_release (s : SocketRef) : Closes st (st.release s) := by
  have hcell : ∀ p b, (st.release s).heap p = some b → st.heap p = some b := by
    intro p b hb
    by_cases hp : p = s
    · simp [Sockets.release, hp] at hb
    · simpa [Sockets.release, hp] using hb
  constructor
  · intro h
    exact ⟨h.lists.congr rfl rfl rfl, fun p b hb => h.queue p b (hcell p b hb), h.check⟩
  · intro p b hb
    exact ⟨b, hcell p b hb, .inl rfl⟩

theorem closes_removeSocket (s : SocketRef) : Closes st (removeSocket st s) := by
  have hcell : ∀ p b, (removeSocket st s).heap p = some b → ∃ a, st.heap p = some a ∧
      (b = a ∨ b = { a with id := 0 }) := by
    intro p b hb
    rw [removeSocket_heap] at hb
    split at hb
    next hps =>
        obtain ⟨a, ha, rfl⟩ := Option.map_eq_some_iff.mp hb
        exact ⟨a, hps.1 ▸ ha, .inr rfl⟩
    · exact ⟨b, hb, .inl rfl⟩
  constructor
  · intro h
    refine ⟨h.lists.removeSocket s, ?_, h.check⟩
    intro p b hb
    obtain ⟨a, ha, rfl | rfl⟩ := hcell p b hb
    · exact h.queue p b ha
    · exact h.queue p a ha
  · intro p b hb
    obtain ⟨a, ha, rfl | rfl⟩ := hcell p b hb
    · exact ⟨b, ha, .inl rfl⟩
    · exact ⟨a, ha, .inl rfl⟩

theorem closes_asocketShutdown (q : SocketRef) : Closes st (asocketShutdown st q) := by
  unfold asocketShutdown
  split
  · unfold remoteSocketShutdown
    split
    · exact closes_halt (by decide)
    · unfold sendOn
      split
      · exact closes_halt (by decide)
      · exact .of_same rfl rfl rfl rfl id
  · exact .of_same rfl rfl rfl rfl id

theorem closes_localSocketFinish {s : SocketRef}
    (hkind : ∀ a, st.heap s = some a → SocketKind.isLocal a.kind = true) :
    Closes st (localSocketFinish st s) := by
  unfold localSocketFinish
  split
  · exact closes_halt (by decide)
  next a ha =>
      split
      · unfold localSocketDestroy
        rw [ha]
        have hrecorded : Closes st (st.record (.fdClosed s)) := .of_same rfl rfl rfl rfl id
        refine ((hrecorded.trans (closes_removeSocket s)).trans (closes_release s)).trans ?_
        exact .of_same rfl rfl rfl rfl (check_haltWhen (by decide))
      next hstays =>
          have hmarked : Closes st (st.modify s fun a =>
              { a with closing := true, fde := fdeventDel a.fde .fdeRead }) :=
            closes_modify s (fun _ _ => .inl rfl) (fun _ => rfl)
              (fun _ hw => by simpa [EventMask.diff, EventMask.fdeRead, EventMask.empty] using hw)
          have hremoved := hmarked.trans (closes_removeSocket s)
          refine ⟨fun h => ?_, hremoved.kind⟩
          have hpkts : a.pkts ≠ [] := by
            rintro hnil
            simp [hnil] at hstays
          have hwrite := h.queue s a ha (hkind a ha) hpkts
          have hok := hremoved.ok h
          refine ⟨?_, hok.queue, ?_⟩
          · exact hok.lists.insertClosing (by simp [SocketTable.removeSocket])
              (by simp [SocketTable.removeSocket]) rfl rfl rfl
          · simp only [Sockets.haltWhen, hwrite, Bool.not_true, Bool.false_eq_true, if_false]
            exact h.check

section Functions

variable {close : Sockets → SocketRef → Sockets} (hclose : ∀ st s, Closes st (close st s))

include hclose

theorem closes_localSocketClose {s : SocketRef}
    (hkind : ∀ a, st.heap s = some a → SocketKind.isLocal a.kind = true) :
    Closes st (localSocketClose close st s) := by
  unfold localSocketClose
  split
  · exact closes_localSocketFinish hkind
  next q hq =>
      have hpeer : Closes st
          ((close ((asocketShutdown st q).modify q fun a => { a with peer := none }) q).modify s
            fun a => { a with peer := none }) :=
        (((closes_asocketShutdown q).trans (closes_clearPeer q)).trans (hclose _ q)).trans
          (closes_clearPeer s)
      refine hpeer.trans (closes_localSocketFinish ?_)
      intro b hb
      obtain ⟨a, ha, hk⟩ := hpeer.kind s b hb
      rcases hk with hk | ⟨-, hk⟩
      · rw [hk]
        exact hkind a ha
      · exact hk

theorem closes_closePeer (s : SocketRef) : Closes st (closePeer close st s) := by
  unfold closePeer
  split
  · exact .of_same rfl rfl rfl rfl id
  · exact (closes_clearPeer _).trans (hclose _ _)

end Functions

theorem closes_asocketCloseFuel (fuel : Nat) (s : SocketRef) :
    Closes st (asocketCloseFuel fuel st s) := by
  induction fuel generalizing st s with
  | zero => exact closes_halt (by decide)
  | succ fuel ih =>
      have hpeer : ∀ {st : Sockets} s, Closes st (closePeer (asocketCloseFuel fuel) st s) :=
        fun s => closes_closePeer (fun _ s => ih s) s
      rw [asocketCloseFuel]
      split
      · exact closes_halt (by decide)
      next a ha =>
          have hcalled : Closes st (st.record (.closeCalled s)) := .of_same rfl rfl rfl rfl id
          refine hcalled.trans ?_
          dsimp only
          split
          next hkind =>
              refine closes_localSocketClose (fun _ s => ih s) fun b hb => ?_
              obtain rfl := Option.some.inj (ha.symm.trans hb)
              simp [hkind, SocketKind.isLocal]
          next hkind =>
              have hplain : Closes (st.record (.closeCalled s))
                  (((st.record (.closeCalled s)).modify s fun a =>
                    { a with kind := .localSocket }).reply s (.fail (ascii "closed"))) := by
                have hmarked : Closes (st.record (.closeCalled s))
                    ((st.record (.closeCalled s)).modify s fun a =>
                      { a with kind := .localSocket }) := by
                  apply closes_modify
                  · intro b hb
                    obtain rfl := Option.some.inj (ha.symm.trans hb)
                    exact .inr ⟨by simp [hkind, SocketKind.isLocal], rfl⟩
                  · intro _
                    rfl
                  · intro _ hw
                    exact hw
                exact hmarked.trans (.of_same rfl rfl rfl rfl id)
              refine hplain.trans (closes_localSocketClose (fun _ s => ih s) fun b hb => ?_)
              obtain ⟨b', -, rfl⟩ : ∃ b', st.heap s = some b' ∧
                  { b' with kind := SocketKind.localSocket } = b := by
                simpa [Sockets.reply, Sockets.record, Sockets.modify] using hb
              rfl
          · exact (hpeer s).trans (closes_release s)
          · exact (hpeer s).trans (closes_release s)
          · exact ((hpeer s).trans (closes_removeSocket s)).trans (closes_release s)
          · refine Closes.trans (((hpeer s).trans (closes_removeSocket s)).trans ?_)
              (closes_release s)
            exact .of_same rfl rfl rfl rfl id
          · refine Closes.trans ((hpeer s).trans ?_) (closes_release s)
            exact .of_same rfl rfl rfl rfl id

theorem closes_asocketClose (s : SocketRef) : Closes st (asocketClose st s) :=
  closes_asocketCloseFuel 2 s

end Closing

section Steps

variable {free : Bool} {T : SocketRef → Prop} {R : TransportRef → Prop}
  {lossy drops : SocketRef → Prop}

/-- The lists are in order, and the check has not failed. -/
structure Checked (st : Sockets) : Prop where
  lists : ListsOk st
  check : st.halted ≠ some .check

theorem Checked.close (h : Checked st) (hwf : WellFormed st) (s : SocketRef) :
    Checked (asocketClose st s) := by
  have hok := (closes_asocketClose s).ok ⟨h.lists, fun p a ha => (hwf.socket p a ha).queue, h.check⟩
  exact ⟨hok.lists, hok.check⟩

theorem Checked.congr (h : Checked st) (hlist : st'.localSocketList = st.localSocketList)
    (hclosing : st'.localSocketClosingList = st.localSocketClosingList)
    (hlinks : st'.links = st.links)
    (hhalted : st'.halted = some .check → st.halted = some .check) : Checked st' :=
  ⟨h.lists.congr hlist hclosing hlinks, fun hc => h.check (hhalted hc)⟩

theorem Checked.effect (heffect : Effect free T R st st') (hwf : WellFormed st)
    (h : Checked st) : Checked st' := by
  induction heffect with
  | same hsame => exact h.congr hsame.listed hsame.closing hsame.links hsame.check
  | note | send | update | allocate | link | track => exact h.congr rfl rfl rfl id
  | close hs _ _ => exact h.close hwf _
  | @install st a =>
      have hopen : st.nextRef ∉ st.localSocketList := by
        intro hmem
        obtain ⟨b, hb, -⟩ := (hwf.listed _).mp hmem
        exact Nat.lt_irrefl _ (hwf.socket _ b hb).fresh
      have hclosing : st.nextRef ∉ st.localSocketClosingList := by
        intro hmem
        obtain ⟨b, hb, -⟩ := (hwf.closing _).mp hmem
        exact Nat.lt_irrefl _ (hwf.socket _ b hb).fresh
      have hallocated : ListsOk (st.allocate a).2 := h.lists.congr rfl rfl rfl
      exact ⟨hallocated.install hopen hclosing, fun hc => h.check (check_haltWhen (by decide) hc)⟩
  | trans h₁ _ ih₁ ih₂ => exact ih₂ (h₁.wellFormed hwf) (ih₁ hwf h)

theorem Checked.callback (hcallback : Callback lossy drops R st st') (hwf : WellFormed st)
    (h : Checked st) : Checked st' := by
  induction hcallback with
  | effect heffect => exact h.effect heffect hwf
  | finish => exact h.close hwf _
  | own | drained | failed | readSilent | readHanded | received => exact h.congr rfl rfl rfl id
  | trans h₁ _ ih₁ ih₂ => exact ih₂ (h₁.wellFormed hwf) (ih₁ hwf h)

theorem TrackersOk.callback (hcallback : Callback lossy drops R st st') (hwf : WellFormed st)
    (h : TrackersOk st) : TrackersOk st' := by
  induction hcallback with
  | effect heffect => exact h.effect heffect hwf
  | @finish st s a hs _ _ =>
      have hclosed := hwf.asocketClose_closed hs
      refine h.kept ?_ (Nat.le_of_eq hclosed.counters.nextRef.symm) hclosed.trackers
      intro p b _ hb
      obtain ⟨c, hc, hkind⟩ := (closes_asocketClose s).kind p b hb
      exact ⟨c, hc, hkind⟩
  | @own st s a f hs hf =>
      refine h.kept ?_ (Nat.le_refl _) ⟨.refl _, .refl _⟩
      intro p b _ hb
      by_cases hp : p = s
      · subst hp
        obtain rfl : f a = b := by simpa [Sockets.modify, hs] using hb
        exact ⟨a, hs, .inl hf.kind⟩
      · exact ⟨b, by simpa [Sockets.modify, hp] using hb, .inl rfl⟩
  | @drained st s a hs _ =>
      refine h.kept ?_ (Nat.le_refl _) ⟨.refl _, .refl _⟩
      intro p b _ hb
      by_cases hp : p = s
      · subst hp
        obtain rfl : { a with pkts := (drain st.writeScript a.pkts).rest } = b := by
          simpa [Sockets.modify, Sockets.afterWrite, hs] using hb
        exact ⟨a, hs, .inl rfl⟩
      · exact ⟨b, by simpa [Sockets.modify, Sockets.afterWrite, hp] using hb, .inl rfl⟩
  | failed | readSilent | readHanded | received => exact ⟨h.jdwp, h.device⟩
  | trans h₁ _ ih₁ ih₂ => exact ih₂ (h₁.wellFormed hwf) (ih₁ hwf h)

/-- A socket of the list has the id that it had, or one that was not given out
before. -/
structure IdsKept (st st' : Sockets) : Prop where
  counter : st.localSocketNextId ≤ st'.localSocketNextId
  ids : ∀ p b, st'.heap p = some b → SocketKind.isListed b.kind = true → b.closing = false →
    (∃ a, st.heap p = some a ∧ SocketKind.isListed a.kind = true ∧ a.closing = false ∧
      a.id = b.id) ∨ st.localSocketNextId ≤ b.id

theorem IdsKept.trans {st₁ st₂ st₃ : Sockets} (h₁ : IdsKept st₁ st₂) (h₂ : IdsKept st₂ st₃) :
    IdsKept st₁ st₃ := by
  refine ⟨Nat.le_trans h₁.counter h₂.counter, ?_⟩
  intro p c hc hlisted hclosing
  rcases h₂.ids p c hc hlisted hclosing with ⟨b, hb, hlisted', hclosing', hid⟩ | hid
  · rw [← hid]
    exact h₁.ids p b hb hlisted' hclosing'
  · exact .inr (Nat.le_trans h₁.counter hid)

theorem IdsKept.of_heap (hheap : st'.heap = st.heap) (hcounters : SameCounters st st') :
    IdsKept st st' := by
  refine ⟨Nat.le_of_eq hcounters.nextId.symm, ?_⟩
  intro p b hb hlisted hclosing
  exact .inl ⟨b, hheap ▸ hb, hlisted, hclosing, rfl⟩

theorem idsKept_modify {s : SocketRef} {a : Asocket} (hs : st.heap s = some a)
    {f : Asocket → Asocket} (hid : (f a).id = a.id)
    (hlisted : SocketKind.isListed (f a).kind = SocketKind.isListed a.kind)
    (hclosing : (f a).closing = a.closing) : IdsKept st (st.modify s f) := by
  refine ⟨Nat.le_refl _, ?_⟩
  intro p b hb hblisted hbclosing
  by_cases hp : p = s
  · subst hp
    obtain rfl : f a = b := by simpa [Sockets.modify, hs] using hb
    exact .inl ⟨a, hs, hlisted ▸ hblisted, hclosing ▸ hbclosing, hid.symm⟩
  · exact .inl ⟨b, by simpa [Sockets.modify, hp] using hb, hblisted, hbclosing, rfl⟩

theorem idsKept_asocketClose (hwf : WellFormed st) {s : SocketRef} {a : Asocket}
    (hs : st.heap s = some a) : IdsKept st (asocketClose st s) := by
  have hclosed := hwf.asocketClose_closed hs
  refine ⟨Nat.le_of_eq hclosed.counters.nextId.symm, ?_⟩
  intro p b hb hlisted hclosing
  rw [hclosed.heap] at hb
  split at hb
  · obtain ⟨c, -, hremains⟩ := Option.bind_eq_some_iff.mp hb
    obtain ⟨-, -, -, -, rfl⟩ := remains_eq_some hremains
    simp at hclosing
  · exact .inl ⟨b, hb, hlisted, hclosing, rfl⟩

theorem idsKept_effect (heffect : Effect free T R st st') (hwf : WellFormed st) :
    IdsKept st st' := by
  induction heffect with
  | same hsame => exact .of_heap hsame.heap hsame.counters
  | note | send | track => exact .of_heap rfl ⟨rfl, rfl⟩
  | update hs _ hf =>
      exact idsKept_modify hs hf.respects.id hf.respects.listed hf.respects.closing
  | close hs _ _ => exact idsKept_asocketClose hwf hs
  | @allocate st a _ _ hlisted _ =>
      refine ⟨Nat.le_refl _, ?_⟩
      intro p b hb hblisted hbclosing
      by_cases hp : p = st.nextRef
      · obtain rfl : a = b := by simpa [Sockets.allocate, hp] using hb
        simp [hlisted] at hblisted
      · exact .inl ⟨b, by simpa [Sockets.allocate, hp] using hb, hblisted, hbclosing, rfl⟩
  | @install st a =>
      refine ⟨Nat.le_succ _, ?_⟩
      intro p b hb hblisted hbclosing
      by_cases hp : p = st.nextRef
      · obtain rfl : { a with id := st.localSocketNextId } = b := by
          simpa [installLocalSocket, Sockets.haltWhen, Sockets.modify, Sockets.allocate, hp]
            using hb
        exact .inr (Nat.le_refl _)
      · refine .inl ⟨b, ?_, hblisted, hbclosing, rfl⟩
        simpa [installLocalSocket, Sockets.haltWhen, Sockets.modify, Sockets.allocate, hp]
          using hb
  | @link st s q a b f g hs hq _ hlink =>
      have hq' : (st.modify s f).heap q = some b := by simp [Sockets.modify, hlink.ne.symm, hq]
      have hleft : IdsKept st (st.modify s f) := by
        refine idsKept_modify hs hlink.id.1 hlink.listedLeft ?_
        rw [hlink.closingLeft.1, hlink.closingLeft.2]
      refine hleft.trans (idsKept_modify hq' hlink.id.2 hlink.listedRight ?_)
      rw [hlink.closingRight.1, hlink.closingRight.2]
  | trans h₁ _ ih₁ ih₂ => exact (ih₁ hwf).trans (ih₂ (h₁.wellFormed hwf))

theorem idsKept_callback (hcallback : Callback lossy drops R st st') (hwf : WellFormed st) :
    IdsKept st st' := by
  induction hcallback with
  | effect heffect => exact idsKept_effect heffect hwf
  | finish hs _ _ => exact idsKept_asocketClose hwf hs
  | own hs hf => exact idsKept_modify hs hf.id (by rw [hf.kind]) hf.closing
  | @drained st s a hs _ =>
      have hwrote : IdsKept st (st.afterWrite s (drain st.writeScript a.pkts)) :=
        .of_heap rfl ⟨rfl, rfl⟩
      have hs' : (st.afterWrite s (drain st.writeScript a.pkts)).heap s = some a := hs
      exact hwrote.trans (idsKept_modify hs' rfl rfl rfl)
  | failed | readSilent | readHanded | received => exact .of_heap rfl ⟨rfl, rfl⟩
  | trans h₁ _ ih₁ ih₂ => exact (ih₁ hwf).trans (ih₂ (h₁.wellFormed hwf))

end Steps

section Queues

variable {free : Bool} {T : SocketRef → Prop} {R : TransportRef → Prop} {ctx : ServiceContext}
  {s : SocketRef} {a : Asocket}

/-- A closing socket has something left to write. -/
def Queued (st : Sockets) : Prop :=
  ∀ s a, st.heap s = some a → a.closing = true → a.pkts ≠ []

/-- The same of every socket but `s`. -/
def QueuedBut (st : Sockets) (s : SocketRef) : Prop :=
  ∀ p a, p ≠ s → st.heap p = some a → a.closing = true → a.pkts ≠ []

theorem Queued.but (h : Queued st) (s : SocketRef) : QueuedBut st s :=
  fun p a _ ha => h p a ha

theorem QueuedBut.modify (h : QueuedBut st s) (f : Asocket → Asocket) :
    QueuedBut (st.modify s f) s := by
  intro p a hp ha
  exact h p a hp (by simpa [Sockets.modify, hp] using ha)

theorem QueuedBut.queued (h : QueuedBut st s)
    (hs : ∀ a, st.heap s = some a → a.closing = true → a.pkts ≠ []) : Queued st := by
  intro p a ha
  by_cases hp : p = s
  · subst hp
    exact hs a ha
  · exact h p a hp ha

theorem QueuedBut.close (h : QueuedBut st s) (hwf : WellFormed st) :
    Queued (asocketClose st s) := by
  cases hs : st.heap s with
  | none =>
      have hnone : asocketClose st s = st.halt .fault := by
        simp [asocketClose, asocketCloseFuel, hs]
      rw [hnone]
      have hhalted : QueuedBut (st.halt .fault) s := h
      refine hhalted.queued ?_
      intro a ha
      exact absurd (hs.symm.trans ha) (by simp)
  | some a =>
      have hclosed := hwf.asocketClose_closed hs
      intro p b hb hclosing
      rw [hclosed.heap] at hb
      split at hb
      · obtain ⟨c, -, hremains⟩ := Option.bind_eq_some_iff.mp hb
        obtain ⟨-, -, -, hpkts, rfl⟩ := remains_eq_some hremains
        exact hpkts
      next hp =>
          refine h p b ?_ hb hclosing
          rintro rfl
          exact hp (self_mem_withPeer st p)

theorem Queued.effect (heffect : Effect free T R st st') (hwf : WellFormed st)
    (h : Queued st) : Queued st' := by
  induction heffect with
  | same hsame =>
      intro p b hb
      exact h p b (hsame.heap ▸ hb)
  | note | send | track => exact h
  | @update st s a f hs _ hf =>
      refine ((h.but s).modify f).queued ?_
      intro b hb hclosing
      obtain rfl : f a = b := by simpa [Sockets.modify, hs] using hb
      rw [hf.respects.closing, hf.active] at hclosing
      simp at hclosing
  | close => exact (h.but _).close hwf
  | @allocate st a _ hnew _ _ =>
      intro p b hb hclosing
      by_cases hp : p = st.nextRef
      · obtain rfl : a = b := by simpa [Sockets.allocate, hp] using hb
        simp [hnew.closing] at hclosing
      · exact h p b (by simpa [Sockets.allocate, hp] using hb) hclosing
  | @install st a _ hnew _ _ _ =>
      intro p b hb hclosing
      by_cases hp : p = st.nextRef
      · obtain rfl : { a with id := st.localSocketNextId } = b := by
          simpa [installLocalSocket, Sockets.haltWhen, Sockets.modify, Sockets.allocate, hp]
            using hb
        simp [hnew.closing] at hclosing
      · refine h p b ?_ hclosing
        simpa [installLocalSocket, Sockets.haltWhen, Sockets.modify, Sockets.allocate, hp]
          using hb
  | @link st s q a b f g hs hq _ hlink =>
      have hq' : (st.modify s f).heap q = some b := by simp [Sockets.modify, hlink.ne.symm, hq]
      have hleft : Queued (st.modify s f) := by
        refine ((h.but s).modify f).queued ?_
        intro c hc hclosing
        obtain rfl : f a = c := by simpa [Sockets.modify, hs] using hc
        simp [hlink.closingLeft.2] at hclosing
      refine ((hleft.but q).modify g).queued ?_
      intro c hc hclosing
      obtain rfl : g b = c := by simpa [Sockets.modify, hlink.ne.symm, hq] using hc
      simp [hlink.closingRight.2] at hclosing
  | trans h₁ _ ih₁ ih₂ => exact ih₂ (h₁.wellFormed hwf) (ih₁ hwf h)

theorem queued_closeAtEof (h : Queued st) (hwf : WellFormed st) (s : SocketRef)
    (lastZero isEof : Bool) : Queued (closeAtEof st s lastZero isEof) := by
  unfold closeAtEof
  split
  · exact h
  · split
    · exact (h.but s).close hwf
    · exact h

theorem queued_localSocketWriteEvent (h : Queued st) (hwf : WellFormed st)
    (hs : st.heap s = some a) (hlocal : SocketKind.isLocal a.kind = true) :
    Queued (localSocketWriteEvent ctx st s).2 := by
  have hdrained : Callback (fun _ => True) (fun _ => True) (fun _ => True) st
      ((st.afterWrite s (drain st.writeScript a.pkts)).modify s fun b =>
        { b with pkts := (drain st.writeScript a.pkts).rest }) := .drained hs hlocal
  have hwf₁ := hdrained.wellFormed hwf
  have hcell : ((st.afterWrite s (drain st.writeScript a.pkts)).modify s fun b =>
      { b with pkts := (drain st.writeScript a.pkts).rest }).heap s =
        some { a with pkts := (drain st.writeScript a.pkts).rest } := by
    simp [Sockets.modify, Sockets.afterWrite, hs]
  have hbut : QueuedBut ((st.afterWrite s (drain st.writeScript a.pkts)).modify s fun b =>
      { b with pkts := (drain st.writeScript a.pkts).rest }) s := by
    have hwrote : QueuedBut (st.afterWrite s (drain st.writeScript a.pkts)) s := h.but s
    exact hwrote.modify _
  unfold localSocketWriteEvent
  simp only [hs]
  generalize (st.afterWrite s (drain st.writeScript a.pkts)).modify s (fun b =>
      { b with pkts := (drain st.writeScript a.pkts).rest }) = st₁ at hwf₁ hcell hbut ⊢
  split
  next hagain =>
      refine hbut.queued fun b hb _ => ?_
      obtain rfl := Option.some.inj (hcell.symm.trans hb)
      exact drain_rest_ne_nil (by simp [hagain])
  · have hrecorded : WellFormed (st₁.record (.fdWriteFailed s)) :=
      hwf₁.congr rfl rfl rfl ⟨rfl, rfl⟩
    have hok := hwf₁.socket s _ hcell
    have hbut' : QueuedBut (st₁.record (.fdWriteFailed s)) s := hbut
    exact (hbut'.modify _).close
      (hrecorded.modify hcell (.of_kind rfl rfl rfl rfl hok.queue hok.fde hok.transport))
  next hdone =>
      have hrest : (drain st.writeScript a.pkts).rest = [] := drain_rest_of_done hdone
      split
      · exact hbut.close hwf₁
      next hactive =>
          have hok := hwf₁.socket s _ hcell
          have hwf₂ : WellFormed
              (st₁.modify s fun a => { a with fde := fdeventDel a.fde .fdeWrite }) := by
            refine hwf₁.modify hcell (.of_kind rfl rfl rfl rfl ?_ (hok.fde.fdeventDel _)
              hok.transport)
            intro _ hpkts
            exact absurd hrest hpkts
          have hqueued : Queued
              (st₁.modify s fun a => { a with fde := fdeventDel a.fde .fdeWrite }) := by
            refine (hbut.modify _).queued fun b hb hclosing => ?_
            obtain rfl : { a with
                pkts := (drain st.writeScript a.pkts).rest
                fde := fdeventDel a.fde .fdeWrite } = b := by
              simpa [Sockets.modify, hcell] using hb
            exact absurd hclosing hactive
          split
          · exact hqueued
          next q hpeer =>
              have hq : (st₁.modify s fun a =>
                  { a with fde := fdeventDel a.fde .fdeWrite }).peerOf s = some q := by
                simp [Sockets.peerOf, Sockets.modify, hcell, hpeer]
              have hready : Effect true (fun _ => True) (fun _ => True)
                  (st₁.modify s fun a => { a with fde := fdeventDel a.fde .fdeWrite })
                  (asocketReady ctx
                    (st₁.modify s fun a => { a with fde := fdeventDel a.fde .fdeWrite }) q) :=
                effect_asocketReady hwf₂ (active_peer hwf₂ hq) (.inl rfl) (fun _ _ => trivial) ctx
              exact hqueued.effect hready hwf₂

theorem queued_localSocketReadEvent (h : Queued st) (hwf : WellFormed st)
    (hs : st.heap s = some a) : Queued (localSocketReadEvent ctx st s) := by
  have hread : ∀ out lastZero isEof,
      Queued (closeAtEof (st.afterRead s out) s lastZero isEof) := by
    intro out lastZero isEof
    have hqueued : Queued (st.afterRead s out) := h
    exact queued_closeAtEof hqueued (hwf.congr rfl rfl rfl ⟨rfl, rfl⟩) s _ _
  unfold localSocketReadEvent
  simp only [hs]
  split
  · exact hread _ _ _
  next q hpeer =>
      split
      · exact hread _ _ _
      · generalize readLoop true st.readScript (getMaxPayload ctx.limit st s) = out
        have hwf₁ : WellFormed ((st.afterRead s out).record (.handedOver s out.bytes)) :=
          hwf.congr rfl rfl rfl ⟨rfl, rfl⟩
        have hactive : Active ((st.afterRead s out).record (.handedOver s out.bytes)) q :=
          active_peer hwf₁ (peerOf_eq_some.mpr ⟨a, hs, hpeer⟩)
        have heffect : Effect true (fun _ => True) (fun _ => True)
            ((st.afterRead s out).record (.handedOver s out.bytes))
            (peerEnqueue ctx ((st.afterRead s out).record (.handedOver s out.bytes)) q
              out.bytes).2 :=
          effect_peerEnqueue hwf₁ (fun _ _ _ _ => trivial) hactive (.inl rfl) (.inl rfl)
            (fun _ _ => trivial) (fun _ _ => trivial) out.bytes
        have hwf₂ := heffect.wellFormed hwf₁
        have hqueued : Queued (peerEnqueue ctx
            ((st.afterRead s out).record (.handedOver s out.bytes)) q out.bytes).2 :=
          Queued.effect heffect hwf₁ h
        generalize peerEnqueue ctx ((st.afterRead s out).record (.handedOver s out.bytes)) q
          out.bytes = result at hwf₂ hqueued ⊢
        obtain ⟨r, st₁⟩ := result
        simp only at hwf₂ hqueued ⊢
        split
        · exact hqueued
        split
        · split
          · exact hqueued
          next a' ha' =>
              have hok := hwf₂.socket s a' ha'
              have hwf₃ : WellFormed
                  (st₁.modify s fun a => { a with fde := fdeventDel a.fde .fdeRead }) := by
                refine hwf₂.modify ha' (.of_kind rfl rfl rfl rfl ?_ (hok.fde.fdeventDel _)
                  hok.transport)
                intro hl hpkts
                simpa [EventMask.diff, EventMask.fdeRead, EventMask.empty] using
                  hok.queue hl hpkts
              refine queued_closeAtEof ?_ hwf₃ s _ _
              refine ((hqueued.but s).modify _).queued fun b hb hclosing => ?_
              obtain rfl : { a' with fde := fdeventDel a'.fde .fdeRead } = b := by
                simpa [Sockets.modify, ha'] using hb
              exact hqueued s a' ha' hclosing
        · exact queued_closeAtEof hqueued hwf₂ s _ _

theorem queued_localSocketEventFunc (h : Queued st) (hwf : WellFormed st)
    (hs : st.heap s = some a) (hlocal : SocketKind.isLocal a.kind = true) (ev : EventMask) :
    Queued (localSocketEventFunc ctx st s ev) := by
  unfold localSocketEventFunc
  cases hwrite : ev.write with
  | false =>
      simp only [Bool.false_eq_true, if_false, Bool.true_and]
      split
      · exact queued_localSocketReadEvent h hwf hs
      · exact h
  | true =>
      simp only [if_true]
      have hqueued : Queued (localSocketWriteEvent ctx st s).2 :=
        queued_localSocketWriteEvent h hwf hs hlocal
      have hcallback : Callback (fun _ => True) (fun _ => True) (fun _ => True) st
          (localSocketWriteEvent ctx st s).2 := callback_localSocketWriteEvent ctx hwf hs hlocal
      split
      · cases hs' : (localSocketWriteEvent ctx st s).2.heap s with
        | none =>
            simp only [localSocketReadEvent, hs']
            exact hqueued
        | some a' => exact queued_localSocketReadEvent hqueued (hcallback.wellFormed hwf) hs'
      · exact hqueued

theorem queued_modify_fde (h : Queued st) (s : SocketRef) (f : Fdevent → Fdevent) :
    Queued (st.modify s fun a => { a with fde := f a.fde }) := by
  refine ((h.but s).modify _).queued fun b hb hclosing => ?_
  obtain ⟨a, ha, rfl⟩ : ∃ a, st.heap s = some a ∧ { a with fde := f a.fde } = b := by
    simpa [Sockets.modify] using hb
  exact h s a ha hclosing

theorem queued_dispatchSocket (h : Queued st) (hwf : WellFormed st) (hs : st.heap s = some a)
    (hlocal : SocketKind.isLocal a.kind = true) : Queued (dispatchSocket ctx st s) := by
  unfold dispatchSocket
  simp only [hs]
  have hok := hwf.socket s a hs
  have hcell : (st.modify s fun a => { a with fde := fdeventTake a.fde }).heap s =
      some { a with fde := fdeventTake a.fde } := by
    simp [Sockets.modify, hs]
  exact queued_localSocketEventFunc (queued_modify_fde h s fdeventTake)
    (hwf.modify hs (.of_kind rfl rfl rfl rfl hok.queue hok.fde.fdeventTake hok.transport)) hcell
    hlocal _

theorem queued_subprocExited (h : Queued st) (hwf : WellFormed st) (hs : st.heap s = some a)
    (hlocal : SocketKind.isLocal a.kind = true) (unread : Bool) :
    Queued (subprocExited ctx st s unread) := by
  have hmarked := queued_modify_fde h s fun fde => { fde with forceEof := true }
  have hfaked := queued_modify_fde hmarked s fun fde =>
    { fde with events := fde.events.union .fdeRead, pending := true }
  unfold subprocExited
  simp only [hs]
  split
  · exact hmarked
  · split
    · exact hfaked
    · have hok := hwf.socket s a hs
      have hwf₁ : WellFormed (st.modify s fun a => { a with
          fde := { a.fde with forceEof := true } }) :=
        hwf.modify hs (.of_kind rfl rfl rfl rfl hok.queue ⟨hok.fde.writeWanted, hok.fde.idle⟩
          hok.transport)
      have hcell₁ : (st.modify s fun a => { a with
          fde := { a.fde with forceEof := true } }).heap s =
            some { a with fde := { a.fde with forceEof := true } } := by
        simp [Sockets.modify, hs]
      have hsound : Fdevent.Sound { a.fde with
          forceEof := true, events := a.fde.events.union .fdeRead, pending := true } := by
        refine ⟨fun hw => hok.fde.writeWanted ?_, by simp⟩
        simpa [EventMask.union, EventMask.fdeRead, EventMask.empty] using hw
      have hcell₂ : ((st.modify s fun a => { a with
          fde := { a.fde with forceEof := true } }).modify s fun a => { a with
            fde := { a.fde with events := a.fde.events.union .fdeRead, pending := true } }).heap s =
            some { a with
              fde := { a.fde with
                forceEof := true, events := a.fde.events.union .fdeRead, pending := true } } := by
        simp [Sockets.modify, hs]
      exact queued_dispatchSocket hfaked
        (hwf₁.modify hcell₁ (.of_kind rfl rfl rfl rfl hok.queue hsound hok.transport)) hcell₂
        hlocal

theorem queued_step {cfg : Config} {st : Server} {l : Action × Oracle}
    (h : Queued st.sockets) (hwf : WellFormed st.sockets) (henabled : Enabled cfg st l.1) :
    Queued (step cfg l.2 st l.1).sockets := by
  obtain ⟨action, env⟩ := l
  have hwf' : WellFormed (scripted env st) := hwf.congr rfl rfl rfl ⟨rfl, rfl⟩
  have hscripted : Queued (scripted env st) := h
  have hrun : ∀ {f : ServiceContext → Sockets → Sockets},
      Queued (f (serviceContext cfg env { st with sockets := scripted env st })
        (scripted env st)) →
      Queued (runSockets cfg env { st with sockets := scripted env st } f).sockets := by
    intro f hf p b hb
    have hsame := (@listenerChange_runSockets cfg env
      { st with sockets := scripted env st } f).sockets
    exact hf p b (hsame.heap ▸ hb)
  have hnoted : Queued (noted env st action) := by
    cases action <;> exact h
  have hwfNoted : WellFormed (noted env st action) := by
    cases action <;> exact hwf.congr rfl rfl rfl ⟨rfl, rfl⟩
  cases action with
  | poll s revents => exact queued_modify_fde hscripted s fun fde => fdeventProcess fde revents
  | dispatch s =>
      obtain ⟨a, ha, hkind, -⟩ := henabled
      exact hrun (queued_dispatchSocket hscripted hwf' ha (isLocal_of_kind hkind))
  | subprocExited s unread =>
      obtain ⟨-, a, ha, hkind⟩ := henabled
      exact hrun (queued_subprocExited hscripted hwf' ha (isLocal_of_kind hkind) unread)
  | _ => exact hnoted.effect (effect_step (l := (_, env)) hwf not_false) hwfNoted

end Queues

section Runs

variable {cfg : Config}

/-- What holds of the table after every callback. -/
structure Settled (st : Sockets) : Prop where
  wellFormed : WellFormed st
  checked : Checked st
  trackers : TrackersOk st
  queued : Queued st

theorem Settled.next {st : Server} {l : Action × Oracle} (h : Settled st.sockets)
    (henabled : Enabled cfg st l.1) : Settled (step cfg l.2 st l.1).sockets := by
  have hstep : Callback (fun _ => True) (fun _ => True) (Uses cfg st l.1) st.sockets
      (step cfg l.2 st l.1).sockets :=
    callback_step h.wellFormed henabled (fun _ => .inl trivial) fun _ => .inl trivial
  exact ⟨hstep.wellFormed h.wellFormed, h.checked.callback hstep h.wellFormed,
    h.trackers.callback hstep h.wellFormed, queued_step h.queued h.wellFormed henabled⟩

theorem settled_of_reachable {st : Server} (h : (serverSystem cfg).Reachable st) :
    Settled st.sockets := by
  refine h.invariant (I := fun st => Settled st.sockets) ?_ ?_
  · rintro st rfl
    refine ⟨wellFormed_initial, ⟨listsOk_initial, by simp [Server.initial, Sockets.initial]⟩,
      ⟨?_, ?_⟩, ?_⟩
    · simp [Server.initial, Sockets.initial]
    · simp [Server.initial, Sockets.initial]
    · intro s a ha
      simp [Server.initial, Sockets.initial] at ha
  · intro st l hsettled henabled _
    exact hsettled.next henabled.2

theorem idsKept_run {st st' : Server} (h : (serverSystem cfg).Reachable st)
    (hrun : (serverSystem cfg).ReachableFrom (fun _ _ => True) st st') :
    IdsKept st.sockets st'.sockets := by
  have hboth : Settled st'.sockets ∧ IdsKept st.sockets st'.sockets := by
    refine hrun.preserves (I := fun st' => Settled st'.sockets ∧
      IdsKept st.sockets st'.sockets) ⟨settled_of_reachable h, .of_heap rfl ⟨rfl, rfl⟩⟩ ?_
    intro st' l ⟨hsettled, hids⟩ henabled _
    have hstep : Callback (fun _ => True) (fun _ => True) (Uses cfg st' l.1) st'.sockets
        (step cfg l.2 st' l.1).sockets :=
      callback_step hsettled.wellFormed henabled.2 (fun _ => .inl trivial)
        fun _ => .inl trivial
    exact ⟨hsettled.next henabled.2, hids.trans (idsKept_callback hstep hsettled.wellFormed)⟩
  exact hboth.2

/-- The socket graph. -/
structure GraphInvariant (st : Sockets) : Prop where
  openList : st.links.Ring .localSocketList (st.localSocketList.map .socket)
  closingList : st.links.Ring .localSocketClosingList (st.localSocketClosingList.map .socket)
  apart : ∀ s ∈ st.localSocketList, s ∉ st.localSocketClosingList
  listed : ∀ s ∈ st.localSocketList, ∃ a, st.heap s = some a ∧ 0 < a.id ∧
    a.id < st.localSocketNextId
  distinct : ∀ s s' a a', s ∈ st.localSocketList → s' ∈ st.localSocketList →
    st.heap s = some a → st.heap s' = some a' → a.id = a'.id → s = s'
  peers : ∀ s a q, st.heap s = some a → a.peer = some q →
    ∃ b, st.heap q = some b ∧ b.peer = some s
  closing : ∀ s ∈ st.localSocketClosingList, ∃ a, st.heap s = some a ∧ a.peer = none ∧
    a.closing = true ∧ a.pkts ≠ [] ∧ a.fde.state.write = true
  check : st.halted ≠ some .check

theorem Settled.graphInvariant (h : Settled st) : GraphInvariant st where
  openList := h.checked.lists.opened
  closingList := h.checked.lists.closing
  apart := h.checked.lists.apart
  listed s hs := by
    obtain ⟨a, ha, hlisted, hclosing⟩ := (h.wellFormed.listed s).mp hs
    exact ⟨a, ha, (h.wellFormed.socket s a ha).id hlisted hclosing⟩
  distinct s s' a a' hs hs' ha ha' := h.wellFormed.idInj s s' a a' ha ha' hs hs'
  peers s a q ha hq := by
    obtain ⟨-, b, hb, hback, -⟩ := (h.wellFormed.socket s a ha).peer q hq
    exact ⟨b, hb, hback⟩
  closing s hs := by
    obtain ⟨a, ha, hclosing⟩ := (h.wellFormed.closing s).mp hs
    have hok := h.wellFormed.socket s a ha
    obtain ⟨hkind, hpeer⟩ := hok.closing hclosing
    have hpkts := h.queued s a ha hclosing
    exact ⟨a, ha, hpeer, hclosing, hpkts, hok.queue (by simp [hkind, SocketKind.isLocal]) hpkts⟩
  check := h.checked.check

/-- After every sequence of callbacks the socket graph is in order, and a socket
that is on the list later has the id it had, or one that had not been given
out. -/
theorem socket_graph_kept (cfg : Config) {st : Server} (h : (serverSystem cfg).Reachable st) :
    GraphInvariant st.sockets ∧
      ∀ st', (serverSystem cfg).ReachableFrom (fun _ _ => True) st st' →
        ∀ s ∈ st'.sockets.localSocketList, ∀ b, st'.sockets.heap s = some b →
          (s ∈ st.sockets.localSocketList ∧ (st.sockets.heap s).map Asocket.id = some b.id) ∨
            st.sockets.localSocketNextId ≤ b.id := by
  refine ⟨(settled_of_reachable h).graphInvariant, ?_⟩
  intro st' hrun s hs b hb
  have hwf := wellFormed_of_reachable h
  have hwf' := wellFormed_of_reachable (h.from hrun)
  obtain ⟨b', hb', hlisted, hclosing⟩ := (hwf'.listed s).mp hs
  obtain rfl := Option.some.inj (hb.symm.trans hb')
  rcases (idsKept_run h hrun).ids s b hb hlisted hclosing with ⟨a, ha, hlisted', hactive, hid⟩ | hid
  · exact .inl ⟨(hwf.listed s).mpr ⟨a, ha, hlisted', hactive⟩, by simp [ha, hid]⟩
  · exact .inr hid

/-- A stream is closed while its service has two bytes to read, and another one
is opened. -/
def closeAndOpen : List (Action × Oracle) :=
  [(.register 0 .offline .usb, {}),
    (.packet 0 { command := .aCnxn, arg0 := 0, arg1 := 4096, data := ascii "host::" }, {}),
    (.packet 0 { command := .aOpen, arg0 := 7, arg1 := 0, data := ascii "tcp:5 " }, {}),
    (.packet 0 { command := .aWrte, arg0 := 7, arg1 := 1, data := [1, 2] }, {}),
    (.packet 0 { command := .aClse, arg0 := 7, arg1 := 1, data := [] }, {}),
    (.packet 0 { command := .aOpen, arg0 := 8, arg1 := 0, data := ascii "tcp:5 " }, {})]

theorem socket_graph_kept_closeAndOpen :
    ((serverSystem (plainConfig false false)).execute .initial
        closeAndOpen).sockets.localSocketList = [2] ∧
      ((serverSystem (plainConfig false false)).execute .initial
        closeAndOpen).sockets.localSocketClosingList = [0] ∧
      GraphInvariant ((serverSystem (plainConfig false false)).execute .initial
        closeAndOpen).sockets := by
  have hrun : (serverSystem (plainConfig false false)).Executable (fun _ _ => True) .initial
      closeAndOpen := by decide
  refine ⟨by decide, by decide, (socket_graph_kept (plainConfig false false) ?_).1⟩
  exact System.reachableWhen_execute ⟨.initial, rfl, .refl⟩ hrun

end Runs

end Adb.GraphInvariants
