import Adb.ServerEffects
import Adb.Histories

/-!
What becomes of the packets that a socket still has in its queue when it is
moved to the closing list.
-/

namespace Adb.ClosingDrain

open Adb.DescriptorIo
open Adb.EventInterest
open Adb.WirePackets
open Adb.SocketTable
open Adb.SocketOperations
open Adb.SocketClosing
open Adb.SocketGraph
open Adb.SocketEffects
open Adb.CallbackEffects
open Adb.ServerState
open Adb.ServerRuns
open Adb.ServerEffects
open Adb.TransitionSystems
open Adb.Histories

/-- The bytes that were written to the descriptor of `s`. -/
def bytesWritten (s : SocketRef) (trace : List Event) : Bytes :=
  trace.flatMap fun
    | .fdWrote p data => if p = s then data else []
    | _ => []

/-- The descriptor of `s` is closed only after the queue has been written, or
after a write has failed. -/
def DrainsBeforeClose (s : SocketRef) (trace : List Event) : Prop :=
  ∀ before queued middle after,
    trace = before ++ .movedToClosing s queued :: (middle ++ .fdClosed s :: after) →
      .fdClosed s ∉ middle → .fdWriteFailed s ∈ middle ∨ bytesWritten s middle = queued

/-- What is known of a socket on the closing list: it still has the rest of its
queue, and it never comes back from there. -/
structure Draining (s : SocketRef) (st : Sockets) : Prop where
  drained : DrainsBeforeClose s st.trace
  pending : ∀ before queued middle,
    st.trace = before ++ .movedToClosing s queued :: middle → .fdClosed s ∉ middle →
      ∃ a, st.heap s = some a ∧ a.closing = true ∧
        (.fdWriteFailed s ∈ middle ∨ bytesWritten s middle ++ a.pkts.flatten = queued)
  settled : ∀ queued, .movedToClosing s queued ∈ st.trace →
    s < st.nextRef ∧ ∀ a, st.heap s = some a → a.closing = true

/-- Events that neither move nor close `s`. -/
def Passes (s : SocketRef) (e : Event) : Prop :=
  e ≠ .fdClosed s ∧ ∀ queued, e ≠ .movedToClosing s queued

section Steps

variable {s : SocketRef} {st st' : Sockets} {events : List Event}

theorem bytesWritten_append (s : SocketRef) (old new : List Event) :
    bytesWritten s (old ++ new) = bytesWritten s old ++ bytesWritten s new :=
  List.flatMap_append

theorem bytesWritten_of_about (h : ∀ e ∈ events, Event.about e ≠ some s) :
    bytesWritten s events = [] := by
  refine List.flatMap_eq_nil_iff.mpr fun e he => ?_
  have habout := h e he
  cases e with
  | fdWrote p data =>
      have hp : p ≠ s := by simpa [Event.about] using habout
      simp [hp]
  | _ => rfl

theorem passes_of_about {e : Event} (h : Event.about e ≠ some s) : Passes s e := by
  constructor
  · rintro rfl
    exact h rfl
  · rintro queued rfl
    exact h rfl

theorem Draining.passes (h : Draining s st) (htrace : st'.trace = st.trace ++ events)
    (hpasses : ∀ e ∈ events, Passes s e)
    (hclosing : ∀ a, st.heap s = some a → a.closing = true →
      ∃ a', st'.heap s = some a' ∧ a'.closing = true ∧
        bytesWritten s events ++ a'.pkts.flatten = a.pkts.flatten)
    (hsettled : s < st.nextRef → (∀ a, st.heap s = some a → a.closing = true) →
      s < st'.nextRef ∧ ∀ a', st'.heap s = some a' → a'.closing = true) :
    Draining s st' := by
  have hold : ∀ {before middle : List Event} {queued : Bytes},
      st.trace ++ events = before ++ .movedToClosing s queued :: middle →
        ∃ middle', st.trace = before ++ .movedToClosing s queued :: middle' ∧
          middle = middle' ++ events := by
    intro before middle queued hsplit
    rcases split_append hsplit with hold | ⟨middle', hnew, -⟩
    · exact hold
    · exact absurd rfl ((hpasses (.movedToClosing s queued) (by simp [hnew])).2 queued)
  refine ⟨?_, ?_, ?_⟩
  · intro before queued middle after hsplit hopen
    rw [htrace] at hsplit
    obtain ⟨middle', hmoved, hrest⟩ := hold hsplit
    rcases split_append hrest.symm with ⟨middle'', hclosed, -⟩ | ⟨middle'', hnew, -⟩
    · exact h.drained before queued middle middle'' (by rw [hmoved, hclosed]) hopen
    · exact absurd rfl (hpasses (.fdClosed s) (by simp [hnew])).1
  · intro before queued middle hsplit hopen
    rw [htrace] at hsplit
    obtain ⟨middle', hmoved, rfl⟩ := hold hsplit
    obtain ⟨a, ha, haclosing, hrest⟩ := h.pending before queued middle' hmoved fun hmem =>
      hopen (List.mem_append_left _ hmem)
    obtain ⟨a', ha', haclosing', hwritten⟩ := hclosing a ha haclosing
    refine ⟨a', ha', haclosing', hrest.imp (List.mem_append_left _) fun hrest => ?_⟩
    rw [bytesWritten_append, List.append_assoc, hwritten, hrest]
  · intro queued hmem
    rw [htrace, List.mem_append] at hmem
    rcases hmem with hmem | hmem
    · obtain ⟨hlt, hcells⟩ := h.settled queued hmem
      exact hsettled hlt hcells
    · exact absurd rfl ((hpasses _ hmem).2 queued)

theorem Draining.frame (h : Draining s st) (hemits : Emits (fun e => Event.about e ≠ some s) st st')
    (hheap : st'.heap s = st.heap s) (hnext : st.nextRef ≤ st'.nextRef) : Draining s st' := by
  obtain ⟨events, htrace, hevents⟩ := hemits
  refine h.passes htrace (fun e he => passes_of_about (hevents e he)) ?_ ?_
  · intro a ha haclosing
    refine ⟨a, hheap.trans ha, haclosing, ?_⟩
    rw [bytesWritten_of_about hevents, List.nil_append]
  · intro hlt hcells
    exact ⟨Nat.lt_of_lt_of_le hlt hnext, fun a' ha' => hcells a' (hheap ▸ ha')⟩

theorem Draining.never_moved (h : Draining s st) {a : Asocket} (hs : st.heap s = some a)
    (hactive : a.closing = false) (queued : Bytes) : .movedToClosing s queued ∉ st.trace := by
  intro hmem
  have hclosing := (h.settled queued hmem).2 a hs
  simp [hactive] at hclosing

theorem Draining.modify (h : Draining s st) {p : SocketRef} {a : Asocket} {f : Asocket → Asocket}
    (hp : st.heap p = some a) (hactive : a.closing = false) : Draining s (st.modify p f) := by
  by_cases hs : s = p
  · subst hs
    refine h.passes (List.append_nil _).symm (by simp) ?_ ?_
    · intro a' ha' hclosing
      obtain rfl := Option.some.inj (hp.symm.trans ha')
      simp [hactive] at hclosing
    · intro _ hcells
      have hclosing := hcells a hp
      simp [hactive] at hclosing
  · exact h.frame (.refl rfl) (by simp [Sockets.modify, hs]) (Nat.le_refl _)

/-- Closing an active socket moves it to the closing list with its whole queue,
or destroys it. -/
theorem Draining.closed {T : List SocketRef} (h : Draining s st) (hclosed : Closed T st st')
    {a : Asocket} (hs : st.heap s = some a) (hactive : a.closing = false) (hmem : s ∈ T)
    (hfresh : s < st.nextRef) : Draining s st' := by
  obtain ⟨events, htrace, hevents⟩ := hclosed.emits
  have hnever := h.never_moved hs hactive
  have hheap : st'.heap s = remains a := by
    rw [hclosed.heap, if_pos hmem, hs, Option.bind_some]
  have hmoved : ∀ queued, .movedToClosing s queued ∈ events →
      ∃ a', remains a = some a' ∧ a'.closing = true ∧ a'.pkts.flatten = queued := by
    intro queued hqueued
    obtain ⟨-, a', ha', hflat⟩ := hevents _ hqueued
    rw [hs, Option.bind_some] at ha'
    refine ⟨a', ha', ?_, hflat⟩
    rw [(remains_eq_some ha').2.2.2.2]
  have hnew : ∀ {before middle : List Event} {queued : Bytes},
      st'.trace = before ++ .movedToClosing s queued :: middle →
        ∃ middle', events = middle' ++ .movedToClosing s queued :: middle := by
    intro before middle queued hsplit
    rw [htrace] at hsplit
    rcases split_append hsplit with ⟨middle', hold, -⟩ | ⟨middle', hnew, -⟩
    · exact absurd (by simp [hold]) (hnever queued)
    · exact ⟨middle', hnew⟩
  refine ⟨?_, ?_, ?_⟩
  · intro before queued middle after hsplit _
    obtain ⟨middle', hnew⟩ := hnew hsplit
    obtain ⟨a', ha', -, -⟩ := hmoved queued (by simp [hnew])
    have hgone := (hevents (.fdClosed s) (by simp [hnew])).2
    rw [hs, Option.bind_some, ha'] at hgone
    simp at hgone
  · intro before queued middle hsplit _
    obtain ⟨middle', hnew⟩ := hnew hsplit
    obtain ⟨a', ha', hclosing, hflat⟩ := hmoved queued (by simp [hnew])
    refine ⟨a', hheap.trans ha', hclosing, .inr ?_⟩
    have hnothing : bytesWritten s middle = [] := by
      refine List.flatMap_eq_nil_iff.mpr fun e he => ?_
      have hevent := hevents e (by simp [hnew, he])
      cases e with
      | fdWrote p data => exact hevent.elim
      | _ => rfl
    rw [hnothing, List.nil_append, hflat]
  · intro queued hqueued
    refine ⟨hclosed.counters.nextRef ▸ hfresh, ?_⟩
    intro a' ha'
    rw [hheap] at ha'
    rw [(remains_eq_some ha').2.2.2.2]

theorem Draining.closed_other {T : List SocketRef} (h : Draining s st)
    (hclosed : Closed T st st') (hmem : s ∉ T) : Draining s st' := by
  refine h.frame ?_ ?_ (Nat.le_of_eq hclosed.counters.nextRef.symm)
  · refine hclosed.emits.mono fun e he habout => ?_
    exact hmem ((@quiet_of_closeEvent true st T e he).2 s habout)
  · rw [hclosed.heap, if_neg hmem]

theorem asocketClose_closing_trace {a : Asocket} (hs : st.heap s = some a)
    (hkind : a.kind = .localSocket) (hpeer : a.peer = none) (hclosing : a.closing = true) :
    (asocketClose st s).trace = st.trace ++ [.closeCalled s, .fdClosed s] := by
  simp [asocketClose, asocketCloseFuel, hs, hkind, localSocketClose, Sockets.peerOf,
    Sockets.record, hpeer, localSocketFinish, hclosing, localSocketDestroy, Sockets.haltWhen,
    Sockets.release, removeSocket]

theorem Draining.finish {a : Asocket} (h : Draining s st) (hwf : WellFormed st)
    (hs : st.heap s = some a) (hclosing : a.closing = true)
    (hdrained : a.pkts = [] ∨ st.trace.getLast? = some (.fdWriteFailed s)) :
    Draining s (asocketClose st s) := by
  obtain ⟨hkind, hpeer⟩ := (hwf.socket s a hs).closing hclosing
  have htrace := asocketClose_closing_trace hs hkind hpeer hclosing
  have hclosed := hwf.asocketClose_closed hs
  have hgone : (asocketClose st s).heap s = none := by
    rw [hclosed.heap, if_pos (self_mem_withPeer st s), hs, Option.bind_some]
    exact remains_eq_none (by simp [hclosing])
  have hold : ∀ {before middle : List Event} {queued : Bytes},
      (asocketClose st s).trace = before ++ .movedToClosing s queued :: middle →
        ∃ middle', st.trace = before ++ .movedToClosing s queued :: middle' ∧
          middle = middle' ++ [.closeCalled s, .fdClosed s] := by
    intro before middle queued hsplit
    rw [htrace] at hsplit
    rcases split_append hsplit with hold | ⟨middle', hnew, -⟩
    · exact hold
    · have hmem : Event.movedToClosing s queued ∈ [Event.closeCalled s, .fdClosed s] := by
        rw [hnew]
        simp
      simp at hmem
  refine ⟨?_, ?_, ?_⟩
  · intro before queued middle after hsplit hopen
    obtain ⟨middle', hmoved, hrest⟩ := hold hsplit
    rcases split_append hrest.symm with ⟨middle'', hsame, -⟩ | ⟨middle'', hnew, rfl⟩
    · exact h.drained before queued middle middle'' (by rw [hmoved, hsame]) hopen
    · obtain ⟨a', ha', -, hwritten⟩ := h.pending before queued middle' hmoved fun hmem =>
        hopen (List.mem_append_left _ hmem)
      obtain rfl := Option.some.inj (hs.symm.trans ha')
      refine hwritten.elim (fun hfailed => .inl (List.mem_append_left _ hfailed)) fun hwritten => ?_
      rcases hdrained with hempty | hlast
      · right
        have hnothing : bytesWritten s middle'' = [] := by
          refine List.flatMap_eq_nil_iff.mpr fun e he => ?_
          have hmem : e ∈ [Event.closeCalled s, .fdClosed s] := by
            rw [hnew]
            exact List.mem_append_left _ he
          rcases List.mem_pair.mp hmem with rfl | rfl <;> rfl
        rw [bytesWritten_append, hnothing, List.append_nil]
        simpa [hempty] using hwritten
      · left
        rw [hmoved, List.getLast?_append, List.getLast?_cons] at hlast
        cases hmiddle : middle'.getLast? with
        | none => simp [hmiddle] at hlast
        | some e =>
            obtain rfl : e = .fdWriteFailed s := by simpa [hmiddle] using hlast
            exact List.mem_append_left _ (List.mem_of_getLast? hmiddle)
  · intro before queued middle hsplit hopen
    obtain ⟨middle', -, rfl⟩ := hold hsplit
    simp at hopen
  · intro queued hmem
    refine ⟨hclosed.counters.nextRef ▸ (hwf.socket s a hs).fresh, ?_⟩
    intro a' ha'
    simp [hgone] at ha'

theorem Draining.asocketClose (h : Draining s st) (hwf : WellFormed st) {p : SocketRef}
    {a : Asocket} (hp : st.heap p = some a) (hactive : a.closing = false) :
    Draining s (asocketClose st p) := by
  have hclosed := hwf.asocketClose_closed hp
  by_cases hmem : s ∈ withPeer st p
  · have hs : ∃ b, st.heap s = some b ∧ b.closing = false := by
      rcases mem_withPeer.mp hmem with rfl | hpeer
      · exact ⟨a, hp, hactive⟩
      · obtain ⟨b, hb, -⟩ := peerOf_eq_some.mp (hwf.peerOf_symm hpeer)
        exact ⟨b, hb, active_peer hwf hpeer b hb⟩
    obtain ⟨b, hb, hbactive⟩ := hs
    exact h.closed hclosed hb hbactive hmem (hwf.socket s b hb).fresh
  · exact h.closed_other hclosed hmem

theorem Draining.allocated (h : Draining s st) (hwf : WellFormed st)
    (htrace : st'.trace = st.trace) (hheap : ∀ p, p ≠ st.nextRef → st'.heap p = st.heap p)
    (hnext : st.nextRef ≤ st'.nextRef) : Draining s st' := by
  by_cases hs : s = st.nextRef
  · refine h.passes (htrace.trans (List.append_nil _).symm) (by simp) ?_ ?_
    · intro a ha
      exact absurd hs (Nat.ne_of_lt (hwf.socket s a ha).fresh)
    · intro hlt
      exact absurd hs (Nat.ne_of_lt hlt)
  · exact h.frame (.refl htrace) (hheap s hs) hnext

theorem Draining.effect {free : Bool} {T : SocketRef → Prop} {R : TransportRef → Prop}
    (heffect : Effect free T R st st') (hwf : WellFormed st) (h : Draining s st) :
    Draining s st' := by
  induction heffect with
  | same hsame =>
      exact h.frame (.refl hsame.trace) (by rw [hsame.heap])
        (Nat.le_of_eq hsame.counters.nextRef.symm)
  | @note st e hnoted habout =>
      by_cases hs : Event.about e = some s
      · have hactive := (habout s hs).2
        refine h.passes rfl ?_ ?_ fun hlt hcells => ⟨hlt, hcells⟩
        · simp only [List.mem_singleton, forall_eq]
          constructor
          · rintro rfl
            exact hnoted
          · rintro queued rfl
            exact hnoted
        · intro a ha hclosing
          simp [hactive a ha] at hclosing
      · exact h.frame (.single rfl hs) rfl (Nat.le_refl _)
  | send => exact h.frame (.single rfl (by simp [Event.about])) rfl (Nat.le_refl _)
  | update hs _ hf => exact h.modify hs hf.active
  | close hs hactive _ => exact h.asocketClose hwf hs hactive
  | allocate =>
      exact h.allocated hwf rfl (fun p hp => by simp [Sockets.allocate, hp]) (Nat.le_succ _)
  | install =>
      refine h.allocated hwf rfl (fun p hp => ?_) (Nat.le_succ _)
      simp [installLocalSocket, Sockets.haltWhen, Sockets.modify, Sockets.allocate, hp]
  | @link st p q a b f g hp hq _ hlink =>
      have hq' : (st.modify p f).heap q = some b := by simp [Sockets.modify, hlink.ne.symm, hq]
      exact (h.modify hp hlink.closingLeft.1).modify hq' hlink.closingRight.1
  | track => exact h.frame (.refl rfl) rfl (Nat.le_refl _)
  | trans h₁ _ ih₁ ih₂ => exact ih₂ (h₁.wellFormed hwf) (ih₁ hwf h)

theorem Draining.callback {lossy drops : SocketRef → Prop} {R : TransportRef → Prop}
    (hcallback : Callback lossy drops R st st') (hdrops : ¬ drops s) (hwf : WellFormed st)
    (h : Draining s st) : Draining s st' := by
  induction hcallback with
  | effect heffect => exact h.effect heffect hwf
  | @own st p a f hp hf =>
      by_cases hs : s = p
      · subst hs
        have hcell : (st.modify s f).heap s = some (f a) := by simp [Sockets.modify, hp]
        refine h.passes (List.append_nil _).symm (by simp) ?_ ?_
        · intro a' ha' hclosing
          obtain rfl := Option.some.inj (hp.symm.trans ha')
          exact ⟨f a, hcell, hf.closing.trans hclosing, by rw [hf.pkts]; rfl⟩
        · intro hlt hcells
          refine ⟨hlt, fun a' ha' => ?_⟩
          obtain rfl := Option.some.inj (hcell.symm.trans ha')
          exact hf.closing.trans (hcells a hp)
      · exact h.frame (.refl rfl) (by simp [Sockets.modify, hs]) (Nat.le_refl _)
  | @drained st p a hp _ =>
      by_cases hs : s = p
      · subst hs
        refine h.passes rfl (by simp [Passes]) ?_ ?_
        · intro a' ha' hclosing
          obtain rfl := Option.some.inj (hp.symm.trans ha')
          refine ⟨{ a with pkts := (drain st.writeScript a.pkts).rest }, ?_, hclosing, ?_⟩
          · simp [Sockets.modify, Sockets.afterWrite, hp]
          · simpa [bytesWritten] using drain_append st.writeScript a.pkts
        · intro hlt hcells
          refine ⟨hlt, fun a' ha' => ?_⟩
          obtain rfl : { a with pkts := (drain st.writeScript a.pkts).rest } = a' := by
            simpa [Sockets.modify, Sockets.afterWrite, hp] using ha'
          exact hcells a hp
      · refine h.frame (.single rfl ?_) ?_ (Nat.le_refl _)
        · simp [Event.about, Ne.symm hs]
        · simp [Sockets.modify, Sockets.afterWrite, hs]
  | failed =>
      exact h.passes rfl (by simp [Passes])
        (fun a ha hclosing => ⟨a, ha, hclosing, by simp [bytesWritten]⟩)
        fun hlt hcells => ⟨hlt, hcells⟩
  | @finish st p a hp hclosing hdrained =>
      by_cases hs : s = p
      · subst hs
        exact h.finish hwf hp hclosing (hdrained.resolve_left hdrops)
      · refine h.closed_other (hwf.asocketClose_closed hp) fun hmem => ?_
        have hnone := ((hwf.socket p a hp).closing hclosing).2
        rcases mem_withPeer.mp hmem with rfl | hpeer
        · exact hs rfl
        · simp [Sockets.peerOf, hp, hnone] at hpeer
  | readSilent | received =>
      exact h.passes rfl (by simp [Passes])
        (fun a ha hclosing => ⟨a, ha, hclosing, by simp [bytesWritten]⟩)
        fun hlt hcells => ⟨hlt, hcells⟩
  | readHanded p out =>
      exact h.passes (List.append_assoc _ _ _) (by simp [Passes])
        (fun a ha hclosing => ⟨a, ha, hclosing, by simp [bytesWritten]⟩)
        fun hlt hcells => ⟨hlt, hcells⟩
  | trans h₁ _ ih₁ ih₂ => exact ih₂ (h₁.wellFormed hwf) (ih₁ hwf h)

end Steps

/-- In a run in which no read event destroys `s` on the closing list, `s` is
drained before its descriptor is closed. -/
theorem drainsBeforeClose_of_spares (cfg : Config) (s : SocketRef) {st : Server}
    (h : (serverSystem cfg).ReachableWhen (Spares cfg s) st) :
    DrainsBeforeClose s st.sockets.trace := by
  refine (h.invariant (I := fun st => WellFormed st.sockets ∧ Draining s st.sockets)
    ?_ ?_).2.drained
  · rintro st rfl
    exact ⟨wellFormed_initial, ⟨by simp [DrainsBeforeClose, Server.initial, Sockets.initial],
      by simp [Server.initial, Sockets.initial], by simp [Server.initial, Sockets.initial]⟩⟩
  · intro st l hinv henabled hspares
    have hstep : Callback (fun _ => True) (· ≠ s) (Uses cfg st l.1) st.sockets
        (step cfg l.2 st l.1).sockets := by
      refine callback_step hinv.1 henabled.2 (fun _ => .inl trivial) fun p => ?_
      by_cases hp : p = s
      · exact .inr (hp ▸ hspares)
      · exact .inl hp
    exact ⟨hstep.wellFormed hinv.1, hinv.2.callback hstep (fun hs => hs rfl) hinv.1⟩

/-- The other end opens a stream to a service on the device, sends it two bytes
that cannot be written yet, and closes the stream. -/
def closeWithQueue : List (Action × Oracle) :=
  [(.register 0 .offline .usb, {}),
    (.packet 0 { command := .aCnxn, arg0 := 0x01000000, arg1 := 4096, data := ascii "host::" }, {}),
    (.packet 0 { command := .aOpen, arg0 := 7, arg1 := 0, data := ascii "tcp:5 " }, {}),
    (.packet 0 { command := .aWrte, arg0 := 7, arg1 := 1, data := [1, 2] }, {}),
    (.packet 0 { command := .aClse, arg0 := 7, arg1 := 1, data := [] }, {})]

/-- The service reads the two bytes. -/
def drainQueue : List (Action × Oracle) :=
  closeWithQueue.append
    [(.poll 0 .writable, {}), (.dispatch 0, { writes := [.wrote 1, .wrote 1] })]

/-- The service shuts down its side first. -/
def dropQueue : List (Action × Oracle) :=
  closeWithQueue.append [(.poll 0 .halfClosed, {}), (.dispatch 0, { reads := [.data []] })]

theorem drainsBeforeClose_drainQueue :
    (serverSystem (plainConfig false false)).Executable (Spares (plainConfig false false) 0)
        .initial drainQueue ∧
      .movedToClosing 0 [1, 2] ∈ ((serverSystem (plainConfig false false)).execute .initial
        drainQueue).sockets.trace ∧
      .fdClosed 0 ∈ ((serverSystem (plainConfig false false)).execute .initial
        drainQueue).sockets.trace ∧
      DrainsBeforeClose 0 ((serverSystem (plainConfig false false)).execute .initial
        drainQueue).sockets.trace := by
  have hrun : (serverSystem (plainConfig false false)).Executable
      (Spares (plainConfig false false) 0) .initial drainQueue := by decide
  refine ⟨hrun, by decide, by decide, drainsBeforeClose_of_spares (plainConfig false false) 0 ?_⟩
  exact System.reachableWhen_execute ⟨.initial, rfl, .refl⟩ hrun

/-- The queue is thrown away although no write has failed. -/
theorem drainsBeforeClose_fails_dropQueue :
    (serverSystem (plainConfig false false)).Executable (fun _ _ => True) .initial dropQueue ∧
      ¬ DrainsBeforeClose 0 ((serverSystem (plainConfig false false)).execute .initial
        dropQueue).sockets.trace := by
  have htrace : ((serverSystem (plainConfig false false)).execute .initial
      dropQueue).sockets.trace =
        (((serverSystem (plainConfig false false)).execute .initial
          closeWithQueue).sockets.trace.dropLast) ++
            .movedToClosing 0 [1, 2] :: ([.fdRead 0 [], .closeCalled 0] ++ .fdClosed 0 :: []) := by
    decide
  refine ⟨by decide, fun h => ?_⟩
  have hdrained := h _ [1, 2] [.fdRead 0 [], .closeCalled 0] [] htrace (by decide)
  revert hdrained
  decide

end Adb.ClosingDrain
