import Adb.SocketOperations

/-!
What closing a socket does to the table: the socket and its peer are gone, or
wait on the closing list with what they still have to write, and nothing else
changes.
-/

namespace Adb.SocketClosing

open Adb.DescriptorIo
open Adb.EventInterest
open Adb.WirePackets
open Adb.SocketTable
open Adb.SocketOperations

/-- The kinds whose sockets own a descriptor. -/
def SocketKind.isLocal : SocketKind → Bool
  | .localSocket | .localNotify => true
  | _ => false

/-- The kinds that `install_local_socket` puts on the list. -/
def SocketKind.isListed : SocketKind → Bool
  | .localSocket | .localNotify | .jdwp | .jdwpTracker => true
  | _ => false

/-- What is left of a socket after it has been closed. -/
def remains (a : Asocket) : Option Asocket :=
  if SocketKind.isLocal a.kind && !(a.closing || a.hasWriteError || a.pkts.isEmpty) then
    some { a with
      kind := .localSocket
      id := 0
      closing := true
      peer := none
      fde := fdeventDel a.fde .fdeRead }
  else none

/-- The socket that an event is about; messages are about none. -/
def Event.about : Event → Option SocketRef
  | .received _ _ | .sent _ _ => none
  | .connected s _ _ _ | .readyCalled s | .enqueueCalled s _ | .closeCalled s
  | .fdRead s _ | .handedOver s _ | .fdWrote s _ | .fdWriteFailed s | .fdClosed s
  | .movedToClosing s _ | .replied s _ => some s

/-- The history grows by events that satisfy `P`. -/
def Emits (P : Event → Prop) (st st' : Sockets) : Prop :=
  ∃ events, st'.trace = st.trace ++ events ∧ ∀ e ∈ events, P e

theorem Emits.refl {P : Event → Prop} {st st' : Sockets} (h : st'.trace = st.trace) :
    Emits P st st' :=
  ⟨[], by simp [h], by simp⟩

theorem Emits.single {P : Event → Prop} {st st' : Sockets} {e : Event}
    (h : st'.trace = st.trace ++ [e]) (he : P e) : Emits P st st' :=
  ⟨[e], h, by simpa using he⟩

theorem Emits.trans {P : Event → Prop} {st₁ st₂ st₃ : Sockets}
    (h₁ : Emits P st₁ st₂) (h₂ : Emits P st₂ st₃) : Emits P st₁ st₃ := by
  obtain ⟨events₁, htrace₁, hevents₁⟩ := h₁
  obtain ⟨events₂, htrace₂, hevents₂⟩ := h₂
  refine ⟨events₁ ++ events₂, by rw [htrace₂, htrace₁, List.append_assoc], ?_⟩
  intro e he
  rcases List.mem_append.mp he with he | he
  · exact hevents₁ e he
  · exact hevents₂ e he

theorem Emits.mono {P Q : Event → Prop} {st st' : Sockets} (h : Emits P st st')
    (hPQ : ∀ e, P e → Q e) : Emits Q st st' := by
  obtain ⟨events, htrace, hevents⟩ := h
  exact ⟨events, htrace, fun e he => hPQ e (hevents e he)⟩

/-- The parts of the table that only creating a socket changes. -/
structure SameCounters (st st' : Sockets) : Prop where
  nextRef : st'.nextRef = st.nextRef
  nextId : st'.localSocketNextId = st.localSocketNextId

theorem SameCounters.rfl' {st : Sockets} : SameCounters st st := ⟨rfl, rfl⟩

theorem SameCounters.trans {st₁ st₂ st₃ : Sockets} (h₁ : SameCounters st₁ st₂)
    (h₂ : SameCounters st₂ st₃) : SameCounters st₁ st₃ :=
  ⟨h₂.nextRef.trans h₁.nextRef, h₂.nextId.trans h₁.nextId⟩

/-- The trackers that are left of those that were registered. -/
structure FewerTrackers (st st' : Sockets) : Prop where
  jdwp : st'.jdwpTrackers.Sublist st.jdwpTrackers
  device : st'.deviceTrackerList.Sublist st.deviceTrackerList

theorem FewerTrackers.trans {st₁ st₂ st₃ : Sockets} (h₁ : FewerTrackers st₁ st₂)
    (h₂ : FewerTrackers st₂ st₃) : FewerTrackers st₁ st₃ :=
  ⟨h₂.jdwp.trans h₁.jdwp, h₂.device.trans h₁.device⟩

/-- The events of closing the sockets in `T`. -/
def CloseEvent (st : Sockets) (T : List SocketRef) : Event → Prop
  | .closeCalled p => p ∈ T
  | .replied p r => p ∈ T ∧ r = .fail (ascii "closed")
  | .fdClosed p => p ∈ T ∧ (st.heap p).bind remains = none
  | .movedToClosing p queued =>
      p ∈ T ∧ ∃ a, (st.heap p).bind remains = some a ∧ a.pkts.flatten = queued
  | .sent _ p => p.command = .aClse
  | _ => False

/-- The sockets in `T` have been closed, and nothing else has happened. -/
structure Closed (T : List SocketRef) (st st' : Sockets) : Prop where
  heap : ∀ p, st'.heap p = if p ∈ T then (st.heap p).bind remains else st.heap p
  listed : ∀ p, p ∈ st'.localSocketList ↔ p ∈ st.localSocketList ∧ p ∉ T
  closing : ∀ p, p ∈ st'.localSocketClosingList ↔
    (p ∈ st.localSocketClosingList ∧ p ∉ T) ∨
      (p ∈ T ∧ ((st.heap p).bind remains).isSome)
  counters : SameCounters st st'
  scripts : st'.readScript = st.readScript ∧ st'.writeScript = st.writeScript
  requests : st'.forwardRequests = st.forwardRequests
  trackers : FewerTrackers st st'
  emits : Emits (CloseEvent st T) st st'

/-- The lists agree with the kind of the socket `s`. -/
structure Placed (st : Sockets) (s : SocketRef) (a : Asocket) : Prop where
  listed : SocketKind.isListed a.kind = true →
    s ∈ st.localSocketList ∨ s ∈ st.localSocketClosingList
  unlisted : SocketKind.isListed a.kind = false →
    s ∉ st.localSocketList ∧ s ∉ st.localSocketClosingList

theorem mem_filter_ne {l : List SocketRef} {s p : SocketRef} :
    p ∈ l.filter (· ≠ s) ↔ p ∈ l ∧ p ≠ s := by
  simp

theorem removeSocket_heap (st : Sockets) (s p : SocketRef) :
    (removeSocket st s).heap p =
      if p = s ∧ (s ∈ st.localSocketList ∨ s ∈ st.localSocketClosingList) then
        (st.heap s).map fun a => { a with id := 0 }
      else st.heap p := by
  by_cases hp : p = s
  · subst hp
    by_cases hlinked : p ∈ st.localSocketList ∨ p ∈ st.localSocketClosingList <;>
      simp [removeSocket, hlinked]
  · by_cases hlinked : s ∈ st.localSocketList ∨ s ∈ st.localSocketClosingList <;>
      simp [removeSocket, hlinked, hp]

theorem remains_eq_none {a : Asocket}
    (h : (a.closing || a.hasWriteError || a.pkts.isEmpty) = true) : remains a = none := by
  simp [remains, h]

theorem remains_of_not_local {a : Asocket} (h : SocketKind.isLocal a.kind = false) :
    remains a = none := by
  simp [remains, h]

theorem localSocketFinish_closed {st : Sockets} {s : SocketRef} {a : Asocket}
    (h : st.heap s = some a) (hkind : a.kind = .localSocket) (hpeer : a.peer = none)
    (hplaced : Placed st s a) : Closed [s] st (localSocketFinish st s) := by
  have hlists : s ∈ st.localSocketList ∨ s ∈ st.localSocketClosingList :=
    hplaced.listed (by simp [hkind, SocketKind.isListed])
  unfold localSocketFinish
  simp only [h]
  split
  · rename_i hgone
    have hremains : remains a = none := remains_eq_none hgone
    simp only [localSocketDestroy, h]
    constructor
    · intro p
      by_cases hp : p = s
      · subst hp
        simp [Sockets.haltWhen, Sockets.release, h, hremains]
      · simp [Sockets.haltWhen, Sockets.release, removeSocket_heap, hp, Sockets.record]
    · intro p
      simp [Sockets.haltWhen, Sockets.release, removeSocket, Sockets.record]
    · intro p
      by_cases hp : p = s
      · subst hp
        simp [Sockets.haltWhen, Sockets.release, removeSocket, Sockets.record, h, hremains]
      · simp [Sockets.haltWhen, Sockets.release, removeSocket, Sockets.record, hp]
    · exact ⟨rfl, rfl⟩
    · exact ⟨rfl, rfl⟩
    · rfl
    · exact ⟨.refl _, .refl _⟩
    · exact .single rfl (by simp [CloseEvent, h, hremains])
  · rename_i hstays
    have hremains : remains a = some { a with
        kind := .localSocket
        id := 0
        closing := true
        peer := none
        fde := fdeventDel a.fde .fdeRead } := by
      simp only [Bool.not_eq_true] at hstays
      simp [remains, hkind, SocketKind.isLocal, hstays]
    constructor
    · intro p
      by_cases hp : p = s
      · subst hp
        simp [Sockets.haltWhen, Sockets.record, removeSocket_heap, Sockets.modify,
          h, hlists, hremains, hpeer, hkind]
      · simp [Sockets.haltWhen, Sockets.record, removeSocket_heap, Sockets.modify, hp]
    · intro p
      simp [Sockets.haltWhen, Sockets.record, removeSocket, Sockets.modify]
    · intro p
      by_cases hp : p = s
      · subst hp
        simp [Sockets.haltWhen, Sockets.record, removeSocket, Sockets.modify, h, hremains]
      · simp [Sockets.haltWhen, Sockets.record, removeSocket, Sockets.modify, hp]
    · exact ⟨rfl, rfl⟩
    · exact ⟨rfl, rfl⟩
    · rfl
    · exact ⟨.refl _, .refl _⟩
    · exact .single rfl (by simp [CloseEvent, h, hremains])

/-- The state has been made ready for closing the sockets in `T`: pointers and
function tables in `T` may have changed, but not what will remain. -/
structure Prepared (T : List SocketRef) (st st' : Sockets) : Prop where
  outside : ∀ p, p ∉ T → st'.heap p = st.heap p
  inside : ∀ p, p ∈ T → (st'.heap p).bind remains = (st.heap p).bind remains
  listed : st'.localSocketList = st.localSocketList
  closing : st'.localSocketClosingList = st.localSocketClosingList
  counters : SameCounters st st'
  scripts : st'.readScript = st.readScript ∧ st'.writeScript = st.writeScript
  requests : st'.forwardRequests = st.forwardRequests
  trackers : FewerTrackers st st'
  emits : Emits (CloseEvent st T) st st'

theorem CloseEvent.mono {st st' : Sockets} {T U : List SocketRef}
    (hsub : ∀ p ∈ T, p ∈ U)
    (hsame : ∀ p ∈ T, (st'.heap p).bind remains = (st.heap p).bind remains)
    (e : Event) (h : CloseEvent st' T e) : CloseEvent st U e := by
  cases e with
  | closeCalled p => exact hsub p h
  | replied p r => exact ⟨hsub p h.1, h.2⟩
  | fdClosed p => exact ⟨hsub p h.1, hsame p h.1 ▸ h.2⟩
  | movedToClosing p queued => exact ⟨hsub p h.1, hsame p h.1 ▸ h.2⟩
  | sent t p => exact h
  | _ => exact h.elim

theorem Prepared.refl (T : List SocketRef) (st : Sockets) : Prepared T st st :=
  ⟨fun _ _ => rfl, fun _ _ => rfl, rfl, rfl, .rfl', ⟨rfl, rfl⟩, rfl, ⟨.refl _, .refl _⟩, .refl rfl⟩

theorem Prepared.trans {T : List SocketRef} {st₁ st₂ st₃ : Sockets}
    (h₁ : Prepared T st₁ st₂) (h₂ : Prepared T st₂ st₃) : Prepared T st₁ st₃ where
  outside p hp := (h₂.outside p hp).trans (h₁.outside p hp)
  inside p hp := (h₂.inside p hp).trans (h₁.inside p hp)
  listed := h₂.listed.trans h₁.listed
  closing := h₂.closing.trans h₁.closing
  counters := h₁.counters.trans h₂.counters
  scripts := ⟨h₂.scripts.1.trans h₁.scripts.1, h₂.scripts.2.trans h₁.scripts.2⟩
  requests := h₂.requests.trans h₁.requests
  trackers := h₁.trackers.trans h₂.trackers
  emits := h₁.emits.trans (h₂.emits.mono (CloseEvent.mono (fun _ hp => hp) h₁.inside))

theorem Prepared.mono {T U : List SocketRef} {st st' : Sockets} (h : Prepared T st st')
    (hsub : ∀ p ∈ T, p ∈ U) : Prepared U st st' where
  outside p hp := h.outside p fun hT => hp (hsub p hT)
  inside p _ := by
    by_cases hT : p ∈ T
    · exact h.inside p hT
    · rw [h.outside p hT]
  listed := h.listed
  closing := h.closing
  counters := h.counters
  scripts := h.scripts
  requests := h.requests
  trackers := h.trackers
  emits := h.emits.mono (CloseEvent.mono hsub fun _ _ => rfl)

theorem Prepared.closed {T : List SocketRef} {st₁ st₂ st₃ : Sockets}
    (h₁ : Prepared T st₁ st₂) (h₂ : Closed T st₂ st₃) : Closed T st₁ st₃ where
  heap p := by
    rw [h₂.heap]
    split
    · rename_i hp
      exact h₁.inside p hp
    · rename_i hp
      exact h₁.outside p hp
  listed p := by rw [h₂.listed, h₁.listed]
  closing p := by
    rw [h₂.closing, h₁.closing]
    constructor
    · rintro (hp | ⟨hp, hsome⟩)
      · exact .inl hp
      · exact .inr ⟨hp, h₁.inside p hp ▸ hsome⟩
    · rintro (hp | ⟨hp, hsome⟩)
      · exact .inl hp
      · exact .inr ⟨hp, h₁.inside p hp ▸ hsome⟩
  counters := h₁.counters.trans h₂.counters
  scripts := ⟨h₂.scripts.1.trans h₁.scripts.1, h₂.scripts.2.trans h₁.scripts.2⟩
  requests := h₂.requests.trans h₁.requests
  trackers := h₁.trackers.trans h₂.trackers
  emits := h₁.emits.trans (h₂.emits.mono (CloseEvent.mono (fun _ hp => hp) h₁.inside))

theorem Closed.pair {s q : SocketRef} {st₁ st₂ st₃ : Sockets} (hne : s ≠ q)
    (h₁ : Closed [q] st₁ st₂) (h₂ : Closed [s] st₂ st₃) : Closed [s, q] st₁ st₃ := by
  have hheap : st₂.heap s = st₁.heap s := by
    rw [h₁.heap]
    simp [hne]
  refine ⟨?_, ?_, ?_, h₁.counters.trans h₂.counters,
    ⟨h₂.scripts.1.trans h₁.scripts.1, h₂.scripts.2.trans h₁.scripts.2⟩,
    h₂.requests.trans h₁.requests, h₁.trackers.trans h₂.trackers, ?_⟩
  · intro p
    rw [h₂.heap, h₁.heap]
    by_cases hps : p = s
    · subst hps
      simp [hne]
    · simp [hps]
  · intro p
    rw [h₂.listed, h₁.listed]
    simp only [List.mem_cons, List.not_mem_nil, or_false, not_or]
    tauto
  · intro p
    rw [h₂.closing, h₁.closing]
    by_cases hps : p = s
    · subst hps
      simp [hheap]
    · simp [hps]
  · refine (h₁.emits.mono ?_).trans (h₂.emits.mono ?_)
    · exact CloseEvent.mono (by simp) fun _ _ => rfl
    · refine CloseEvent.mono (by simp) fun p hp => ?_
      obtain rfl : p = s := by simpa using hp
      rw [hheap]

theorem prepared_clearPeer (st : Sockets) (s : SocketRef) :
    Prepared [s] st (st.modify s fun a => { a with peer := none }) where
  outside p hp := by
    have hne : p ≠ s := by simpa using hp
    simp [Sockets.modify, hne]
  inside p hp := by
    obtain rfl : p = s := by simpa using hp
    cases h : st.heap p <;> simp [Sockets.modify, h, remains]
  listed := rfl
  closing := rfl
  counters := ⟨rfl, rfl⟩
  scripts := ⟨rfl, rfl⟩
  requests := rfl
  trackers := ⟨.refl _, .refl _⟩
  emits := .refl rfl

theorem prepared_record {st : Sockets} {T : List SocketRef} {e : Event}
    (h : CloseEvent st T e) : Prepared T st (st.record e) :=
  ⟨fun _ _ => rfl, fun _ _ => rfl, rfl, rfl, ⟨rfl, rfl⟩, ⟨rfl, rfl⟩, rfl, ⟨.refl _, .refl _⟩,
    .single rfl h⟩

theorem prepared_halt (st : Sockets) (T : List SocketRef) (reason : Halt) :
    Prepared T st (st.halt reason) :=
  ⟨fun _ _ => rfl, fun _ _ => rfl, rfl, rfl, ⟨rfl, rfl⟩, ⟨rfl, rfl⟩, rfl, ⟨.refl _, .refl _⟩, .refl rfl⟩

theorem prepared_asocketShutdown (st : Sockets) (T : List SocketRef) (q : SocketRef) :
    Prepared T st (asocketShutdown st q) := by
  unfold asocketShutdown
  split
  · unfold remoteSocketShutdown
    split
    · exact prepared_halt st T _
    · unfold sendOn
      split
      · exact prepared_halt st T _
      · exact ⟨fun _ _ => rfl, fun _ _ => rfl, rfl, rfl, ⟨rfl, rfl⟩, ⟨rfl, rfl⟩, rfl,
          ⟨.refl _, .refl _⟩, .single rfl rfl⟩
  · exact .refl T st

theorem prepared_plain {st : Sockets} {s : SocketRef} {a : Asocket}
    (h : st.heap s = some a) (hkind : a.kind = .localNotify) :
    Prepared [s] st
      ((st.modify s fun a => { a with kind := .localSocket }).reply s
        (.fail (ascii "closed"))) where
  outside p hp := by
    have hne : p ≠ s := by simpa using hp
    simp [Sockets.modify, Sockets.reply, Sockets.record, hne]
  inside p hp := by
    obtain rfl : p = s := by simpa using hp
    simp [Sockets.modify, Sockets.reply, Sockets.record, h, remains, hkind,
      SocketKind.isLocal]
  listed := rfl
  closing := rfl
  counters := ⟨rfl, rfl⟩
  scripts := ⟨rfl, rfl⟩
  requests := rfl
  trackers := ⟨.refl _, .refl _⟩
  emits := .single rfl ⟨by simp, rfl⟩

/-- Freeing a socket that is on no list, and the two trackers' bookkeeping. -/
theorem closed_release {st st' : Sockets} {s : SocketRef} {a : Asocket}
    (h : st.heap s = some a) (hlocal : SocketKind.isLocal a.kind = false)
    (hheap : st'.heap = Function.update st.heap s none)
    (hlisted : ∀ p, p ∈ st'.localSocketList ↔ p ∈ st.localSocketList ∧ p ≠ s)
    (hclosing : ∀ p, p ∈ st'.localSocketClosingList ↔
      p ∈ st.localSocketClosingList ∧ p ≠ s)
    (hcounters : SameCounters st st')
    (hscripts : st'.readScript = st.readScript ∧ st'.writeScript = st.writeScript)
    (hrequests : st'.forwardRequests = st.forwardRequests)
    (htrackers : FewerTrackers st st')
    (htrace : st'.trace = st.trace) : Closed [s] st st' := by
  have hremains : remains a = none := remains_of_not_local hlocal
  refine ⟨?_, ?_, ?_, hcounters, hscripts, hrequests, htrackers, .refl htrace⟩
  · intro p
    rw [hheap]
    by_cases hp : p = s
    · subst hp
      simp [h, hremains]
    · simp [hp]
  · simpa using hlisted
  · intro p
    rw [hclosing]
    by_cases hp : p = s
    · subst hp
      simp [h, hremains]
    · simp [hp]

theorem Placed.of_lists {st st' : Sockets} {s : SocketRef} {a a' : Asocket}
    (h : Placed st s a) (hkind : SocketKind.isListed a'.kind = SocketKind.isListed a.kind)
    (hlisted : s ∈ st'.localSocketList ↔ s ∈ st.localSocketList)
    (hclosing : s ∈ st'.localSocketClosingList ↔ s ∈ st.localSocketClosingList) :
    Placed st' s a' where
  listed hl := by
    rw [hlisted, hclosing]
    exact h.listed (hkind ▸ hl)
  unlisted hl := by
    rw [hlisted, hclosing]
    exact h.unlisted (hkind ▸ hl)

/-- What every close function but those of local sockets ends with. -/
def freeSocket (kind : SocketKind) (st : Sockets) (s : SocketRef) : Sockets :=
  match kind with
  | .jdwp => (removeSocket st s).release s
  | .jdwpTracker =>
      let st := removeSocket st s
      { st with jdwpTrackers := st.jdwpTrackers.filter (· ≠ s) }.release s
  | .deviceTracker =>
      { st with deviceTrackerList := st.deviceTrackerList.filter (· ≠ s) }.release s
  | _ => st.release s

theorem freeSocket_closed {st : Sockets} {s : SocketRef} {a : Asocket}
    (h : st.heap s = some a) (hlocal : SocketKind.isLocal a.kind = false)
    (hplaced : Placed st s a) : Closed [s] st (freeSocket a.kind st s) := by
  have hoff : SocketKind.isListed a.kind = false →
      (∀ p, p ∈ st.localSocketList ↔ p ∈ st.localSocketList ∧ p ≠ s) ∧
        ∀ p, p ∈ st.localSocketClosingList ↔ p ∈ st.localSocketClosingList ∧ p ≠ s := by
    intro hl
    obtain ⟨hlisted, hclosing⟩ := hplaced.unlisted hl
    refine ⟨fun p => ⟨fun hp => ⟨hp, ?_⟩, And.left⟩, fun p => ⟨fun hp => ⟨hp, ?_⟩, And.left⟩⟩
    · rintro rfl
      exact hlisted hp
    · rintro rfl
      exact hclosing hp
  have hupdate : Function.update (removeSocket st s).heap s none =
      Function.update st.heap s none := by
    funext p
    by_cases hp : p = s <;> simp [removeSocket_heap, hp]
  cases hkind : a.kind with
  | localSocket | localNotify => simp [hkind, SocketKind.isLocal] at hlocal
  | remote | smart =>
      obtain ⟨hlisted, hclosing⟩ := hoff (by simp [hkind, SocketKind.isListed])
      exact closed_release h hlocal rfl hlisted hclosing ⟨rfl, rfl⟩ ⟨rfl, rfl⟩ rfl
        ⟨.refl _, .refl _⟩ rfl
  | deviceTracker =>
      obtain ⟨hlisted, hclosing⟩ := hoff (by simp [hkind, SocketKind.isListed])
      exact closed_release h hlocal rfl hlisted hclosing ⟨rfl, rfl⟩ ⟨rfl, rfl⟩ rfl
        ⟨.refl _, List.filter_sublist⟩ rfl
  | jdwp =>
      exact closed_release h hlocal hupdate (fun _ => mem_filter_ne) (fun _ => mem_filter_ne)
        ⟨rfl, rfl⟩ ⟨rfl, rfl⟩ rfl ⟨.refl _, .refl _⟩ rfl
  | jdwpTracker =>
      exact closed_release h hlocal hupdate (fun _ => mem_filter_ne) (fun _ => mem_filter_ne)
        ⟨rfl, rfl⟩ ⟨rfl, rfl⟩ rfl ⟨List.filter_sublist, .refl _⟩ rfl

theorem asocketCloseFuel_of_not_local {st : Sockets} {s : SocketRef} {a : Asocket}
    (fuel : Nat) (h : st.heap s = some a) (hlocal : SocketKind.isLocal a.kind = false) :
    asocketCloseFuel (fuel + 1) st s =
      freeSocket a.kind
        (closePeer (asocketCloseFuel fuel) (st.record (.closeCalled s)) s) s := by
  rw [asocketCloseFuel]
  simp only [h]
  cases hkind : a.kind with
  | localSocket | localNotify => simp [hkind, SocketKind.isLocal] at hlocal
  | _ => rfl

theorem asocketCloseFuel_detached {st : Sockets} {s : SocketRef} {a : Asocket} (fuel : Nat)
    (h : st.heap s = some a) (hpeer : a.peer = none) (hplaced : Placed st s a) :
    Closed [s] st (asocketCloseFuel (fuel + 1) st s) := by
  have hrecord : Prepared [s] st (st.record (.closeCalled s)) :=
    prepared_record (by simp [CloseEvent])
  by_cases hlocal : SocketKind.isLocal a.kind = false
  · rw [asocketCloseFuel_of_not_local fuel h hlocal]
    have hnone : (st.record (.closeCalled s)).peerOf s = none := by
      simp [Sockets.peerOf, Sockets.record, h, hpeer]
    rw [closePeer, hnone]
    exact hrecord.closed (freeSocket_closed h hlocal (hplaced.of_lists rfl Iff.rfl Iff.rfl))
  · rw [asocketCloseFuel]
    simp only [h]
    cases hkind : a.kind with
    | localSocket =>
        have hnone : (st.record (.closeCalled s)).peerOf s = none := by
          simp [Sockets.peerOf, Sockets.record, h, hpeer]
        simp only [localSocketClose, hnone]
        exact hrecord.closed (localSocketFinish_closed h hkind hpeer
          (hplaced.of_lists rfl Iff.rfl Iff.rfl))
    | localNotify =>
        simp only [localSocketCloseNotify]
        have hplain := @prepared_plain (st.record (.closeCalled s)) s a h hkind
        refine (hrecord.trans hplain).closed ?_
        have hcell : (((st.record (.closeCalled s)).modify s fun a =>
            { a with kind := .localSocket }).reply s (.fail (ascii "closed"))).heap s =
              some { a with kind := .localSocket } := by
          simp [Sockets.modify, Sockets.reply, Sockets.record, h]
        simp only [localSocketClose, Sockets.peerOf, hcell, Option.bind_some, hpeer]
        refine localSocketFinish_closed hcell rfl hpeer (hplaced.of_lists ?_ Iff.rfl Iff.rfl)
        simp [hkind, SocketKind.isListed]
    | _ => simp [hkind, SocketKind.isLocal] at hlocal

theorem asocketShutdown_heap (st : Sockets) (q : SocketRef) :
    (asocketShutdown st q).heap = st.heap := by
  unfold asocketShutdown remoteSocketShutdown sendOn
  split
  · split
    · rfl
    · split <;> rfl
  · rfl

theorem closeUnlinked_closed {st : Sockets} {q : SocketRef} {b : Asocket} (fuel : Nat)
    (h : st.heap q = some b) (hplaced : Placed st q b) :
    Closed [q] st
      (asocketCloseFuel (fuel + 1) (st.modify q fun a => { a with peer := none }) q) := by
  refine (prepared_clearPeer st q).closed
    (asocketCloseFuel_detached (a := { b with peer := none }) fuel ?_ rfl
      (hplaced.of_lists rfl Iff.rfl Iff.rfl))
  simp [Sockets.modify, h]

theorem localSocketClose_closed {st : Sockets} {s q : SocketRef} {a b : Asocket} (fuel : Nat)
    (hs : st.heap s = some a) (hkind : a.kind = .localSocket) (hpeer : a.peer = some q)
    (hne : s ≠ q) (hq : st.heap q = some b) (hplaced : Placed st s a)
    (hplacedPeer : Placed st q b) :
    Closed [s, q] st (localSocketClose (asocketCloseFuel (fuel + 1)) st s) := by
  have hsome : st.peerOf s = some q := by simp [Sockets.peerOf, hs, hpeer]
  simp only [localSocketClose, hsome]
  have hshutdown := prepared_asocketShutdown st [s, q] q
  refine hshutdown.closed ?_
  have hs' : (asocketShutdown st q).heap s = some a := by rw [asocketShutdown_heap, hs]
  have hq' : (asocketShutdown st q).heap q = some b := by rw [asocketShutdown_heap, hq]
  have hclosed := closeUnlinked_closed fuel hq'
    (hplacedPeer.of_lists rfl (by rw [hshutdown.listed]) (by rw [hshutdown.closing]))
  generalize asocketCloseFuel (fuel + 1) _ q = st₂ at hclosed ⊢
  have hs₂ : st₂.heap s = some a := by
    rw [hclosed.heap]
    simp [hne, hs']
  refine hclosed.pair hne ((prepared_clearPeer st₂ s).closed
    (localSocketFinish_closed (a := { a with peer := none }) ?_ hkind rfl
      (hplaced.of_lists rfl ?_ ?_)))
  · simp [Sockets.modify, hs₂]
  · show s ∈ st₂.localSocketList ↔ _
    rw [hclosed.listed, hshutdown.listed]
    simp [hne]
  · show s ∈ st₂.localSocketClosingList ↔ _
    rw [hclosed.closing, hshutdown.closing]
    simp [hne]

theorem asocketClose_closed_pair {st : Sockets} {s q : SocketRef} {a b : Asocket}
    (hs : st.heap s = some a) (hpeer : a.peer = some q) (hne : s ≠ q)
    (hq : st.heap q = some b) (hplaced : Placed st s a) (hplacedPeer : Placed st q b) :
    Closed [s, q] st (asocketClose st s) := by
  have hrecord : Prepared [s, q] st (st.record (.closeCalled s)) :=
    prepared_record (by simp [CloseEvent])
  unfold asocketClose
  by_cases hlocal : SocketKind.isLocal a.kind = false
  · rw [asocketCloseFuel_of_not_local 1 hs hlocal]
    have hsome : (st.record (.closeCalled s)).peerOf s = some q := by
      simp [Sockets.peerOf, Sockets.record, hs, hpeer]
    simp only [closePeer, hsome]
    refine hrecord.closed ?_
    have hclosed := @closeUnlinked_closed (st.record (.closeCalled s)) q b 0 hq
      (hplacedPeer.of_lists rfl Iff.rfl Iff.rfl)
    generalize asocketCloseFuel 1 _ q = st₂ at hclosed ⊢
    have hs₂ : st₂.heap s = some a := by
      rw [hclosed.heap]
      simp [hne, hs, Sockets.record]
    refine hclosed.pair hne (freeSocket_closed hs₂ hlocal (hplaced.of_lists rfl ?_ ?_))
    · rw [hclosed.listed]
      simp [hne, Sockets.record]
    · rw [hclosed.closing]
      simp [hne, Sockets.record]
  · rw [asocketCloseFuel]
    simp only [hs]
    cases hkind : a.kind with
    | localSocket =>
        exact hrecord.closed (localSocketClose_closed 0 hs hkind hpeer hne hq
          (hplaced.of_lists rfl Iff.rfl Iff.rfl) (hplacedPeer.of_lists rfl Iff.rfl Iff.rfl))
    | localNotify =>
        simp only [localSocketCloseNotify]
        have hplain := @prepared_plain (st.record (.closeCalled s)) s a hs hkind
        refine (hrecord.trans (hplain.mono (by simp))).closed ?_
        refine localSocketClose_closed (a := { a with kind := .localSocket }) (b := b) 0
          ?_ rfl hpeer hne ?_ (hplaced.of_lists ?_ Iff.rfl Iff.rfl)
          (hplacedPeer.of_lists rfl Iff.rfl Iff.rfl)
        · simp [Sockets.modify, Sockets.reply, Sockets.record, hs]
        · simp [Sockets.modify, Sockets.reply, Sockets.record, hq, hne.symm]
        · simp [hkind, SocketKind.isListed]
    | _ => simp [hkind, SocketKind.isLocal] at hlocal

theorem asocketClose_closed_alone {st : Sockets} {s : SocketRef} {a : Asocket}
    (hs : st.heap s = some a) (hpeer : a.peer = none) (hplaced : Placed st s a) :
    Closed [s] st (asocketClose st s) :=
  asocketCloseFuel_detached 1 hs hpeer hplaced

end Adb.SocketClosing
