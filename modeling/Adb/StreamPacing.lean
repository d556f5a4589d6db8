import Adb.StreamCallbacks

/-!
The flow control of the streams.  A socket that is willing to send may hand over its
next `WRTE`; what the functions on sockets do to the willingness of the ends of
streams, and which of them send.
-/

namespace Adb.StreamPacing

open Adb.DescriptorIo
open Adb.EventInterest
open Adb.WirePackets
open Adb.SocketTable
open Adb.SocketOperations
open Adb.SmartSockets
open Adb.SocketEvents
open Adb.SocketClosing
open Adb.SocketGraph
open Adb.SocketEffects
open Adb.OperationEffects
open Adb.SmartEffects
open Adb.StreamEffects
open Adb.CallbackEffects
open Adb.GraphInvariants
open Adb.ServerState
open Adb.ServerRuns
open Adb.ServerEffects
open Adb.TransportIsolation
open Adb.StreamLinks
open Adb.StreamCallbacks

/-! ### The messages -/

/-- Whether the socket with the local id `i` waits for an `OKAY` of the remote id `j`
after an event. -/
def awaiting (t : TransportRef) (i j : Nat) (waits : Bool) : Event → Bool
  | .sent t' p => (t' = t ∧ p.command = .aWrte ∧ p.arg0 = i ∧ p.arg1 = j) || waits
  | .received t' p => !(t' = t ∧ p.command = .aOkay ∧ p.arg0 = j ∧ p.arg1 = i) && waits
  | _ => waits

/-- The last `WRTE` of the stream has not been answered. -/
def unanswered (t : TransportRef) (i j : Nat) (trace : List Event) : Bool :=
  trace.foldl (awaiting t i j) false

/-- No `WRTE` is sent before the last one of its stream has been answered. -/
def Paced (trace : List Event) : Prop :=
  ∀ earlier later t p, trace = earlier ++ .sent t p :: later → p.command = .aWrte →
    unanswered t p.arg0 p.arg1 earlier = false

/-- An event that is not the sending of a `WRTE`. -/
def Idle : Event → Prop
  | .sent _ p => p.command ≠ .aWrte
  | _ => True

section Messages

variable {t : TransportRef} {i j : Nat} {trace events : List Event} {e : Event}

theorem unanswered_concat (trace : List Event) (e : Event) :
    unanswered t i j (trace ++ [e]) = awaiting t i j (unanswered t i j trace) e := by
  rw [unanswered, List.foldl_append]
  rfl

theorem waits_of_awaiting {waits : Bool} (he : Idle e) (h : awaiting t i j waits e = true) :
    waits = true := by
  cases e with
  | sent t' p =>
      rcases Bool.or_eq_true_iff.mp h with hsent | hwaits
      · exact absurd (of_decide_eq_true hsent).2.1 he
      · exact hwaits
  | received t' p => exact (Bool.and_eq_true_iff.mp h).2
  | _ => exact h

theorem unanswered_of_idle (hevents : ∀ e ∈ events, Idle e)
    (h : unanswered t i j (trace ++ events) = true) : unanswered t i j trace = true := by
  induction events using List.reverseRecOn with
  | nil => rwa [List.append_nil] at h
  | append_singleton events e ih =>
      rw [← List.append_assoc, unanswered_concat] at h
      exact ih (fun e he => hevents e (List.mem_append_left _ he))
        (waits_of_awaiting (hevents e (by simp)) h)

theorem unanswered_sent {t' : TransportRef} {p : Apacket}
    (h : unanswered t i j (trace ++ [.sent t' p]) = true) :
    unanswered t i j trace = true ∨
      (t' = t ∧ p.command = .aWrte ∧ p.arg0 = i ∧ p.arg1 = j) := by
  rw [unanswered_concat] at h
  exact (Bool.or_eq_true_iff.mp h).symm.imp_right of_decide_eq_true

theorem unanswered_received {p : Apacket} (hp : p.command = .aOkay) :
    unanswered t p.arg1 p.arg0 (trace ++ [.received t p]) = false := by
  rw [unanswered_concat, awaiting]
  simp [hp]

theorem paced_concat (h : Paced trace)
    (he : ∀ t p, e = .sent t p → p.command = .aWrte →
      unanswered t p.arg0 p.arg1 trace = false) : Paced (trace ++ [e]) := by
  intro earlier later t p hsplit hp
  rcases List.append_eq_append_iff.mp hsplit with ⟨l, rfl, hl⟩ | ⟨l, rfl, hl⟩
  · cases l with
    | nil =>
        rw [List.append_nil]
        exact he t p (List.cons.inj hl).1 hp
    | cons x l =>
        have hnone := (List.cons.inj hl).2
        cases l <;> cases hnone
  · cases l with
    | nil =>
        have hsent := he t p (List.cons.inj hl).1.symm hp
        rwa [List.append_nil] at hsent
    | cons x l =>
        obtain ⟨rfl, -⟩ := List.cons.inj hl
        exact h earlier l t p rfl hp

theorem paced_append (h : Paced trace) (hevents : ∀ e ∈ events, Idle e) :
    Paced (trace ++ events) := by
  induction events using List.reverseRecOn with
  | nil => rwa [List.append_nil]
  | append_singleton events e ih =>
      rw [← List.append_assoc]
      refine paced_concat (ih fun e he => hevents e (List.mem_append_left _ he)) ?_
      rintro t p rfl hp
      exact absurd hp (hevents _ (List.mem_append_right _ List.mem_cons_self))

/-- An event that keeps the pace after what happened earlier. -/
def Timely (earlier : List Event) : Event → Prop
  | .sent t p => p.command = .aWrte → unanswered t p.arg0 p.arg1 earlier = false
  | _ => True

instance (earlier : List Event) : (e : Event) → Decidable (Timely earlier e)
  | .sent _ _ => inferInstanceAs (Decidable (_ → _))
  | .received _ _ | .connected _ _ _ _ | .readyCalled _ | .enqueueCalled _ _ | .closeCalled _
  | .fdRead _ _ | .handedOver _ _ | .fdWrote _ _ | .fdWriteFailed _ | .fdClosed _
  | .movedToClosing _ _ | .replied _ _ => inferInstanceAs (Decidable True)

theorem paced_iff :
    Paced events ↔ ∀ n, (h : n < events.length) → Timely (events.take n) events[n] := by
  constructor
  · intro hpaced n h
    have hsplit := (List.take_append_drop n events).symm
    rw [List.drop_eq_getElem_cons h] at hsplit
    cases he : events[n] with
    | sent t p =>
        rw [he] at hsplit
        exact hpaced _ _ t p hsplit
    | _ => trivial
  · rintro hall earlier later t p rfl
    have hsent : Timely earlier (.sent t p) := by simpa using hall earlier.length (by simp)
    exact hsent

instance (events : List Event) : Decidable (Paced events) := decidable_of_iff _ paced_iff.symm

end Messages

/-! ### The sockets -/

/-- The socket `s` is the end with the local id `i` of a stream over `t`. -/
def End (t : TransportRef) (st : Sockets) (s : SocketRef) (a : Asocket) (i j : Nat) : Prop :=
  st.heap s = some a ∧ a.id = i ∧ ∃ q b, a.peer = some q ∧ st.heap q = some b ∧
    b.kind = .remote ∧ b.id = j ∧ b.transport = some t

/-- The socket may send its next `WRTE`: its descriptor is read, or the first list of
processes is still to be sent. -/
def Willing (a : Asocket) : Bool :=
  match a.kind with
  | .localSocket | .localNotify => a.fde.state.read
  | .jdwp => !a.pass
  | .jdwpTracker => a.needInitial
  | .remote | .smart | .deviceTracker => false

/-- No stream is joined from `st` to `st'`, no end of one becomes willing to send,
and no `WRTE` is sent. -/
structure Calm (st st' : Sockets) : Prop where
  before : WellFormed st
  after : WellFormed st'
  counter : st.localSocketNextId ≤ st'.localSocketNextId
  trackers : st'.jdwpTrackers.Sublist st.jdwpTrackers
  streams : ∀ t s a' i j, End t st' s a' i j → ∃ a, End t st s a i j ∧
    SameKind a.kind a'.kind ∧ (Willing a' = true → Willing a = true)
  emits : Emits Idle st st'

section Calm

variable {st st' : Sockets} {s : SocketRef} {a : Asocket}

theorem willing_congr {a a' : Asocket} (hkind : a'.kind = a.kind)
    (hread : a'.fde.state.read = true → a.fde.state.read = true) (hpass : a'.pass = a.pass)
    (hinitial : a'.needInitial = a.needInitial) (h : Willing a' = true) : Willing a = true := by
  unfold Willing at h ⊢
  rw [hkind, hpass, hinitial] at h
  cases hk : a.kind with
  | localSocket | localNotify =>
      rw [hk] at h
      exact hread h
  | _ =>
      rw [hk] at h
      exact h

theorem End.attached {t : TransportRef} {i j : Nat} (h : End t st s a i j) : Attached st s := by
  obtain ⟨ha, -, q, b, hpeer, hb, hk, -⟩ := h
  exact ⟨q, peerOf_eq_some.mpr ⟨a, ha, hpeer⟩, kindOf_eq hb hk⟩

theorem End.joined (h : End t st s a i j) : Joined t st s i j := by
  obtain ⟨ha, hid, q, b, hpeer, hb, hk, hj, ht⟩ := h
  exact ⟨a, q, b, ha, hid, hpeer, hb, hk, hj, ht⟩

theorem end_of_joined (h : Joined t st s i j) (hs : st.heap s = some a) : End t st s a i j := by
  obtain ⟨c, q, b, hc, hid, hpeer, hb, hk, hj, ht⟩ := h
  obtain rfl := Option.some.inj (hs.symm.trans hc)
  exact ⟨hs, hid, q, b, hpeer, hb, hk, hj, ht⟩

theorem Calm.of_heap (h : WellFormed st) (hheap : st'.heap = st.heap)
    (hlist : st'.localSocketList = st.localSocketList)
    (hclosing : st'.localSocketClosingList = st.localSocketClosingList)
    (hcounters : SameCounters st st') (htrackers : st'.jdwpTrackers = st.jdwpTrackers)
    (hemits : Emits Idle st st') : Calm st st' where
  before := h
  after := h.congr hheap hlist hclosing hcounters
  counter := Nat.le_of_eq hcounters.nextId.symm
  trackers := htrackers ▸ .refl _
  streams := by
    intro t s a' i j hend
    rw [End, hheap] at hend
    exact ⟨a', hend, .inl rfl, id⟩
  emits := hemits

theorem Calm.refl (h : WellFormed st) : Calm st st :=
  .of_heap h rfl rfl rfl ⟨rfl, rfl⟩ rfl (.refl rfl)

theorem Calm.trans {st₁ st₂ st₃ : Sockets} (h₁ : Calm st₁ st₂) (h₂ : Calm st₂ st₃) :
    Calm st₁ st₃ where
  before := h₁.before
  after := h₂.after
  counter := Nat.le_trans h₁.counter h₂.counter
  trackers := h₂.trackers.trans h₁.trackers
  streams := by
    intro t s c i j hc
    obtain ⟨b, hb, hkind, hwilling⟩ := h₂.streams t s c i j hc
    obtain ⟨a, ha, hkind', hwilling'⟩ := h₁.streams t s b i j hb
    exact ⟨a, ha, hkind'.trans hkind, fun h => hwilling' (hwilling h)⟩
  emits := h₁.emits.trans h₂.emits

theorem calm_record (h : WellFormed st) {e : Event} (he : Idle e) : Calm st (st.record e) :=
  .of_heap h rfl rfl rfl ⟨rfl, rfl⟩ rfl (.single rfl he)

theorem calm_halt (h : WellFormed st) (reason : Halt) : Calm st (st.halt reason) :=
  .of_heap h rfl rfl rfl ⟨rfl, rfl⟩ rfl (.refl rfl)

theorem calm_sendPacket (h : WellFormed st) (t : TransportRef) {p : Apacket}
    (hp : p.command ≠ .aWrte) : Calm st (st.sendPacket t p) :=
  .of_heap h rfl rfl rfl ⟨rfl, rfl⟩ rfl (.single rfl hp)

theorem calm_sendOn (h : WellFormed st) (t : Option TransportRef) {p : Apacket}
    (hp : p.command ≠ .aWrte) : Calm st (sendOn st t p) := by
  cases t with
  | none => exact calm_halt h _
  | some t => exact calm_sendPacket h t hp

theorem calm_afterWrite {α : Type} (h : WellFormed st) (s : SocketRef) (out : Written α) :
    Calm st (st.afterWrite s out) :=
  .of_heap h rfl rfl rfl ⟨rfl, rfl⟩ rfl (.single rfl trivial)

theorem calm_modify {f : Asocket → Asocket} (h : WellFormed st) (hs : st.heap s = some a)
    (hf : Respects a (f a)) (hremote : a.kind = .remote → (f a).transport = a.transport)
    (hwilling : Attached st s → Willing (f a) = true → Willing a = true) :
    Calm st (st.modify s f) where
  before := h
  after := h.modify hs hf
  counter := Nat.le_refl _
  trackers := .refl _
  streams := by
    rintro t p c i j ⟨hc, hid, q, b, hpeer, hb, hk, hj, ht⟩
    -- the remote socket is an old one, although it may be the one that is changed
    obtain ⟨b₀, hb₀, hk₀, hj₀, ht₀⟩ : ∃ b₀, st.heap q = some b₀ ∧ b₀.kind = .remote ∧
        b₀.id = j ∧ b₀.transport = some t := by
      by_cases hqs : q = s
      · subst hqs
        obtain rfl : f a = b := by simpa [Sockets.modify, hs] using hb
        have hak : a.kind = .remote := by
          rcases hf.kind with hsame | ⟨-, hlocal⟩
          · rw [← hsame, hk]
          · simp [hk, SocketKind.isLocal] at hlocal
        exact ⟨a, hs, hak, hf.id.symm.trans hj, (hremote hak).symm.trans ht⟩
      · exact ⟨b, by simpa [Sockets.modify, hqs] using hb, hk, hj, ht⟩
    by_cases hps : p = s
    · subst hps
      obtain rfl : f a = c := by simpa [Sockets.modify, hs] using hc
      have hend : End t st p a i j :=
        ⟨hs, hf.id.symm.trans hid, q, b₀, hf.peer.symm.trans hpeer, hb₀, hk₀, hj₀, ht₀⟩
      exact ⟨a, hend, hf.kind, hwilling hend.attached⟩
    · have hc₀ : st.heap p = some c := by simpa [Sockets.modify, hps] using hc
      exact ⟨c, ⟨hc₀, hid, q, b₀, hpeer, hb₀, hk₀, hj₀, ht₀⟩, .inl rfl, id⟩
  emits := .refl rfl

theorem calm_local {f : Asocket → Asocket} (h : WellFormed st) (hs : st.heap s = some a)
    (hkind : (f a).kind = a.kind) (hpeer : (f a).peer = a.peer) (hid : (f a).id = a.id)
    (hclosing : (f a).closing = a.closing) (htransport : (f a).transport = a.transport)
    (hqueue : SocketKind.isLocal a.kind = true → (f a).pkts ≠ [] → (f a).fde.state.write = true)
    (hfde : (f a).fde.Sound) (hread : (f a).fde.state.read = true → a.fde.state.read = true)
    (hpass : (f a).pass = a.pass) (hinitial : (f a).needInitial = a.needInitial) :
    Calm st (st.modify s f) := by
  refine calm_modify h hs (.of_kind hkind hpeer hid hclosing hqueue hfde ?_)
    (fun _ => htransport) fun _ => willing_congr hkind hread hpass hinitial
  rw [htransport]
  exact (h.socket s a hs).transport

theorem calm_asocketClose (h : WellFormed st) (hs : st.heap s = some a) :
    Calm st (asocketClose st s) := by
  have hclosed := h.asocketClose_closed hs
  have hcell : ∀ {p c}, (asocketClose st s).heap p = some c →
      (c.peer ≠ none ∨ c.kind = .remote) → st.heap p = some c := by
    intro p c hc hlives
    rw [hclosed.heap] at hc
    split at hc
    · obtain ⟨b, -, hremains⟩ := Option.bind_eq_some_iff.mp hc
      rw [(remains_eq_some hremains).2.2.2.2] at hlives
      simp at hlives
    · exact hc
  refine ⟨h, h.asocketClose hs, Nat.le_of_eq hclosed.counters.nextId.symm, hclosed.trackers.jdwp,
    ?_, hclosed.emits.mono fun e he => ?_⟩
  · rintro t p c i j ⟨hc, hid, q, b, hpeer, hb, hk, hj, ht⟩
    exact ⟨c, ⟨hcell hc (.inl (by simp [hpeer])), hid, q, b, hpeer, hcell hb (.inr hk), hk, hj, ht⟩,
      .inl rfl, id⟩
  · cases e with
    | sent t p =>
        have hclse : p.command = .aClse := he
        simp [Idle, hclse]
    | _ => trivial

/-- What carries nothing over the streams lets none of their ends send. -/
theorem calm_effect {T : SocketRef → Prop} {R : TransportRef → Prop} (h : WellFormed st)
    (heffect : Effect false T R st st') : Calm st st' := by
  induction heffect with
  | same hsame =>
      exact .of_heap h hsame.heap hsame.listed hsame.closing hsame.counters hsame.trackers.1
        (.refl hsame.trace)
  | @note st e hnoted _ =>
      refine calm_record h ?_
      cases e with
      | sent => exact hnoted.elim
      | _ => trivial
  | send t hp =>
      refine calm_sendPacket h t ?_
      rcases hp with hfree | hc | hc
      · cases hfree
      · simp [hc]
      · simp [hc]
  | update hs _ hf =>
      refine calm_modify h hs hf.respects (fun hk => absurd hk hf.kind) fun hattached => ?_
      rcases hf.attached with hfree | hnot
      · cases hfree
      · exact absurd hattached hnot
  | close hs _ _ => exact calm_asocketClose h hs
  | @allocate st a hT hnew hlisted hfree =>
      have hwf : WellFormed (st.allocate a).2 :=
        h.allocate hnew.peer hnew.closing hlisted hnew.fde hnew.transport
      have hkind : a.kind ≠ .remote := hfree.resolve_left (by simp)
      refine ⟨h, hwf, Nat.le_refl _, .refl _, ?_, .refl rfl⟩
      rintro t p c i j ⟨hc, hid, q, b, hpeer, hb, hk, hj, ht⟩
      have hp : p ≠ st.nextRef := by
        rintro rfl
        obtain rfl : a = c := by simpa [Sockets.allocate] using hc
        simp [hnew.peer] at hpeer
      have hq : q ≠ st.nextRef := by
        rintro rfl
        obtain rfl : a = b := by simpa [Sockets.allocate] using hb
        exact hkind hk
      refine ⟨c, ⟨?_, hid, q, b, hpeer, ?_, hk, hj, ht⟩, .inl rfl, id⟩
      · simpa [Sockets.allocate, hp] using hc
      · simpa [Sockets.allocate, hq] using hb
  | @install st a hT hnew hlisted htransport _ =>
      have hcells : ∀ {p}, p ≠ st.nextRef →
          (installLocalSocket (st.allocate a).2 st.nextRef).heap p = st.heap p := by
        intro p hp
        simp [installLocalSocket, Sockets.haltWhen, Sockets.modify, Sockets.allocate, hp]
      have hnext : (installLocalSocket (st.allocate a).2 st.nextRef).heap st.nextRef =
          some { a with id := st.localSocketNextId } := by
        simp [installLocalSocket, Sockets.haltWhen, Sockets.modify, Sockets.allocate]
      refine ⟨h, h.install hnew.peer hnew.closing hnew.pkts hlisted hnew.fde, Nat.le_succ _,
        .refl _, ?_, .refl rfl⟩
      rintro t p c i j ⟨hc, hid, q, b, hpeer, hb, hk, hj, ht⟩
      have hp : p ≠ st.nextRef := by
        rintro rfl
        obtain rfl := Option.some.inj (hnext.symm.trans hc)
        simp [hnew.peer] at hpeer
      have hq : q ≠ st.nextRef := by
        rintro rfl
        obtain rfl := Option.some.inj (hnext.symm.trans hb)
        have hremote : a.kind = .remote := hk
        simp [hremote, SocketKind.isListed] at hlisted
      exact ⟨c, ⟨(hcells hp).symm.trans hc, hid, q, b, hpeer, (hcells hq).symm.trans hb, hk, hj, ht⟩,
        .inl rfl, id⟩
  | @link st s q a b f g hs hq hT hlink =>
      obtain ⟨-, -, hleft, hright⟩ := hlink.remote.resolve_left (by simp)
      have hcells : ∀ {p c}, ((st.modify s f).modify q g).heap p = some c →
          p ≠ s ∧ p ≠ q ∧ st.heap p = some c ∨ c = f a ∧ c.kind ≠ .remote ∨
            c = g b ∧ c.kind ≠ .remote := by
        intro p c hc
        by_cases hps : p = s
        · subst hps
          obtain rfl : f a = c := by simpa [Sockets.modify, hlink.ne, hs] using hc
          exact .inr (.inl ⟨rfl, hleft⟩)
        · by_cases hpq : p = q
          · subst hpq
            obtain rfl : g b = c := by simpa [Sockets.modify, hps, hq] using hc
            exact .inr (.inr ⟨rfl, hright⟩)
          · exact .inl ⟨hps, hpq, by simpa [Sockets.modify, hps, hpq] using hc⟩
      have hlinked : Effect false T R st ((st.modify s f).modify q g) := .link hs hq hT hlink
      refine ⟨h, hlinked.wellFormed h, Nat.le_refl _, .refl _, ?_, .refl rfl⟩
      rintro t p c i j ⟨hc, hid, r, d, hpeer, hd, hk, hj, ht⟩
      obtain ⟨hrs, hrq, hd₀⟩ := (hcells hd).resolve_right (by simp [hk])
      rcases hcells hc with ⟨-, -, hc₀⟩ | ⟨rfl, -⟩ | ⟨rfl, -⟩
      · exact ⟨c, ⟨hc₀, hid, r, d, hpeer, hd₀, hk, hj, ht⟩, .inl rfl, id⟩
      · rcases hlink.link with ⟨hnone, -⟩ | ⟨hpair, -⟩
        · simp [hnone] at hpeer
        · exact absurd (Option.some.inj (hpeer.symm.trans hpair)) hrq
      · rcases hlink.link with ⟨-, hnone⟩ | ⟨-, hpair, -⟩
        · simp [hnone] at hpeer
        · exact absurd (Option.some.inj (hpeer.symm.trans hpair)) hrs
  | @track st jdwp device _ _ hstreams =>
      refine ⟨h, h.congr rfl rfl rfl ⟨rfl, rfl⟩, Nat.le_refl _, ?_, ?_, .refl rfl⟩
      · rw [hstreams.resolve_left (by simp)]
      · exact fun t s a i j hend => ⟨a, hend, .inl rfl, id⟩
  | trans h₁ _ ih₁ ih₂ => exact (ih₁ h).trans (ih₂ (h₁.wellFormed h))

end Calm

/-! ### The functions on sockets -/

section Operations

variable {st : Sockets} {s q : SocketRef}

theorem calm_writeFailed {a : Asocket} (h : WellFormed st) (hs : st.heap s = some a) :
    Calm st (asocketClose ((st.record (.fdWriteFailed s)).modify s fun a =>
      { a with hasWriteError := true }) s) := by
  have hnoted : Calm st (st.record (.fdWriteFailed s)) := calm_record h trivial
  have hok := hnoted.after.socket s a hs
  have hmarked : Calm (st.record (.fdWriteFailed s)) ((st.record (.fdWriteFailed s)).modify s
      fun a => { a with hasWriteError := true }) :=
    calm_local hnoted.after hs rfl rfl rfl rfl rfl hok.queue hok.fde id rfl rfl
  refine (hnoted.trans hmarked).trans (calm_asocketClose (a := { a with hasWriteError := true })
    hmarked.after ?_)
  simp [Sockets.modify, Sockets.record, hs]

theorem calm_localSocketEnqueue (h : WellFormed st) (s : SocketRef) (data : Bytes) :
    Calm st (localSocketEnqueue st s data).2 := by
  have hasked : ∀ fde : Fdevent, (fdeventAdd fde .fdeWrite).state.read = true →
      fde.state.read = true := by
    simp [EventMask.union, EventMask.fdeWrite, EventMask.empty]
  unfold localSocketEnqueue
  split
  · exact calm_halt h _
  · rename_i a hs
    split
    · have hwrote : Calm st (st.afterWrite s (writeAll st.writeScript data)) :=
        calm_afterWrite h s _
      dsimp only
      split
      · exact hwrote
      · exact hwrote.trans (calm_writeFailed hwrote.after hs)
      · refine hwrote.trans (calm_local (a := a) hwrote.after hs rfl rfl rfl rfl rfl ?_ ?_
          (hasked _) rfl rfl)
        · exact fun _ _ => by simp [EventMask.union, EventMask.fdeWrite]
        · exact (h.socket s a hs).fde.fdeventAdd _
    · refine calm_local h hs rfl rfl rfl rfl rfl ?_ ?_ (hasked _) rfl rfl
      · exact fun _ _ => by simp [EventMask.union, EventMask.fdeWrite]
      · exact (h.socket s a hs).fde.fdeventAdd _

theorem calm_asocketEnqueue_called (h : WellFormed st) (hs : st.kindOf s ≠ some .remote)
    (data : Bytes) : Calm (st.record (.enqueueCalled s data)) (asocketEnqueue st s data).2 := by
  have hwf : WellFormed (st.record (.enqueueCalled s data)) := h.congr rfl rfl rfl ⟨rfl, rfl⟩
  have hs' : (st.record (.enqueueCalled s data)).kindOf s ≠ some .remote := hs
  unfold asocketEnqueue
  generalize st.record (.enqueueCalled s data) = st₁ at hwf hs'
  have hjdwp : Calm st₁ (jdwpSocketEnqueue st₁ s).2 := by
    unfold jdwpSocketEnqueue
    split
    · exact calm_halt hwf _
    · rename_i q hq
      obtain ⟨b, hb, -⟩ := peerOf_eq_some.mp (hwf.peerOf_symm hq)
      exact calm_asocketClose hwf hb
  dsimp only
  split
  · exact calm_localSocketEnqueue hwf s data
  · exact calm_localSocketEnqueue hwf s data
  · rename_i hkind
    exact absurd hkind hs'
  · exact hjdwp
  · exact hjdwp
  · rename_i hkind
    obtain ⟨a, ha, -⟩ := Option.map_eq_some_iff.mp hkind
    exact calm_asocketClose hwf ha
  · exact calm_halt hwf _
  · exact calm_halt hwf _

/-- The peer of a socket that is not remote is a remote socket, or is not on a stream. -/
theorem remote_or_offstream (h : WellFormed st) (hq : st.peerOf s = some q)
    (hs : st.kindOf s ≠ some .remote) : st.kindOf q = some .remote ∨ Offstream st q := by
  by_cases hremote : st.kindOf q = some .remote
  · exact .inl hremote
  · refine .inr ⟨?_, hremote⟩
    rintro ⟨r, hr, hk⟩
    rw [h.peerOf_symm hq] at hr
    obtain rfl := Option.some.inj hr
    exact hs hk

theorem calm_readyPeer (ctx : ServiceContext) (h : WellFormed st) (hq : st.peerOf s = some q)
    (hs : st.kindOf s ≠ some .remote) : Calm st (asocketReady ctx st q) := by
  rcases remote_or_offstream h hq hs with hremote | hoff
  · have hcalled : Calm st (st.record (.readyCalled q)) := calm_record h trivial
    have hremote' : (st.record (.readyCalled q)).kindOf q = some .remote := hremote
    simp only [asocketReady, hremote', remoteSocketReady]
    refine hcalled.trans ?_
    split
    · exact calm_halt hcalled.after _
    · exact calm_sendOn hcalled.after _ (by simp [streamPacket])
  · exact calm_effect (T := fun _ => True) (R := fun _ => True) h
      (effect_asocketReady h (active_peer h hq) (.inr hoff) (fun _ _ => trivial) ctx)

theorem calm_peerEnqueue (ctx : ServiceContext) (h : WellFormed st) (hq : st.peerOf s = some q)
    (hs : Offstream st q) (hfed : Fed st q) (data : Bytes) :
    Calm st (peerEnqueue ctx st q data).2 :=
  calm_effect (T := fun _ => True) (R := fun _ => True) h
    (effect_peerEnqueue h (fun _ _ _ _ => trivial) (active_peer h hq) (.inr hs) (.inr hfed)
      (fun _ _ => trivial) (fun _ _ => trivial) data)

theorem calm_closeAtEof (h : WellFormed st) (s : SocketRef) (lastZero isEof : Bool) :
    Calm st (closeAtEof st s lastZero isEof) := by
  unfold closeAtEof
  split
  · exact calm_halt h _
  · rename_i a ha
    split
    · exact calm_asocketClose h ha
    · exact .refl h

theorem calm_localSocketWriteEvent (ctx : ServiceContext) (h : WellFormed st)
    (hs : st.kindOf s ≠ some .remote) : Calm st (localSocketWriteEvent ctx st s).2 := by
  unfold localSocketWriteEvent
  split
  · exact calm_halt h _
  · rename_i a ha
    have hok := h.socket s a ha
    have hwrote : Calm st (st.afterWrite s (drain st.writeScript a.pkts)) :=
      calm_afterWrite h s _
    have hdrained : Calm st ((st.afterWrite s (drain st.writeScript a.pkts)).modify s fun b =>
        { b with pkts := (drain st.writeScript a.pkts).rest }) := by
      refine hwrote.trans (calm_local (a := a) hwrote.after ha rfl rfl rfl rfl rfl ?_ hok.fde id
        rfl rfl)
      exact fun hlocal hrest => hok.queue hlocal (drain_nil_rest hrest)
    have hcell : ((st.afterWrite s (drain st.writeScript a.pkts)).modify s fun b =>
        { b with pkts := (drain st.writeScript a.pkts).rest }).heap s =
          some { a with pkts := (drain st.writeScript a.pkts).rest } := by
      simp [Sockets.modify, Sockets.afterWrite, ha]
    dsimp only
    generalize (st.afterWrite s (drain st.writeScript a.pkts)).modify s (fun b =>
      { b with pkts := (drain st.writeScript a.pkts).rest }) = st₁ at hdrained hcell
    refine hdrained.trans ?_
    have hwf := hdrained.after
    split
    · exact .refl hwf
    · exact calm_writeFailed hwf hcell
    · rename_i hdone
      split
      · exact calm_asocketClose hwf hcell
      · have hquiet : Calm st₁
            (st₁.modify s fun a => { a with fde := fdeventDel a.fde .fdeWrite }) := by
          refine calm_local hwf hcell rfl rfl rfl rfl rfl ?_ (hok.fde.fdeventDel _) ?_ rfl rfl
          · exact fun _ hrest => absurd (drain_rest_of_done hdone) hrest
          · simp [EventMask.diff, EventMask.fdeWrite, EventMask.empty]
        split
        · exact hquiet.trans (calm_halt hquiet.after _)
        · rename_i q hpeer
          have hcell' : (st₁.modify s fun a => { a with fde := fdeventDel a.fde .fdeWrite }).heap s =
              some { a with
                pkts := (drain st.writeScript a.pkts).rest
                fde := fdeventDel a.fde .fdeWrite } := by
            simp [Sockets.modify, hcell]
          refine hquiet.trans (calm_readyPeer (s := s) ctx hquiet.after
            (peerOf_eq_some.mpr ⟨_, hcell', hpeer⟩) ?_)
          rw [kindOf_eq hcell' rfl]
          intro hremote
          exact hs (kindOf_eq ha (Option.some.inj hremote))

theorem calm_deviceTrackerSend (h : WellFormed st)
    (hs : ∀ a, st.heap s = some a → a.kind = .deviceTracker) (list : Bytes) :
    Calm st (deviceTrackerSend st s list) := by
  unfold deviceTrackerSend
  split
  · exact calm_halt h _
  · rename_i q hq
    obtain ⟨a, ha, hpeer⟩ := peerOf_eq_some.mp hq
    obtain ⟨-, b, hb, -, hcompat⟩ := (h.socket s a ha).peer q hpeer
    have hk : st.kindOf q ≠ some .remote := by
      rw [kindOf_eq hb rfl]
      intro hremote
      rw [hs a ha, Option.some.inj hremote] at hcompat
      cases hcompat
    exact (calm_record (e := .enqueueCalled q _) h trivial).trans (calm_asocketEnqueue_called h hk _)

theorem carries_calm : Carries Calm where
  after h := h.after
  trans := Calm.trans
  same h hsame := .of_heap h hsame.heap hsame.listed hsame.closing hsame.counters hsame.trackers.1
    (.refl hsame.trace)
  received h _ _ := calm_record h trivial
  close := calm_asocketClose
  send h t p hp := by
    refine calm_sendPacket h t fun hc => ?_
    simp [hc, Command.isStream] at hp
  notify := calm_deviceTrackerSend

end Operations

end Adb.StreamPacing
