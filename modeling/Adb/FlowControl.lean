import Adb.ReadAccounting
import Adb.StreamMessages
import Adb.StreamPacing

/-!
When a process waits for the `OKAY` to a `WRTE` before it sends the next one on the
same stream: the invariant that joins the sockets to the history, and the steps
that keep it.
-/

namespace Adb.FlowControl

open Adb.DescriptorIo
open Adb.EventInterest
open Adb.WirePackets
open Adb.SocketTable
open Adb.SocketOperations
open Adb.SmartSockets
open Adb.SocketEvents
open Adb.SocketClosing
open Adb.SocketGraph
open Adb.SocketEffects
open Adb.OperationEffects
open Adb.StreamEffects
open Adb.CallbackEffects
open Adb.GraphInvariants
open Adb.ServerState
open Adb.ServerRuns
open Adb.ServerEffects
open Adb.ReadAccounting (sendConnected)
open Adb.TransportIsolation
open Adb.StreamLinks
open Adb.StreamCallbacks
open Adb.StreamViews
open Adb.StreamMessages
open Adb.StreamPacing
open Adb.TransitionSystems

/-- The last `WRTE` of a socket's stream, if it has one, has been answered. -/
def Answered (st : Sockets) (s : SocketRef) : Prop :=
  ∀ t i j, Joined t st s i j → unanswered t i j st.trace = false

/-- While a stream waits for an `OKAY`, its socket does not send, apart from the
sockets of `X` that are being served. -/
structure Flow (X : SocketRef → Prop) (st : Sockets) : Prop where
  paced : Paced st.trace
  waits : ∀ t i j, unanswered t i j st.trace = true → i < st.localSocketNextId ∧
    ∀ s a, Listed st s a → a.id = i → Joined t st s i j ∧ (X s ∨ Willing a = false)
  started : ∀ t s a i j, End t st s a i j → a.kind = .jdwpTracker → X s ∨ Willing a = false
  trackers : st.jdwpTrackers.Nodup

/-- What holds between two callbacks, when no socket is being served. -/
abbrev Controlled (st : Sockets) : Prop := Flow (fun _ => False) st

section Invariant

variable {X Y : SocketRef → Prop} {st st' : Sockets} {s : SocketRef} {a : Asocket}
  {t : TransportRef} {i j : Nat}

theorem listed_of_joined (h : Joined t st s i j) (hwf : WellFormed st) (hs : st.heap s = some a) :
    Listed st s a ∧ a.id = i := by
  obtain ⟨b, hb, hlisted, hclosing, hid⟩ := h.listed hwf
  obtain rfl := Option.some.inj (hs.symm.trans hb)
  exact ⟨⟨hs, hlisted, hclosing⟩, hid⟩

theorem flow_initial : Controlled .initial where
  paced := by
    intro earlier later t p hsplit
    simp [Sockets.initial] at hsplit
  waits t i j h := by cases h
  started := by
    rintro t s a i j ⟨ha, -⟩
    cases ha
  trackers := List.nodup_nil

/-- A socket that is willing to send has been answered. -/
theorem Flow.answered (h : Flow X st) (hwf : WellFormed st) (hs : st.heap s = some a)
    (hX : ¬ X s) (hwilling : Willing a = true) : Answered st s := by
  intro t i j hjoined
  obtain ⟨hlisted, hid⟩ := listed_of_joined hjoined hwf hs
  by_contra hwaits
  have hunwilling := (((h.waits t i j (by simpa using hwaits)).2 s a hlisted hid).2).resolve_left hX
  simp [hwilling] at hunwilling

/-- While nothing is sent, the invariant is carried from each end of a stream to what
has become of it. -/
theorem Flow.carry (h : Flow X st) (hids : IdsKept st st') (hemits : Emits Idle st st')
    (hends : ∀ t s a b i j, End t st s a i j → Listed st' s b →
      unanswered t i j st.trace = true → X s ∨ Willing a = false →
        Joined t st' s i j ∧ (Y s ∨ Willing b = false))
    (hstarted : ∀ t s b i j, End t st' s b i j → b.kind = .jdwpTracker →
      Y s ∨ Willing b = false ∨ ∃ a, End t st s a i j ∧ a.kind = .jdwpTracker ∧
        (X s ∨ Willing a = false → Y s ∨ Willing b = false))
    (htrackers : st'.jdwpTrackers.Nodup) : Flow Y st' := by
  obtain ⟨events, htrace, hidle⟩ := hemits
  refine ⟨?_, fun t i j hwaits => ?_, fun t s b i j hend hkind => ?_, htrackers⟩
  · rw [htrace]
    exact paced_append h.paced hidle
  · rw [htrace] at hwaits
    have hold := unanswered_of_idle hidle hwaits
    obtain ⟨hid, hall⟩ := h.waits t i j hold
    refine ⟨Nat.lt_of_lt_of_le hid hids.counter, fun s b hs hsid => ?_⟩
    obtain ⟨a, ha, haid⟩ := listed_earlier hids hs (hsid ▸ hid)
    obtain ⟨hjoined, hunwilling⟩ := hall s a ha (haid.trans hsid)
    exact hends t s a b i j (end_of_joined hjoined ha.cell) hs hold hunwilling
  · rcases hstarted t s b i j hend hkind with hs | hs | ⟨a, ha, hakind, hs⟩
    · exact .inl hs
    · exact .inr hs
    · exact hs (h.started t s a i j ha hakind)

theorem Flow.later (h : Flow X st) (hcalm : Calm st st') (hkept : ∀ t, Kept t st st') :
    Flow X st' := by
  have hunwilling : ∀ {s : SocketRef} {a b : Asocket}, (Willing b = true → Willing a = true) →
      X s ∨ Willing a = false → X s ∨ Willing b = false := by
    intro s a b hwilling hs
    refine hs.imp_right fun hfalse => Bool.eq_false_iff.mpr fun htrue => ?_
    cases hfalse.symm.trans (hwilling htrue)
  refine h.carry (hkept 0).ids hcalm.emits (fun t s a b i j hend hs _ hx => ?_)
    (fun t s b i j hend hkind => .inr (.inr ?_)) (h.trackers.sublist hcalm.trackers)
  · have hjoined : Joined t st' s i j :=
      ((hkept t).stays s i j hend.joined).resolve_right fun hover => by
        simpa [hs.active] using hover b hs.cell
    obtain ⟨c, hc, -, hwilling⟩ := hcalm.streams t s b i j (end_of_joined hjoined hs.cell)
    obtain rfl := Option.some.inj (hend.1.symm.trans hc.1)
    exact ⟨hjoined, hunwilling hwilling hx⟩
  · obtain ⟨a, ha, hsame, hwilling⟩ := hcalm.streams t s b i j hend
    refine ⟨a, ha, ?_, hunwilling hwilling⟩
    rcases hsame with hsame | ⟨-, hlocal⟩
    · rw [← hsame, hkind]
    · simp [hkind, SocketKind.isLocal] at hlocal

/-- The invariant is carried to a table where the joined sockets are the old ones,
unchanged. -/
theorem Flow.carry_same (h : Flow X st) (hids : IdsKept st st') (hemits : Emits Idle st st')
    (hends : ∀ t s i j, Joined t st s i j → unanswered t i j st.trace = true →
      (∃ b, Listed st' s b) → Joined t st' s i j ∧ st'.heap s = st.heap s)
    (hback : ∀ t s b i j, End t st' s b i j → b.kind = .jdwpTracker →
      Y s ∨ (Joined t st s i j ∧ st'.heap s = st.heap s))
    (hX : ∀ s, X s → Y s) (htrackers : st'.jdwpTrackers.Nodup) : Flow Y st' := by
  refine h.carry hids hemits (fun t s a b i j hend hs hwaits hx => ?_)
    (fun t s b i j hend hkind => ?_) htrackers
  · obtain ⟨hjoined, hcell⟩ := hends t s i j hend.joined hwaits ⟨b, hs⟩
    obtain rfl := Option.some.inj ((hcell.symm.trans hs.cell).symm.trans hend.1)
    exact ⟨hjoined, hx.imp_left (hX s)⟩
  · rcases hback t s b i j hend hkind with hs | ⟨hjoined, hcell⟩
    · exact .inl hs
    · exact .inr (.inr ⟨b, end_of_joined hjoined (hcell.symm.trans hend.1), hkind,
        Or.imp_left (hX s)⟩)

/-- A socket that does not send, or has been answered, need not be served. -/
theorem Flow.drop (h : Flow X st) (hX : ∀ s a, X s → st.heap s = some a →
    Y s ∨ Willing a = false ∨ (Answered st s ∧ a.kind ≠ .jdwpTracker)) : Flow Y st where
  paced := h.paced
  waits t i j hwaits := by
    obtain ⟨hid, hall⟩ := h.waits t i j hwaits
    refine ⟨hid, fun s a hs hsid => ?_⟩
    obtain ⟨hjoined, hx | hfalse⟩ := hall s a hs hsid
    · refine ⟨hjoined, (hX s a hx hs.cell).imp_right ?_⟩
      rintro (hfalse | ⟨hanswered, -⟩)
      · exact hfalse
      · cases (hanswered t i j hjoined).symm.trans hwaits
    · exact ⟨hjoined, .inr hfalse⟩
  started t s a i j hend hkind := by
    rcases h.started t s a i j hend hkind with hx | hfalse
    · exact (hX s a hx hend.1).imp_right fun hs => hs.resolve_right fun hs => hs.2 hkind
    · exact .inr hfalse
  trackers := h.trackers

/-- The only socket that is being served does not send, or has been answered. -/
theorem Flow.served (h : Flow (fun p => p = s) st) (hs : st.heap s = some a)
    (hserved : Willing a = false ∨ (Answered st s ∧ a.kind ≠ .jdwpTracker)) : Controlled st := by
  refine h.drop ?_
  rintro p b rfl hb
  obtain rfl := Option.some.inj (hs.symm.trans hb)
  exact .inr hserved

theorem Flow.serve (h : Controlled st) (s : SocketRef) : Flow (fun p => p = s) st :=
  h.drop fun _ _ hfalse => hfalse.elim

theorem Flow.of_heap (h : Flow X st) (hheap : st'.heap = st.heap) (hcounters : SameCounters st st')
    (htrackers : st'.jdwpTrackers = st.jdwpTrackers) (hemits : Emits Idle st st') : Flow X st' := by
  have hjoined : ∀ t s i j, Joined t st' s i j ↔ Joined t st s i j := fun t s i j => by
    rw [StreamLinks.Joined, StreamLinks.Joined, hheap]
  refine h.carry_same (.of_heap hheap hcounters) hemits (fun t s i j hs _ _ => ?_)
    (fun t s b i j hs _ => ?_) (fun _ => id) (htrackers ▸ h.trackers)
  · exact ⟨(hjoined t s i j).mpr hs, congrFun hheap s⟩
  · exact .inr ⟨(hjoined t s i j).mp hs.joined, congrFun hheap s⟩

theorem Flow.record (h : Flow X st) {e : Event} (he : Idle e) : Flow X (st.record e) :=
  h.of_heap rfl ⟨rfl, rfl⟩ rfl (.single rfl he)

theorem Answered.later (h : Answered st s) (hemits : Emits Idle st st')
    (hjoined : ∀ t i j, Joined t st' s i j → Joined t st s i j) : Answered st' s := by
  intro t i j hs
  obtain ⟨events, htrace, hidle⟩ := hemits
  by_contra hwaits
  rw [htrace] at hwaits
  cases (h t i j (hjoined t i j hs)).symm.trans (unanswered_of_idle hidle (by simpa using hwaits))

/-- A message that is not a `WRTE` is sent. -/
theorem Flow.tell (h : Flow X st) (t : TransportRef) {p : Apacket} (hp : p.command ≠ .aWrte) :
    Flow X (st.sendPacket t p) :=
  h.of_heap rfl ⟨rfl, rfl⟩ rfl (.single rfl hp)

theorem Answered.tell (h : Answered st s) (t : TransportRef) {p : Apacket}
    (hp : p.command ≠ .aWrte) : Answered (st.sendPacket t p) s :=
  h.later (.single rfl hp) fun _ _ _ hs => hs

theorem Answered.record (h : Answered st s) {e : Event} (he : Idle e) :
    Answered (st.record e) s :=
  h.later (.single rfl he) fun _ _ _ hs => hs

/-- A joined socket that has been answered sends. -/
theorem Flow.send (h : Flow X st) (hwf : WellFormed st) {p : Apacket}
    (hs : Joined t st s p.arg0 p.arg1) (hanswered : Answered st s) :
    Flow (fun q => X q ∨ q = s) (st.sendPacket t p) := by
  refine ⟨paced_concat h.paced ?_, fun t' i j hwaits => ?_, ?_, h.trackers⟩
  · rintro t' p' heq -
    cases heq
    exact hanswered _ _ _ hs
  · rcases unanswered_sent hwaits with hold | ⟨rfl, -, rfl, rfl⟩
    · obtain ⟨hid, hall⟩ := h.waits t' i j hold
      refine ⟨hid, fun q b hq hqid => ?_⟩
      obtain ⟨hjoined, hx⟩ := hall q b ⟨hq.cell, hq.listed, hq.active⟩ hqid
      exact ⟨hjoined, hx.imp_left .inl⟩
    · obtain ⟨a, ha, hlisted, hclosing, hid⟩ := hs.listed hwf
      refine ⟨hid ▸ ((hwf.socket s a ha).id hlisted hclosing).2, fun q b hq hqid => ?_⟩
      obtain rfl := listed_eq hwf ⟨hq.cell, hq.listed, hq.active⟩ ⟨ha, hlisted, hclosing⟩
        (hqid.trans hid.symm)
      exact ⟨hs, .inl (.inr rfl)⟩
  · intro t' q b i j hend hkind
    exact (h.started t' q b i j hend hkind).imp_left .inl

/-- A socket that has been answered may become willing to send. -/
theorem Flow.allow (h : Flow X st) (hwf : WellFormed st) (hs : st.heap s = some a)
    {f : Asocket → Asocket} (hf : Respects a (f a)) (htransport : (f a).transport = a.transport)
    (hkind : (f a).kind ≠ .jdwpTracker) (hanswered : Answered st s) : Flow X (st.modify s f) := by
  have hkept : ∀ t, Kept t st (st.modify s f) := fun t => kept_modify hwf hs hf htransport
  have hother : ∀ {p}, p ≠ s → (st.modify s f).heap p = st.heap p := fun hp => by
    simp [Sockets.modify, hp]
  refine h.carry_same (hkept 0).ids (.refl rfl) (fun t p i j hjoined hwaits hp => ?_)
    (fun t p b i j hend hbkind => .inr ?_) (fun _ => id) h.trackers
  · obtain ⟨b, hb⟩ := hp
    have hps : p ≠ s := by
      rintro rfl
      cases (hanswered t i j hjoined).symm.trans hwaits
    refine ⟨((hkept t).stays p i j hjoined).resolve_right fun hover => ?_, hother hps⟩
    simpa [hb.active] using hover b hb.cell
  · have hps : p ≠ s := by
      rintro rfl
      have hcell : (st.modify p f).heap p = some (f a) := by simp [Sockets.modify, hs]
      obtain rfl := Option.some.inj (hcell.symm.trans hend.1)
      exact hkind hbkind
    exact ⟨(hkept t).joined p i j hend.joined, hother hps⟩

end Invariant

section Operations

variable {X : SocketRef → Prop} {st st' : Sockets} {s q : SocketRef} {a b : Asocket}
  {t : TransportRef}

theorem asocketEnqueue_remote (hq : st.heap q = some b) (hk : b.kind = .remote)
    (ht : b.transport = some t) (data : Bytes) :
    asocketEnqueue st q data = (1, (st.record (.enqueueCalled q data)).sendPacket t
      (streamPacket st b .aWrte data)) := by
  have hq' : (st.record (.enqueueCalled q data)).heap q = some b := hq
  simp only [asocketEnqueue, kindOf_eq hq' hk, remoteSocketEnqueue, hq', ht]
  rfl

/-- What a socket hands to its remote peer is sent on its stream. -/
theorem asocketEnqueue_joined (hwf : WellFormed st) (hq : st.peerOf s = some q)
    (hremote : st.kindOf q = some .remote) (data : Bytes) :
    ∃ t p, Joined t st s p.arg0 p.arg1 ∧ asocketEnqueue st q data =
      (1, (st.record (.enqueueCalled q data)).sendPacket t p) := by
  obtain ⟨a, hs, hpeer⟩ := peerOf_eq_some.mp hq
  obtain ⟨b, hb, hback⟩ := peerOf_eq_some.mp (hwf.peerOf_symm hq)
  have hk : b.kind = .remote := by simpa [Sockets.kindOf, hb] using hremote
  obtain ⟨t, ht⟩ := Option.isSome_iff_exists.mp ((hwf.socket q b hb).transport hk)
  have hid : a.id = (streamPacket st b .aWrte data).arg0 := by
    simp [streamPacket, peerId, hback, hs]
  exact ⟨t, _, ⟨a, q, b, hs, hid, hpeer, hb, hk, rfl, ht⟩, asocketEnqueue_remote hb hk ht data⟩

/-- A socket that has been answered sends through its peer. -/
theorem Flow.enqueue (h : Controlled st) (hwf : WellFormed st) (hq : st.peerOf s = some q)
    (hremote : st.kindOf q = some .remote) (hanswered : Answered st s) (data : Bytes) :
    Flow (fun p => p = s) (asocketEnqueue st q data).2 ∧ (asocketEnqueue st q data).1 = 1 := by
  have hcalled : Idle (.enqueueCalled q data) := trivial
  have hwf' : WellFormed (st.record (.enqueueCalled q data)) := hwf.congr rfl rfl rfl ⟨rfl, rfl⟩
  obtain ⟨t, p, hjoined, heq⟩ := asocketEnqueue_joined hwf hq hremote data
  rw [heq]
  refine ⟨((h.record hcalled).send hwf' hjoined (hanswered.record hcalled)).drop ?_, rfl⟩
  rintro p b (hfalse | hp) -
  · exact hfalse.elim
  · exact .inl hp

theorem remote_of_jdwp (hwf : WellFormed st) (hs : st.heap s = some a)
    (hkind : a.kind = .jdwp ∨ a.kind = .jdwpTracker) (hq : a.peer = some q) :
    st.kindOf q = some .remote := by
  obtain ⟨-, b, hb, -, hcompat⟩ := (hwf.socket s a hs).peer q hq
  rw [kindOf_eq hb rfl]
  rcases hkind with hkind | hkind
  all_goals
    rw [hkind] at hcompat
    cases hk : b.kind <;> simp_all [Compatible]

/-- The sockets of the debugging services send on their own. -/
theorem Flow.jdwpSend (h : Controlled st) (hwf : WellFormed st) (hs : st.heap s = some a)
    (hkind : a.kind = .jdwp ∨ a.kind = .jdwpTracker) (hq : a.peer = some q)
    (hanswered : Answered st s) (data : Bytes) :
    Flow (fun p => p = s) (asocketEnqueue st q data).2 ∧
      WellFormed (asocketEnqueue st q data).2 ∧ (asocketEnqueue st q data).2.heap = st.heap := by
  have hpeer : st.peerOf s = some q := peerOf_eq_some.mpr ⟨a, hs, hq⟩
  have hremote := remote_of_jdwp hwf hs hkind hq
  have hunjoined : Unjoined 0 st q := by
    refine unjoined_peer hwf hpeer ?_
    rw [kindOf_eq hs rfl]
    rcases hkind with hkind | hkind <;> simp [hkind]
  exact ⟨(h.enqueue hwf hpeer hremote hanswered data).1,
    (kept_asocketEnqueue hwf hunjoined data).after, asocketEnqueue_remote_heap hremote data⟩

/-- A new stream has nothing to be answered. -/
theorem Flow.connect (h : Controlled st) (hwf : WellFormed st)
    (hs : Connectable st s a) (remoteId : Nat) (t : TransportRef) :
    Flow (fun p => p = s) (connectRemote st s remoteId t) ∧
      Answered (connectRemote st s remoteId t) s := by
  obtain ⟨hself, hnew, hother, htrace⟩ := connectRemote_cells hwf hs.cell remoteId t
  have hevents : ∀ e ∈ [Event.connected s a.id remoteId t], Idle e := by simp [Idle]
  have hapart : ∀ {p t' i j}, Joined t' st p i j → p ≠ s := by
    rintro p t' i j ⟨c, r, -, hc, -, hpeer, -⟩ rfl
    obtain rfl := Option.some.inj (hs.cell.symm.trans hc)
    simp [hs.peer] at hpeer
  have hcell : ∀ {p t' i j}, Joined t' st p i j →
      (connectRemote st s remoteId t).heap p = st.heap p := fun hp =>
    hother _ (hapart hp) (Nat.ne_of_lt (hp.fresh hwf))
  refine ⟨h.carry_same (@idsKept_connectRemote t st s a remoteId hwf hs) ⟨_, htrace, hevents⟩
    (fun t' p i j hp _ _ => ⟨(joined_connectRemote hwf hs).mpr (.inl hp), hcell hp⟩)
    (fun t' p b i j hend _ => ?_) (fun _ => False.elim) h.trackers, fun t' i j hjoined => ?_⟩
  · rcases (joined_connectRemote hwf hs).mp hend.joined with hjoined | ⟨-, rfl, -⟩
    · exact .inr ⟨hjoined, hcell hjoined⟩
    · exact .inl rfl
  · obtain ⟨c, r, -, hc, rfl, -⟩ := hjoined
    obtain rfl := Option.some.inj (hself.symm.trans hc)
    by_contra hwaits
    rw [htrace] at hwaits
    obtain ⟨-, hall⟩ := h.waits t' a.id j (unanswered_of_idle hevents (by simpa using hwaits))
    exact hapart (hall s a (listed_of_connectable hs) rfl).1 rfl

theorem trackers_createLocalServiceSocket {ctx : ServiceContext} {name : Bytes}
    (h : createLocalServiceSocket ctx st name = some (s, st')) :
    st'.jdwpTrackers = st.jdwpTrackers ∨ st'.jdwpTrackers = st.jdwpTrackers ++ [st.nextRef] := by
  unfold createLocalServiceSocket at h
  split at h
  · obtain ⟨-, rfl⟩ := Prod.mk.inj (Option.some.inj h)
    exact .inl rfl
  split at h
  · obtain ⟨-, rfl⟩ := Prod.mk.inj (Option.some.inj h)
    exact .inr rfl
  split at h
  · obtain ⟨-, rfl⟩ := Prod.mk.inj (Option.some.inj h)
    exact .inl rfl
  · cases h

theorem Flow.service {ctx : ServiceContext} {name : Bytes} (h : Flow X st) (hwf : WellFormed st)
    (htrackers : TrackersOk st) (hservice : createLocalServiceSocket ctx st name = some (s, st')) :
    Flow X st' := by
  obtain ⟨hcreated, a, hs⟩ : Effect true (fun _ => True) (fun _ => True) st st' ∧
      ∃ a, ServiceSocket st st' s a := createLocalServiceSocket_spec hservice hwf trivial
  have hkept : ∀ t, Kept t st st' := fun t => kept_service hwf hcreated hs
  have hcell : ∀ {p t i j}, Joined t st p i j → st'.heap p = st.heap p := fun hp =>
    hs.heap _ (hs.ref ▸ Nat.ne_of_lt (hp.fresh hwf))
  refine h.carry_same (hkept 0).ids (.refl hs.trace) (fun t p i j hjoined _ hp => ?_)
    (fun t p b i j hend _ => .inr ?_) (fun _ => id) ?_
  · obtain ⟨b, hb⟩ := hp
    refine ⟨((hkept t).stays p i j hjoined).resolve_right fun hover => ?_, hcell hjoined⟩
    simpa [hb.active] using hover b hb.cell
  · have hjoined := (hkept t).joined p i j hend.joined
    exact ⟨hjoined, hcell hjoined⟩
  · rcases trackers_createLocalServiceSocket hservice with hsame | hadded
    · rw [hsame]
      exact h.trackers
    · rw [hadded, List.nodup_append]
      refine ⟨h.trackers, by simp, ?_⟩
      rintro p hp q hq rfl
      obtain rfl := List.mem_singleton.mp hq
      exact Nat.lt_irrefl _ (htrackers.jdwp _ hp).1

/-- A joined socket that has been answered is told to send. -/
theorem Flow.localReady (h : Flow X st) (hwf : WellFormed st) (hs : st.heap s = some a)
    (hkind : a.kind ≠ .jdwpTracker) (hanswered : Answered st s) :
    Flow X (localSocketReady st s) := by
  have hok := hwf.socket s a hs
  refine h.allow hwf hs (.of_kind rfl rfl rfl rfl ?_ (hok.fde.fdeventAdd _) hok.transport) rfl
    hkind hanswered
  intro hlocal hpkts
  simp [EventMask.union, hok.queue hlocal hpkts]

theorem Flow.localReadyNotify (h : Flow X st) (hwf : WellFormed st)
    (hs : st.heap s = some a) (hkind : a.kind = .localNotify) (hanswered : Answered st s) :
    Flow X (localSocketReadyNotify st s) := by
  have hrespects : Respects a { a with kind := .localSocket } := .plain (hwf.socket s a hs) hkind
  have hplain : ∀ t, Kept t st (st.modify s fun a => { a with kind := .localSocket }) := fun t =>
    kept_modify hwf hs hrespects rfl
  have hcell : (st.modify s fun a => { a with kind := .localSocket }).heap s =
      some { a with kind := .localSocket } := by simp [Sockets.modify, hs]
  have hreplied : Idle (.replied s .okay) := trivial
  have hflow : Flow X (st.modify s fun a => { a with kind := .localSocket }) :=
    h.allow hwf hs hrespects rfl (by simp) hanswered
  have hmodified : Answered (st.modify s fun a => { a with kind := .localSocket }) s :=
    hanswered.later (.refl rfl) fun t => (hplain t).joined s
  exact (hflow.record hreplied).localReady (a := { a with kind := .localSocket })
    ((hplain 0).after.congr rfl rfl rfl ⟨rfl, rfl⟩) hcell (by simp)
    (hmodified.record hreplied)

theorem Flow.jdwpReady (ctx : ServiceContext) (h : Controlled st) (hwf : WellFormed st)
    (hs : st.heap s = some a) (hkind : a.kind = .jdwp) (hq : a.peer = some q)
    (hanswered : Answered st s) : Controlled (jdwpSocketReady ctx st s) := by
  unfold jdwpSocketReady
  simp only [hs, hq]
  split
  · obtain ⟨-, b, hb, -⟩ := (hwf.socket s a hs).peer q hq
    exact h.later (calm_asocketClose hwf hb) fun t => kept_asocketClose hwf hb
  · obtain ⟨hsent, hwf', hheap⟩ := h.jdwpSend hwf hs (.inl hkind) hq hanswered
      (jdwpProcessList ctx.jdwpPids (getMaxPayload ctx.limit st s))
    generalize (asocketEnqueue st q
      (jdwpProcessList ctx.jdwpPids (getMaxPayload ctx.limit st s))).2 = st₁ at hsent hwf' hheap ⊢
    have hs' : st₁.heap s = some a := (congrFun hheap s).trans hs
    have hok := hwf'.socket s a hs'
    have hunwilling : Willing { a with pass := true } = false := by simp [Willing, hkind]
    have hpassed : Calm st₁ (st₁.modify s fun a => { a with pass := true }) := by
      refine calm_modify hwf' hs' (.of_kind rfl rfl rfl rfl hok.queue hok.fde hok.transport)
        (fun _ => rfl) fun _ htrue => ?_
      cases hunwilling.symm.trans htrue
    refine (hsent.later hpassed fun t => kept_local hwf' hs' rfl rfl rfl rfl rfl hok.queue
      hok.fde).served (a := { a with pass := true }) ?_ (.inl hunwilling)
    simp [Sockets.modify, hs']

theorem Flow.trackerReady (ctx : ServiceContext) (h : Flow (fun p => p = s) st)
    (hwf : WellFormed st) (hs : st.heap s = some a) (hkind : a.kind = .jdwpTracker)
    (hq : a.peer = some q) (hanswered : Answered st s) :
    Controlled (jdwpTrackerReady ctx st s) := by
  have hok := hwf.socket s a hs
  have hunwilling : Willing { a with needInitial := false } = false := by simp [Willing, hkind]
  have hmarked : Calm st (st.modify s fun a => { a with needInitial := false }) := by
    refine calm_modify hwf hs (.of_kind rfl rfl rfl rfl hok.queue hok.fde hok.transport)
      (fun _ => rfl) fun _ htrue => ?_
    cases hunwilling.symm.trans htrue
  have hkept : ∀ t, Kept t st (st.modify s fun a => { a with needInitial := false }) := fun t =>
    kept_local hwf hs rfl rfl rfl rfl rfl hok.queue hok.fde
  have hcell : (st.modify s fun a => { a with needInitial := false }).heap s =
      some { a with needInitial := false } := by simp [Sockets.modify, hs]
  have hcontrolled : Controlled (st.modify s fun a => { a with needInitial := false }) :=
    (h.later hmarked hkept).served hcell (.inl hunwilling)
  unfold jdwpTrackerReady
  simp only [hs, hq]
  split
  · split
    · exact hcontrolled.later (calm_halt hmarked.after _) fun t => kept_halt hmarked.after _
    · obtain ⟨hsent, -, hheap⟩ := hcontrolled.jdwpSend hmarked.after hcell (.inr hkind) hq
        (hanswered.later (.refl rfl) fun t => (hkept t).joined s)
        (jdwpProcessListMsg ctx.jdwpPids (getMaxPayload ctx.limit st s))
      exact hsent.served ((congrFun hheap s).trans hcell) (.inl hunwilling)
  · rename_i hinitial
    exact h.served hs (.inl (by simpa [Willing, hkind] using hinitial))

/-- A socket with an answered stream is told that it can send. -/
theorem Flow.ready (ctx : ServiceContext) (h : Flow (fun p => p = s) st) (hwf : WellFormed st)
    (hs : Listed st s a) (hq : a.peer = some q) (hanswered : Answered st s) :
    Controlled (asocketReady ctx st s) := by
  have hcalled : Idle (.readyCalled s) := trivial
  have hwf' : WellFormed (st.record (.readyCalled s)) := hwf.congr rfl rfl rfl ⟨rfl, rfl⟩
  have hs' : (st.record (.readyCalled s)).heap s = some a := hs.cell
  have hflow := h.record hcalled
  have hanswered' : Answered (st.record (.readyCalled s)) s :=
    hanswered.record hcalled
  have hserved : a.kind ≠ .jdwpTracker → Controlled (st.record (.readyCalled s)) := fun hkind =>
    hflow.served hs' (.inr ⟨hanswered', hkind⟩)
  have hlisted := hs.listed
  unfold asocketReady
  simp only [kindOf_eq hs' rfl]
  cases hk : a.kind with
  | localSocket =>
      exact (hserved (by simp [hk])).localReady hwf' hs' (by simp [hk]) hanswered'
  | localNotify => exact (hserved (by simp [hk])).localReadyNotify hwf' hs' hk hanswered'
  | jdwp => exact (hserved (by simp [hk])).jdwpReady ctx hwf' hs' hk hq hanswered'
  | jdwpTracker => exact hflow.trackerReady ctx hwf' hs' hk hq hanswered'
  | remote | smart | deviceTracker => simp [hk, SocketKind.isListed] at hlisted

end Operations

/-- The next read of the descriptor returns no byte. -/
def nothingToRead : List ReadResult → Bool
  | .data (_ :: _) :: _ => false
  | _ => true

theorem readLoop_nothing {script : List ReadResult} (h : nothingToRead script = true)
    (lastZero : Bool) (avail : Nat) : (readLoop lastZero script avail).bytes = [] := by
  cases avail with
  | zero => simp [readLoop]
  | succ avail =>
      match script with
      | [] => rfl
      | .data [] :: script => rfl
      | .data (b :: bs) :: script => cases h
      | .eagain :: script => rfl
      | .error :: script => rfl

/-- A read event for the socket has been asked for, or gets nothing, or concerns no
stream over a transport. -/
def readWanted (st : Sockets) (s : SocketRef) : Bool :=
  nothingToRead st.readScript || (st.heap s).all fun a =>
    a.fde.state.read || a.peer.all fun q => st.kindOf q != some .remote

section Events

variable {st : Sockets} {s q : SocketRef} {a b : Asocket}

theorem read_of_readWanted (h : readWanted st s = true) (hs : st.heap s = some a)
    (hq : a.peer = some q) (hremote : st.kindOf q = some .remote)
    (hscript : nothingToRead st.readScript = false) : a.fde.state.read = true := by
  simpa [readWanted, hscript, hs, hq, hremote] using h

theorem readWanted_modify {f : Asocket → Asocket} (hkind : ∀ a, (f a).kind = a.kind)
    (hpeer : ∀ a, (f a).peer = a.peer) (hread : ∀ a, (f a).fde.state.read = a.fde.state.read) :
    readWanted (st.modify s f) s = readWanted st s := by
  have hkinds : ∀ q, (st.modify s f).kindOf q = st.kindOf q := by
    intro q
    by_cases hqs : q = s
    · subst hqs
      cases hq : st.heap q <;> simp [Sockets.kindOf, Sockets.modify, hq, hkind]
    · simp [Sockets.kindOf, Sockets.modify, hqs]
  have hscript : (st.modify s f).readScript = st.readScript := rfl
  have hcell : (st.modify s f).heap s = (st.heap s).map f := by simp [Sockets.modify]
  rw [readWanted, readWanted, hscript, hcell]
  cases st.heap s <;> simp [hkinds, hpeer, hread]

theorem calm_afterRead (h : WellFormed st) (s : SocketRef) (out : ReadOutcome) :
    Calm st (st.afterRead s out) :=
  .of_heap h rfl rfl rfl ⟨rfl, rfl⟩ rfl (.single rfl trivial)

theorem kept_afterRead {t : TransportRef} (h : WellFormed st) (s : SocketRef) (out : ReadOutcome) :
    Kept t st (st.afterRead s out) :=
  .of_heap h rfl rfl rfl ⟨rfl, rfl⟩ (.single rfl trivial)

theorem willing_local (hlocal : SocketKind.isLocal a.kind = true) :
    Willing a = a.fde.state.read := by
  cases hk : a.kind <;> simp_all [Willing, SocketKind.isLocal]

/-- The end of a read event whose socket has been told to wait. -/
theorem Flow.pause {lastZero isEof : Bool} (h : Flow (fun p => p = s) st) (hwf : WellFormed st)
    (hs : st.heap s = some a) (hlocal : SocketKind.isLocal a.kind = true) :
    Controlled (closeAtEof
      (st.modify s fun a => { a with fde := fdeventDel a.fde .fdeRead }) s lastZero isEof) := by
  have hok := hwf.socket s a hs
  have hqueue : SocketKind.isLocal a.kind = true → a.pkts ≠ [] →
      (fdeventDel a.fde .fdeRead).state.write = true := by
    intro hlocal hpkts
    simpa [EventMask.diff, EventMask.fdeRead, EventMask.empty] using hok.queue hlocal hpkts
  have hunwilling : Willing { a with fde := fdeventDel a.fde .fdeRead } = false := by
    rw [willing_local (a := { a with fde := fdeventDel a.fde .fdeRead }) hlocal]
    simp [EventMask.diff, EventMask.fdeRead]
  have hpaused : Calm st (st.modify s fun a => { a with fde := fdeventDel a.fde .fdeRead }) := by
    refine calm_local hwf hs rfl rfl rfl rfl rfl hqueue (hok.fde.fdeventDel _) ?_ rfl rfl
    simp [EventMask.diff, EventMask.fdeRead]
  have hkept : ∀ t, Kept t st (st.modify s fun a => { a with fde := fdeventDel a.fde .fdeRead }) :=
    fun t => kept_local hwf hs rfl rfl rfl rfl rfl hqueue (hok.fde.fdeventDel _)
  have hcell : (st.modify s fun a => { a with fde := fdeventDel a.fde .fdeRead }).heap s =
      some { a with fde := fdeventDel a.fde .fdeRead } := by simp [Sockets.modify, hs]
  have hflow : Controlled (st.modify s fun a => { a with fde := fdeventDel a.fde .fdeRead }) :=
    (h.later hpaused hkept).served hcell (.inl hunwilling)
  exact hflow.later (calm_closeAtEof hpaused.after s _ _) fun t =>
    kept_closeAtEof hpaused.after s _ _

theorem isLocal_of_kept {st' : Sockets} {t : TransportRef} (h : Kept t st st')
    (hs : st.heap s = some a) (hlocal : SocketKind.isLocal a.kind = true)
    (hb : st'.heap s = some b) : SocketKind.isLocal b.kind = true := by
  obtain ⟨c, hc, hsame⟩ := h.kinds s b (h.before.socket s a hs).fresh hb
  obtain rfl := Option.some.inj (hs.symm.trans hc)
  rcases hsame with hsame | ⟨-, hlocal'⟩
  · rwa [hsame]
  · exact hlocal'

theorem Flow.readEvent (ctx : ServiceContext) (h : Controlled st) (hwf : WellFormed st)
    (hs : st.heap s = some a) (hlocal : SocketKind.isLocal a.kind = true)
    (hwanted : readWanted st s = true) : Controlled (localSocketReadEvent ctx st s) := by
  have hk : st.kindOf s ≠ some .remote := by
    intro hremote
    have hkind : a.kind = .remote := by simpa [Sockets.kindOf, hs] using hremote
    simp [hkind, SocketKind.isLocal] at hlocal
  have hnothing : nothingToRead st.readScript = true →
      (readLoop true st.readScript (getMaxPayload ctx.limit st s)).bytes = [] := fun hscript =>
    readLoop_nothing hscript true _
  unfold localSocketReadEvent
  simp only [hs]
  generalize readLoop true st.readScript (getMaxPayload ctx.limit st s) = out at hnothing ⊢
  have hread := calm_afterRead hwf s out
  have hflow : Controlled (st.afterRead s out) :=
    h.later hread fun t => kept_afterRead hwf s out
  have hs' : (st.afterRead s out).heap s = some a := hs
  have hend : ∀ lastZero isEof, Controlled
      (closeAtEof (st.afterRead s out) s lastZero isEof) := fun lastZero isEof =>
    hflow.later (calm_closeAtEof hread.after s lastZero isEof) fun t =>
      kept_closeAtEof hread.after s lastZero isEof
  split
  · exact hend _ _
  · rename_i q hpeer
    split
    · exact hend _ _
    · rename_i hbytes
      have hhanded : Idle (.handedOver s out.bytes) := trivial
      have hflow' := hflow.record hhanded
      have hwf' : WellFormed ((st.afterRead s out).record (.handedOver s out.bytes)) :=
        hread.after.congr rfl rfl rfl ⟨rfl, rfl⟩
      have hq : ((st.afterRead s out).record (.handedOver s out.bytes)).peerOf s = some q :=
        peerOf_eq_some.mpr ⟨a, hs', hpeer⟩
      by_cases hremote : st.kindOf q = some .remote
      · have hscript : nothingToRead st.readScript = false := by
          refine Bool.eq_false_iff.mpr fun hscript => hbytes ?_
          rw [hnothing hscript]
          rfl
        have hwilling : Willing a = true := by
          rw [willing_local hlocal]
          exact read_of_readWanted hwanted hs hpeer hremote hscript
        have hremote' : ((st.afterRead s out).record (.handedOver s out.bytes)).kindOf q =
            some .remote := hremote
        obtain ⟨hsent, hr⟩ := hflow'.enqueue hwf' hq hremote'
          (hflow'.answered hwf' hs' id hwilling) out.bytes
        have hheap := asocketEnqueue_remote_heap hremote' out.bytes
        have hkept : Kept 0 ((st.afterRead s out).record (.handedOver s out.bytes)) _ :=
          kept_asocketEnqueue hwf' (unjoined_peer hwf' hq hk) out.bytes
        simp only [peerEnqueue, hremote']
        generalize asocketEnqueue ((st.afterRead s out).record (.handedOver s out.bytes)) q
          out.bytes = result at hsent hr hheap hkept ⊢
        obtain ⟨r, st₁⟩ := result
        dsimp only at hsent hr hheap hkept ⊢
        subst hr
        have hcell : st₁.heap s = some a := by
          rw [hheap]
          exact hs
        simp only [hcell]
        exact hsent.pause hkept.after hcell hlocal
      · have hoff : Offstream ((st.afterRead s out).record (.handedOver s out.bytes)) q :=
          (remote_or_offstream hwf' hq hk).resolve_left hremote
        have hfed : Fed ((st.afterRead s out).record (.handedOver s out.bytes)) q := by
          refine fed_of_peer hwf' hs' hq fun hsmart => ?_
          simp [hsmart, SocketKind.isLocal] at hlocal
        have hcalm := calm_peerEnqueue ctx hwf' hq hoff hfed out.bytes
        have henqueued := hflow'.later hcalm fun t => kept_peerEnqueue hwf' hq hk out.bytes
        have hkept : Kept 0 ((st.afterRead s out).record (.handedOver s out.bytes))
            (peerEnqueue ctx ((st.afterRead s out).record (.handedOver s out.bytes)) q
              out.bytes).2 := kept_peerEnqueue hwf' hq hk out.bytes
        generalize peerEnqueue ctx ((st.afterRead s out).record (.handedOver s out.bytes)) q
          out.bytes = result at hcalm henqueued hkept
        obtain ⟨r, st₁⟩ := result
        have hwf₁ := hcalm.after
        dsimp only at henqueued hwf₁ ⊢
        split
        · exact henqueued
        split
        · split
          · exact henqueued.later (calm_halt hwf₁ _) fun t => kept_halt hwf₁ _
          · rename_i a' ha'
            exact (henqueued.serve s).pause hwf₁ ha' (isLocal_of_kept hkept hs' hlocal ha')
        · exact henqueued.later (calm_closeAtEof hwf₁ s _ _) fun t => kept_closeAtEof hwf₁ s _ _

/-- Telling the peer to resume does not make a read event one that was asked for. -/
theorem readWanted_writeEvent (ctx : ServiceContext) (hwf : WellFormed st)
    (hs : st.heap s = some a) (hlocal : SocketKind.isLocal a.kind = true)
    (hgo : (localSocketWriteEvent ctx st s).1 = true) (hwanted : readWanted st s = true) :
    readWanted (localSocketWriteEvent ctx st s).2 s = true := by
  have hkept : Kept 0 st (localSocketWriteEvent ctx st s).2 := kept_localSocketWriteEvent ctx hwf s
  obtain ⟨q, hpeer, -, hrest, heq⟩ := localSocketWriteEvent_goesOn ctx hs hgo
  obtain ⟨hqs, b, hb, -⟩ := (hwf.socket s a hs).peer q hpeer
  have hq : (afterDrain st s a).heap q = some b := by
    simp [afterDrain, Sockets.modify, Sockets.afterWrite, hqs, hb]
  rw [heq] at hkept ⊢
  by_cases hremote : b.kind = .remote
  · have hq : ((afterDrain st s a).record (.readyCalled q)).heap q = some b := hq
    have hcell : (asocketReady ctx (afterDrain st s a) q).heap s = some { a with
        pkts := (drain st.writeScript a.pkts).rest
        fde := fdeventDel a.fde .fdeWrite } := by
      simp only [asocketReady, kindOf_eq hq hremote, remoteSocketReady, hq, sendOn_heap]
      exact afterDrain_cell hs
    have hscript : (asocketReady ctx (afterDrain st s a) q).readScript = st.readScript := by
      simp only [asocketReady, kindOf_eq hq hremote, remoteSocketReady, hq, sendOn]
      split <;> rfl
    have hasked : nothingToRead st.readScript = true ∨ a.fde.state.read = true := by
      by_contra hnot
      simp only [not_or, Bool.not_eq_true] at hnot
      simp [read_of_readWanted hwanted hs hpeer (kindOf_eq hb hremote) hnot.1] at hnot
    simp only [readWanted, hscript, hcell]
    rcases hasked with hscript | hread
    · simp [hscript]
    · simp [hread, EventMask.diff, EventMask.fdeWrite, EventMask.empty]
  · have hkind := hkept.not_kind rfl hb hremote
    cases hcell : (asocketReady ctx (afterDrain st s a) q).heap s with
    | none => simp [readWanted, hcell]
    | some a' =>
        have hcallback : Callback (fun _ => True) (fun _ => True) (fun _ => False) st
            (afterDrain st s a) := callback_afterDrain hs hlocal hrest
        obtain ⟨hpeer', -⟩ := asocketReady_peer_cell ctx (hcallback.wellFormed hwf)
          (afterDrain_cell hs) hlocal hpeer hq hcell
        simp [readWanted, hcell, hpeer', hpeer, hkind]

theorem Flow.eventFunc (ctx : ServiceContext) (h : Controlled st) (hwf : WellFormed st)
    (hs : st.heap s = some a) (hlocal : SocketKind.isLocal a.kind = true) (ev : EventMask)
    (hwanted : ev.read = true → readWanted st s = true) :
    Controlled (localSocketEventFunc ctx st s ev) := by
  unfold localSocketEventFunc
  cases ev.write with
  | false =>
      simp only [Bool.false_eq_true, if_false, Bool.true_and]
      split
      · rename_i hread
        exact h.readEvent ctx hwf hs hlocal (hwanted hread)
      · exact h
  | true =>
      have hk : st.kindOf s ≠ some .remote := by
        intro hremote
        have hkind : a.kind = .remote := by simpa [Sockets.kindOf, hs] using hremote
        simp [hkind, SocketKind.isLocal] at hlocal
      have hwrite := calm_localSocketWriteEvent ctx hwf hk
      have hkept := kept_localSocketWriteEvent (t := 0) ctx hwf s
      have hflow := h.later hwrite fun t => kept_localSocketWriteEvent ctx hwf s
      simp only [if_true]
      split
      · rename_i hgo
        obtain ⟨hgo, hread⟩ := Bool.and_eq_true_iff.mp hgo
        have hwanted' := readWanted_writeEvent ctx hwf hs hlocal hgo (hwanted hread)
        generalize (localSocketWriteEvent ctx st s).2 = st₁ at hwrite hkept hflow hwanted' ⊢
        cases hcell : st₁.heap s with
        | none =>
            simp only [localSocketReadEvent, hcell]
            exact hflow.later (calm_halt hwrite.after _) fun t => kept_halt hwrite.after _
        | some a' =>
            exact hflow.readEvent ctx hwrite.after hcell (isLocal_of_kept hkept hs hlocal hcell)
              hwanted'
      · exact hflow

theorem Flow.dispatch (ctx : ServiceContext) (h : Controlled st) (hwf : WellFormed st)
    (hs : st.heap s = some a) (hlocal : SocketKind.isLocal a.kind = true)
    (hwanted : a.fde.events.read = true → readWanted st s = true) :
    Controlled (dispatchSocket ctx st s) := by
  have hok := hwf.socket s a hs
  have htaken : Calm st (st.modify s fun a => { a with fde := fdeventTake a.fde }) :=
    calm_local hwf hs rfl rfl rfl rfl rfl hok.queue hok.fde.fdeventTake id rfl rfl
  have hflow := h.later htaken fun t =>
    kept_local hwf hs rfl rfl rfl rfl rfl hok.queue hok.fde.fdeventTake
  unfold dispatchSocket
  simp only [hs]
  refine hflow.eventFunc (a := { a with fde := fdeventTake a.fde }) ctx htaken.after ?_ hlocal _
    fun hread => ?_
  · simp [Sockets.modify, hs]
  · refine (readWanted_modify ?_ ?_ ?_).trans (hwanted hread)
    all_goals exact fun _ => rfl

theorem Flow.subprocExited (ctx : ServiceContext) (h : Controlled st)
    (hwf : WellFormed st) (hs : st.heap s = some a) (hlocal : SocketKind.isLocal a.kind = true)
    (unread : Bool)
    (hwanted : unread = false → a.fde.pending = false → readWanted st s = true) :
    Controlled (SocketEvents.subprocExited ctx st s unread) := by
  have hok := hwf.socket s a hs
  have hmarked : Calm st (st.modify s markEof) :=
    calm_local hwf hs rfl rfl rfl rfl rfl hok.queue ⟨hok.fde.writeWanted, hok.fde.idle⟩ id rfl rfl
  have hflow := h.later hmarked fun t =>
    kept_local hwf hs rfl rfl rfl rfl rfl hok.queue ⟨hok.fde.writeWanted, hok.fde.idle⟩
  have hcell : (st.modify s markEof).heap s = some (markEof a) := by simp [Sockets.modify, hs]
  have hsound : Fdevent.Sound { (markEof a).fde with
      events := (markEof a).fde.events.union .fdeRead, pending := true } := by
    refine ⟨fun hw => hok.fde.writeWanted ?_, by simp⟩
    simpa [markEof, EventMask.union, EventMask.fdeRead, EventMask.empty] using hw
  have hfaked : Calm (st.modify s markEof) ((st.modify s markEof).modify s fun a =>
      { a with fde := { a.fde with events := a.fde.events.union .fdeRead, pending := true } }) :=
    calm_local hmarked.after hcell rfl rfl rfl rfl rfl hok.queue hsound id rfl rfl
  have hflow' := hflow.later hfaked fun t =>
    kept_local hmarked.after hcell rfl rfl rfl rfl rfl hok.queue hsound
  unfold SocketEvents.subprocExited
  simp only [hs]
  split
  · exact hflow
  · rename_i hunread
    split
    · exact hflow'
    · rename_i hpending
      refine hflow'.dispatch (a := { markEof a with
        fde := { (markEof a).fde with
          events := (markEof a).fde.events.union .fdeRead, pending := true } }) ctx hfaked.after
        ?_ hlocal fun _ => ?_
      · simp [Sockets.modify, hs]
      · have hmarked : readWanted (st.modify s markEof) s = readWanted st s :=
          readWanted_modify (fun _ => rfl) (fun _ => rfl) fun _ => rfl
        have hwanted' := hwanted (by simpa using hunread) (by simpa using hpending)
        refine (readWanted_modify ?_ ?_ ?_).trans (hmarked.trans hwanted')
        all_goals exact fun _ => rfl

end Events

section Messages

variable {st : Sockets} {ctx : ServiceContext} {t : TransportRef} {p : Apacket}

theorem Flow.handleOpen (h : Controlled st) (hwf : WellFormed st)
    (htrackers : TrackersOk st) : Controlled (ServerState.handleOpen ctx st t p) := by
  unfold ServerState.handleOpen
  split
  · exact h.tell t (by simp)
  · rename_i s st₁ hservice
    obtain ⟨hcreated, a, hs⟩ : Effect true (fun _ => True) (fun _ => True) st st₁ ∧
        ∃ a, ServiceSocket st st₁ s a := createLocalServiceSocket_spec hservice hwf trivial
    have hwf₁ := hcreated.wellFormed hwf
    obtain ⟨hflow, hanswered⟩ :=
      (h.service hwf htrackers hservice).connect hwf₁ hs.connectable p.arg0 t
    have hcell := (connectRemote_cells hwf₁ hs.connectable.cell p.arg0 t).1
    have hwf₂ : WellFormed (connectRemote st₁ s p.arg0 t) :=
      wellFormed_connectRemote hwf₁ hs.connectable
    dsimp only
    generalize (((connectRemote st₁ s p.arg0 t).heap s).map Asocket.id).getD 0 = id
    exact (hflow.tell t (by simp)).ready ctx (hwf₂.congr rfl rfl rfl ⟨rfl, rfl⟩)
      ⟨hcell, hs.connectable.listed, hs.connectable.active⟩ rfl (hanswered.tell t (by simp))

/-- The `OKAY` comes from the transport of the stream that it names. -/
def okayFits (st : Sockets) (t : TransportRef) (p : Apacket) : Bool :=
  (findLocalSocket st p.arg1 0).all fun s => ((st.peerOf s).bind st.heap).all fun b =>
    b.id ≠ p.arg0 || b.transport = some t

theorem Flow.handleOkay (h : Controlled st) (hwf : WellFormed st)
    (hfits : okayFits st t p = true)
    (hanswered : unanswered t p.arg1 p.arg0 st.trace = false) :
    Controlled (ServerState.handleOkay ctx st t p) := by
  unfold ServerState.handleOkay
  split
  · exact h.tell t (by simp)
  · rename_i s hfound
    obtain ⟨a, hs, hid⟩ := listed_of_findLocalSocket hwf hfound
    split
    · rename_i hpeer
      have hconnectable : Connectable st s a :=
        ⟨hs.cell, by simpa [Sockets.peerOf, hs.cell] using hpeer, hs.active, hs.listed⟩
      obtain ⟨hflow, hnew⟩ := h.connect hwf hconnectable p.arg0 t
      exact hflow.ready ctx (wellFormed_connectRemote hwf hconnectable)
        ⟨(connectRemote_cells hwf hs.cell p.arg0 t).1, hs.listed, hs.active⟩ rfl hnew
    · rename_i q hpeer
      split
      · rename_i hmatch
        obtain ⟨b, hb, hbid⟩ : ∃ b, st.heap q = some b ∧ b.id = p.arg0 := by
          simpa [Option.any_eq_true] using hmatch
        have hq : a.peer = some q := by simpa [Sockets.peerOf, hs.cell] using hpeer
        have hown : b.transport = some t := by
          simpa [okayFits, hfound, hpeer, hb, hbid] using hfits
        refine (h.serve s).ready ctx hwf hs hq ?_
        have hjoined : ∀ t' i j, Joined t' st s i j → t' = t ∧ i = p.arg1 ∧ j = p.arg0 := by
          rintro t' i j ⟨c, r, d, hc, rfl, hr, hd, -, rfl, ht⟩
          obtain rfl := Option.some.inj (hs.cell.symm.trans hc)
          obtain rfl := Option.some.inj (hq.symm.trans hr)
          obtain rfl := Option.some.inj (hb.symm.trans hd)
          exact ⟨Option.some.inj (ht.symm.trans hown), hid, hbid⟩
        intro t' i j hs'
        obtain ⟨rfl, rfl, rfl⟩ := hjoined t' i j hs'
        exact hanswered
      · exact h

theorem calm_handleClse (h : WellFormed st) : Calm st (handleClse st t p) := by
  unfold handleClse
  split
  · exact .refl h
  · rename_i s hfound
    obtain ⟨-, a, ha, -⟩ := mem_list_of_findLocalSocket hfound
    dsimp only
    split
    · exact .refl h
    · exact calm_asocketClose h ha

theorem Flow.handleWrte (h : Controlled st) (hwf : WellFormed st) :
    Controlled (ServerState.handleWrte st t p) := by
  unfold ServerState.handleWrte
  split
  · exact h
  · rename_i s hfound
    obtain ⟨a, hs, -⟩ := listed_of_findLocalSocket hwf hfound
    have hk : st.kindOf s ≠ some .remote := by
      rw [kindOf_eq hs.cell rfl]
      intro hremote
      have hlisted := hs.listed
      rw [Option.some.inj hremote] at hlisted
      cases hlisted
    have hcalled : Idle (.enqueueCalled s p.data) := trivial
    have hflow := (h.record hcalled).later (calm_asocketEnqueue_called hwf hk p.data) fun t =>
      kept_asocketEnqueue_called hwf s p.data
    dsimp only
    split
    · exact hflow.tell t (by simp)
    · exact hflow

theorem Flow.handleStream (h : Controlled st) (hwf : WellFormed st)
    (htrackers : TrackersOk st) (hfits : p.command = .aOkay → okayFits st t p = true)
    (hanswered : p.command = .aOkay → unanswered t p.arg1 p.arg0 st.trace = false) :
    Controlled (ServerState.handleStream ctx st t p) := by
  unfold ServerState.handleStream
  split
  · exact h.handleOpen hwf htrackers
  · rename_i hcommand
    exact h.handleOkay hwf (hfits hcommand) (hanswered hcommand)
  · exact h.later (calm_handleClse hwf) fun t' => kept_handleClse hwf
  · exact h.handleWrte hwf
  · exact h

end Messages

section Updates

variable {st : Sockets} {s q p : SocketRef} {a b : Asocket}

/-- Sending on one stream leaves the others answered. -/
theorem Answered.enqueue (h : Answered st p) (hwf : WellFormed st) (hq : st.peerOf s = some q)
    (hremote : st.kindOf q = some .remote) (hp : p ≠ s) (data : Bytes) :
    Answered (asocketEnqueue st q data).2 p := by
  have hcalled : Idle (.enqueueCalled q data) := trivial
  obtain ⟨t, packet, hjoined, heq⟩ := asocketEnqueue_joined hwf hq hremote data
  rw [heq]
  intro t' i j hp'
  have hp' : Joined t' st p i j := hp'
  by_contra hwaits
  have hwaits : unanswered t' i j
      ((st.record (.enqueueCalled q data)).trace ++ [.sent t packet]) = true :=
    Bool.of_not_eq_false hwaits
  rcases unanswered_sent hwaits with hold | ⟨-, -, hid, -⟩
  · cases ((h.record hcalled) t' i j hp').symm.trans hold
  · obtain ⟨b, hb, hblisted, hbclosing, hbid⟩ := hp'.listed hwf
    obtain ⟨a, ha, hlisted, hclosing, haid⟩ := hjoined.listed hwf
    exact hp (listed_eq hwf ⟨hb, hblisted, hbclosing⟩ ⟨ha, hlisted, hclosing⟩
      (hbid.trans (hid.symm.trans haid.symm)))

/-- The list of processes goes to trackers whose streams have been answered. -/
theorem Flow.processListUpdated (ctx : ServiceContext) (h : Controlled st)
    (hwf : WellFormed st) (htrackers : TrackersOk st)
    (hanswered : ∀ s ∈ st.jdwpTrackers, Answered st s) :
    Controlled (jdwpProcessListUpdated ctx st) := by
  unfold jdwpProcessListUpdated
  have hkind : ∀ s ∈ st.jdwpTrackers, ∀ a, st.heap s = some a → a.kind = .jdwpTracker :=
    fun s hs => (htrackers.jdwp s hs).2
  have hnodup := h.trackers
  generalize st.jdwpTrackers = trackers at hkind hanswered hnodup
  clear htrackers
  induction trackers generalizing st with
  | nil => exact h
  | cons s trackers ih =>
      rw [List.nodup_cons] at hnodup
      have hrest := fun p hp => hkind p (List.mem_cons_of_mem s hp)
      have hrest' := fun p hp => hanswered p (List.mem_cons_of_mem s hp)
      rw [List.foldl_cons]
      cases hpeer : st.peerOf s with
      | none => exact ih h hwf hrest hrest' hnodup.2
      | some q =>
          obtain ⟨a, ha, hq⟩ := peerOf_eq_some.mp hpeer
          have hak := hkind s List.mem_cons_self a ha
          obtain ⟨hsent, hwf', hheap⟩ := h.jdwpSend hwf ha (.inr hak) hq
            (hanswered s List.mem_cons_self) (jdwpProcessListMsg ctx.jdwpPids 1024)
          have hremote : st.kindOf q = some .remote := remote_of_jdwp hwf ha (.inr hak) hq
          obtain ⟨t, packet, hjoined, -⟩ :=
            asocketEnqueue_joined hwf hpeer hremote (jdwpProcessListMsg ctx.jdwpPids 1024)
          have hunwilling : Willing a = false :=
            (h.started t s a _ _ (end_of_joined hjoined ha) hak).resolve_left id
          dsimp only
          refine ih (hsent.served ((congrFun hheap s).trans ha) (.inl hunwilling)) hwf'
            (fun p hp => ?_) (fun p hp => ?_) hnodup.2
          · rw [hheap]
            exact hrest p hp
          · refine (hrest' p hp).enqueue hwf hpeer hremote ?_ _
            rintro rfl
            exact hnodup.1 hp

end Updates

/-- Whether the last `WRTE` of a socket's stream has been answered can be computed. -/
def isAnswered (st : Sockets) (s : SocketRef) : Bool :=
  (st.heap s).all fun a => (a.peer.bind st.heap).all fun b =>
    b.kind != .remote || b.transport.all fun t => !unanswered t a.id b.id st.trace

theorem isAnswered_iff {st : Sockets} {s : SocketRef} :
    isAnswered st s = true ↔ Answered st s := by
  simp only [isAnswered, Option.all_eq_true, Option.bind_eq_some_iff, Bool.or_eq_true,
    bne_iff_ne, Bool.not_eq_true']
  constructor
  · rintro h t i j ⟨a, q, b, ha, rfl, hq, hb, hk, rfl, ht⟩
    exact (h a ha b ⟨q, hq, hb⟩).resolve_left (fun hne => hne hk) t ht
  · rintro h a ha b ⟨q, hq, hb⟩
    by_cases hk : b.kind = .remote
    · exact .inr fun t ht => h t a.id b.id ⟨a, q, b, ha, rfl, hq, hb, hk, rfl, ht⟩
    · exact .inl hk

instance (st : Sockets) (s : SocketRef) : Decidable (Answered st s) :=
  decidable_of_iff (isAnswered st s = true) isAnswered_iff

/-- No read event that was not asked for gets anything from a socket whose stream runs over a
transport, an `OKAY` comes from the transport of its stream, and the list of processes changes
only when the trackers have been answered. -/
def KeepsPace (st : Server) : Action × Oracle → Prop
  | (.dispatch s, env) =>
      ((st.sockets.heap s).any fun a => a.fde.events.read) = true →
        readWanted (scripted env st) s = true
  | (.subprocExited s unread, env) =>
      unread = false → ((st.sockets.heap s).any fun a => a.fde.pending) = false →
        readWanted (scripted env st) s = true
  | (.packet t p, _) =>
      p.command = .aOkay → actsOn (st.transports t).online p = true →
        okayFits st.sockets t p = true
  | (.jdwpUpdated, _) => ∀ s ∈ st.sockets.jdwpTrackers, Answered st.sockets s
  | _ => True

instance (st : Server) : (l : Action × Oracle) → Decidable (KeepsPace st l)
  | (.dispatch _, _) | (.subprocExited _ _, _) | (.packet _ _, _) =>
      inferInstanceAs (Decidable (_ → _))
  | (.jdwpUpdated, _) => inferInstanceAs (Decidable (∀ _ ∈ _, _))
  | (.poll _ _, _) | (.accept _, _) | (.acceptSmart, _) | (.register _ _ _, _) | (.remove _, _)
  | (.reverseRequest _, _) | (.frameworkConnect, _) | (.frameworkRead _ _, _) =>
      inferInstanceAs (Decidable True)

section Runs

variable {cfg : Config} {env : Oracle} {st : Server}

theorem Flow.run {f : ServiceContext → Sockets → Sockets}
    (hf : Controlled (f (serviceContext cfg env st) st.sockets)) :
    Controlled (runSockets cfg env st f).sockets := by
  have hsame := (@listenerChange_runSockets cfg env st f).sockets
  exact hf.of_heap hsame.heap hsame.counters hsame.trackers.1 (.refl hsame.trace)

theorem Flow.next {l : Action × Oracle} (h : Controlled st.sockets)
    (hsettled : Settled st.sockets) (henabled : Enabled cfg st l.1) (hpace : KeepsPace st l) :
    Controlled (step cfg l.2 st l.1).sockets := by
  obtain ⟨action, env⟩ := l
  have hwf : WellFormed (scripted env st) := (carries_calm.scripted hsettled.wellFormed env).after
  have hflow : Controlled (scripted env st) := h.of_heap rfl ⟨rfl, rfl⟩ rfl (.refl rfl)
  have htrackers : TrackersOk (scripted env st) :=
    ⟨hsettled.trackers.jdwp, hsettled.trackers.device⟩
  have hrun : ∀ (f : ServiceContext → Sockets → Sockets),
      Controlled (f (serviceContext cfg env
        { st with sockets := scripted env st }) (scripted env st)) →
      Controlled (runSockets cfg env { st with sockets := scripted env st } f).sockets :=
    fun f hf => @Flow.run cfg env { st with sockets := scripted env st } f hf
  have hadministrative : Administrative action →
      Controlled (step cfg env st action).sockets := fun haction =>
    h.later (carries_calm.step hsettled.wellFormed hsettled.trackers haction) fun t =>
      (carries_kept t).step hsettled.wellFormed hsettled.trackers haction
  cases action with
  | packet t p =>
      by_cases hstream : Command.isStream p.command = true
      · obtain ⟨ctx, -, hstep⟩ := @step_packet_sockets cfg env st t p hstream
        have hreceived : Idle (.received t p) := trivial
        have hnoted : WellFormed ((scripted env st).record (.received t p)) :=
          hwf.congr rfl rfl rfl ⟨rfl, rfl⟩
        rw [hstep]
        split
        · rename_i hacts
          exact (hflow.record hreceived).handleStream hnoted ⟨htrackers.jdwp, htrackers.device⟩
            (fun hcommand => hpace hcommand hacts) unanswered_received
        · exact hflow.record hreceived
      · exact hadministrative (Bool.eq_false_iff.mpr hstream)
  | poll s revents =>
      obtain ⟨a, hs, -, hallowed⟩ := henabled
      have hok := hwf.socket s a hs
      have hqueue : SocketKind.isLocal a.kind = true → a.pkts ≠ [] →
          (fdeventProcess a.fde revents).state.write = true := by
        intro hlocal hpkts
        simpa using hok.queue hlocal hpkts
      exact hflow.later (calm_local hwf hs rfl rfl rfl rfl rfl hqueue
        (hok.fde.fdeventProcess hallowed) (by simp) rfl rfl) fun t =>
          kept_local hwf hs rfl rfl rfl rfl rfl hqueue (hok.fde.fdeventProcess hallowed)
  | dispatch s =>
      obtain ⟨a, hs, hkind, -⟩ := henabled
      refine hrun _ (hflow.dispatch _ hwf hs (isLocal_of_kind hkind) fun hread => hpace ?_)
      simp [hs, hread]
  | subprocExited s unread =>
      obtain ⟨-, a, hs, hkind⟩ := henabled
      refine hrun _ (hflow.subprocExited _ hwf hs (isLocal_of_kind hkind) unread
        fun hunread hpending => hpace hunread ?_)
      simp [hs, hpending]
  | accept l =>
      simp only [step]
      split
      · exact hflow
      · refine hrun _ (hflow.later (calm_effect (T := fun _ => True) (R := fun _ => True) hwf
          (effect_listenerEventFunc _ hwf _ fun _ _ => trivial)) fun t => ?_)
        exact kept_listenerEventFunc _ hwf _
  | acceptSmart =>
      exact hrun _ (hflow.later (calm_effect (T := fun _ => True) (R := fun _ => True) hwf
        (effect_ssListenerEventFunc _ hwf)) fun t => kept_ssListenerEventFunc _ hwf)
  | jdwpUpdated => exact hrun _ (hflow.processListUpdated _ hwf htrackers hpace)
  | register | remove | reverseRequest | frameworkConnect | frameworkRead =>
      exact hadministrative trivial

/-- In a run that keeps pace no `WRTE` is sent on a stream before the last one has been
answered. -/
theorem flow_control (cfg : Config) {st : Server}
    (h : (serverSystem cfg).ReachableWhen KeepsPace st) : Paced st.sockets.trace := by
  refine (h.invariant (I := fun st => Settled st.sockets ∧ Controlled st.sockets)
    ?_ ?_).2.paced
  · rintro st rfl
    exact ⟨@settled_of_reachable cfg .initial ⟨.initial, rfl, .refl⟩, flow_initial⟩
  · intro st l hinv henabled hpace
    exact ⟨hinv.1.next henabled.2, hinv.2.next hinv.1 henabled.2 hpace⟩

/-- The client of a forwarding listener sends again when its bytes have been answered. -/
def sendAnswered : List (Action × Oracle) :=
  sendConnected.append
    [(.packet 0 { command := .aOkay, arg0 := 7, arg1 := 1, data := [] }, {}),
      (.poll 0 .readable, {}), (.dispatch 0, { reads := [.data [2]] })]

/-- The client sends again and shuts down its side before its bytes have been answered. -/
def sendHalfClosed : List (Action × Oracle) :=
  sendConnected.append [(.poll 0 .halfClosed, {}), (.dispatch 0, { reads := [.data [2]] })]

theorem flow_control_sendAnswered :
    (serverSystem (plainConfig false false)).Executable KeepsPace .initial sendAnswered ∧
      (∀ data ∈ [[1], [2]], .sent 0 { command := .aWrte, arg0 := 1, arg1 := 7, data := data } ∈
        ((serverSystem (plainConfig false false)).execute .initial sendAnswered).sockets.trace) ∧
      Paced ((serverSystem (plainConfig false false)).execute .initial
        sendAnswered).sockets.trace := by
  have hrun : (serverSystem (plainConfig false false)).Executable KeepsPace .initial
      sendAnswered := by decide
  refine ⟨hrun, by decide, flow_control (plainConfig false false) ?_⟩
  exact System.reachableWhen_execute ⟨.initial, rfl, .refl⟩ hrun

/-- A read event that nobody asked for sends a `WRTE` while the last one is unanswered. -/
theorem flow_control_fails_sendHalfClosed :
    (serverSystem (plainConfig false false)).Executable (fun _ _ => True) .initial
        sendHalfClosed ∧
      ¬ Paced ((serverSystem (plainConfig false false)).execute .initial
        sendHalfClosed).sockets.trace := by
  decide

/-- The list of processes changes before a tracker's first list has been answered. -/
def updateUnanswered : List (Action × Oracle) :=
  [(.register 0 .offline .usb, {}),
    (.packet 0 { command := .aCnxn, arg0 := 0x01000000, arg1 := 4096, data := ascii "host::" }, {}),
    (.packet 0 { command := .aOpen, arg0 := 7, arg1 := 0, data := ascii "track-jdwp" ++ [0] }, {}),
    (.jdwpUpdated, { jdwpPids := [42] })]

/-- Another transport sends an `OKAY` with the ids of the client's stream. -/
def sendForeign : List (Action × Oracle) :=
  sendConnected.append
    [(.register 1 .offline .usb, {}),
      (.packet 1 { command := .aCnxn, arg0 := 0x01000000, arg1 := 4096, data := ascii "host::" },
        {}),
      (.packet 1 { command := .aOkay, arg0 := 7, arg1 := 1, data := [] }, {}),
      (.poll 0 .readable, {}), (.dispatch 0, { reads := [.data [2]] })]

example : ∀ run ∈ [updateUnanswered, sendForeign],
    (serverSystem (plainConfig false false)).Executable (fun _ _ => True) .initial run ∧
      ¬ Paced ((serverSystem (plainConfig false false)).execute .initial run).sockets.trace := by
  decide

end Runs

end Adb.FlowControl
