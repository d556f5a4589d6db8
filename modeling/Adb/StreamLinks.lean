import Adb.GraphInvariants
import Adb.TransportIsolation

/-!
The streams of one transport, as the socket table shows them: the sockets that
are joined to the other side, and those that wait for its answer.  No callback
but the message of the other side joins a socket, and what is sent and handed
to a socket meanwhile agrees with the streams.
-/

namespace Adb.StreamLinks

open Adb.DescriptorIo
open Adb.EventInterest
open Adb.WirePackets
open Adb.SocketTable
open Adb.SocketOperations
open Adb.SmartSockets
open Adb.SocketEvents
open Adb.SocketClosing
open Adb.SocketGraph
open Adb.SocketEffects
open Adb.OperationEffects
open Adb.SmartEffects
open Adb.StreamEffects
open Adb.CallbackEffects
open Adb.EnqueueContract
open Adb.GraphInvariants
open Adb.ServerState
open Adb.ServerRuns
open Adb.ServerEffects
open Adb.TransportIsolation

/-- The socket `s` with the id `i` is one end of a stream over `t`, and the
socket with the id `j` on the other side is the other end. -/
def Joined (t : TransportRef) (st : Sockets) (s : SocketRef) (i j : Nat) : Prop :=
  ∃ a q b, st.heap s = some a ∧ a.id = i ∧ a.peer = some q ∧ st.heap q = some b ∧
    b.kind = .remote ∧ b.id = j ∧ b.transport = some t

/-- The socket `s` with the id `i` waits for an answer on `t`. -/
def Waiting (t : TransportRef) (st : Sockets) (s : SocketRef) (i : Nat) : Prop :=
  ∃ a, st.heap s = some a ∧ SocketKind.isListed a.kind = true ∧ a.closing = false ∧ a.id = i ∧
    a.peer = none ∧ a.transport = some t

/-- The socket has been freed, or waits on the closing list. -/
def Over (st : Sockets) (s : SocketRef) : Prop := ∀ a, st.heap s = some a → a.closing = true

/-- A socket that is new, or that is in use but not joined to the other side. -/
def Unjoined (t : TransportRef) (st : Sockets) (s : SocketRef) : Prop :=
  st.nextRef ≤ s ∨ ∃ a, st.heap s = some a ∧ a.closing = false ∧ ∀ i j, ¬ Joined t st s i j

/-- The other side may have been asked to join the socket with the id `i`. -/
def Asked (t : TransportRef) (st : Sockets) (i : Nat) : Prop :=
  i < st.localSocketNextId ∧ ∀ s a, st.heap s = some a → SocketKind.isListed a.kind = true →
    a.closing = false → a.id = i → Waiting t st s i ∨ ∃ j, Joined t st s i j

/-- What an event says about the streams of `t`: an `OKAY` or a `WRTE` comes from a
joined socket, an `OPEN` from one that then waits, and only unjoined sockets
are handed anything. -/
def Tells (t : TransportRef) (st st' : Sockets) : Event → Prop
  | .sent t' p => t' = t → p.arg0 ≠ 0 →
      ((p.command = .aOkay ∨ p.command = .aWrte) → ∃ s, Joined t st s p.arg0 p.arg1) ∧
        (p.command = .aOpen → Asked t st' p.arg0)
  | .connected _ _ _ t' => t' ≠ t
  | .enqueueCalled s _ => Unjoined t st s
  | _ => True

/-- No stream of `t` has been joined from `st` to `st'`, and none has been lost
unless its socket is gone. -/
structure Kept (t : TransportRef) (st st' : Sockets) : Prop where
  before : WellFormed st
  after : WellFormed st'
  next : st.nextRef ≤ st'.nextRef
  kinds : ∀ p b', p < st.nextRef → st'.heap p = some b' →
    ∃ b, st.heap p = some b ∧ SameKind b.kind b'.kind
  ids : IdsKept st st'
  ended : ∀ s, s < st.nextRef → Over st s → Over st' s
  joined : ∀ s i j, Joined t st' s i j → Joined t st s i j
  stays : ∀ s i j, Joined t st s i j → Joined t st' s i j ∨ Over st' s
  waits : ∀ s i, Waiting t st s i → Waiting t st' s i ∨ Over st' s
  emits : Emits (Tells t st st') st st'

section Streams

variable {t : TransportRef} {st st' : Sockets} {s : SocketRef} {i j : Nat}

theorem Joined.fresh (h : Joined t st s i j) (hwf : WellFormed st) : s < st.nextRef := by
  obtain ⟨a, q, b, ha, -⟩ := h
  exact (hwf.socket s a ha).fresh

theorem Waiting.fresh (h : Waiting t st s i) (hwf : WellFormed st) : s < st.nextRef := by
  obtain ⟨a, ha, -⟩ := h
  exact (hwf.socket s a ha).fresh

theorem Joined.listed (h : Joined t st s i j) (hwf : WellFormed st) :
    ∃ a, st.heap s = some a ∧ SocketKind.isListed a.kind = true ∧ a.closing = false ∧
      a.id = i := by
  obtain ⟨a, q, b, ha, hi, hpeer, hb, hremote, -⟩ := h
  have hok := hwf.socket s a ha
  obtain ⟨-, b', hb', -, hcompat⟩ := hok.peer q hpeer
  obtain rfl := Option.some.inj (hb.symm.trans hb')
  rw [hremote] at hcompat
  refine ⟨a, ha, ?_, ?_, hi⟩
  · cases hk : a.kind <;> simp_all [Compatible, SocketKind.isListed]
  · cases hclosing : a.closing with
    | false => rfl
    | true => simp [(hok.closing hclosing).2] at hpeer

theorem Joined.not_over (h : Joined t st s i j) (hwf : WellFormed st) : ¬ Over st s := by
  obtain ⟨a, ha, -, hclosing, -⟩ := h.listed hwf
  intro hover
  simp [hover a ha] at hclosing

theorem Unjoined.not_joined (h : Unjoined t st s) (hwf : WellFormed st) : ¬ Joined t st s i j := by
  rcases h with hnew | ⟨-, -, -, hnot⟩
  · exact fun hjoined => absurd (hjoined.fresh hwf) (Nat.not_lt.mpr hnew)
  · exact hnot i j

theorem Unjoined.not_over (h : Unjoined t st s) (hs : s < st.nextRef) : ¬ Over st s := by
  rcases h with hnew | ⟨a, ha, hclosing, -⟩
  · exact absurd hs (Nat.not_lt.mpr hnew)
  · intro hover
    simp [hover a ha] at hclosing

theorem Unjoined.earlier (h : Unjoined t st' s) (hkept : Kept t st st') : Unjoined t st s := by
  by_cases hs : s < st.nextRef
  · have hs' : s < st'.nextRef := Nat.lt_of_lt_of_le hs hkept.next
    have hover : ¬ Over st s := fun hover => h.not_over hs' (hkept.ended s hs hover)
    obtain ⟨a, ha, hclosing⟩ : ∃ a, st.heap s = some a ∧ a.closing = false := by
      simpa [Over] using hover
    refine .inr ⟨a, ha, hclosing, fun i j hjoined => ?_⟩
    rcases hkept.stays s i j hjoined with hjoined' | hover'
    · exact h.not_joined hkept.after hjoined'
    · exact h.not_over hs' hover'
  · exact .inl (Nat.not_lt.mp hs)

theorem Asked.later (h : Asked t st i) (hkept : Kept t st st') : Asked t st' i := by
  refine ⟨Nat.lt_of_lt_of_le h.1 hkept.ids.counter, ?_⟩
  intro s a' ha' hlisted' hclosing' hid'
  have hover : ¬ Over st' s := by
    intro hover
    simp [hover a' ha'] at hclosing'
  rcases hkept.ids.ids s a' ha' hlisted' hclosing' with ⟨a, ha, hlisted, hclosing, hid⟩ | hnew
  · rcases h.2 s a ha hlisted hclosing (hid.trans hid') with hwaiting | ⟨j, hjoined⟩
    · exact .inl ((hkept.waits s i hwaiting).resolve_right hover)
    · exact .inr ⟨j, (hkept.stays s i j hjoined).resolve_right hover⟩
  · rw [hid'] at hnew
    exact absurd h.1 (Nat.not_lt.mpr hnew)

theorem Tells.weaken {st₁ st₂ st₃ st₄ : Sockets} {e : Event} (h : Tells t st₂ st₃ e)
    (hbefore : Kept t st₁ st₂) (hafter : Kept t st₃ st₄) : Tells t st₁ st₄ e := by
  cases e with
  | sent t' p =>
      intro ht harg
      obtain ⟨hspeaks, hopens⟩ := h ht harg
      refine ⟨fun hp => ?_, fun hp => (hopens hp).later hafter⟩
      obtain ⟨s, hs⟩ := hspeaks hp
      exact ⟨s, hbefore.joined s _ _ hs⟩
  | enqueueCalled s data => exact Unjoined.earlier h hbefore
  | connected s i j t' => exact h
  | _ => trivial

theorem Kept.not_kind {k : SocketKind} (h : Kept t st st') (hlocal : SocketKind.isLocal k = false)
    {a : Asocket} (hs : st.heap s = some a) (hk : a.kind ≠ k) : st'.kindOf s ≠ some k := by
  intro hkind
  obtain ⟨b', hb', rfl⟩ := Option.map_eq_some_iff.mp hkind
  obtain ⟨b, hb, hsame⟩ := h.kinds s b' (h.before.socket s a hs).fresh hb'
  obtain rfl := Option.some.inj (hs.symm.trans hb)
  rcases hsame with hsame | ⟨-, hlocal'⟩
  · exact hk hsame.symm
  · simp [hlocal] at hlocal'

theorem Kept.of_heap (h : WellFormed st) (hheap : st'.heap = st.heap)
    (hlist : st'.localSocketList = st.localSocketList)
    (hclosing : st'.localSocketClosingList = st.localSocketClosingList)
    (hcounters : SameCounters st st') (hemits : Emits (Tells t st st) st st') : Kept t st st' := by
  have hover : ∀ s, Over st' s ↔ Over st s := fun s => by rw [Over, Over, hheap]
  have hjoined : ∀ s i j, Joined t st' s i j ↔ Joined t st s i j := fun s i j => by
    rw [Joined, Joined, hheap]
  have hwaiting : ∀ s i, Waiting t st' s i ↔ Waiting t st s i := fun s i => by
    rw [Waiting, Waiting, hheap]
  have hasked : ∀ i, Asked t st i → Asked t st' i := fun i hi => by
    simpa only [Asked, hcounters.nextId, hheap, hjoined, hwaiting] using hi
  refine ⟨h, h.congr hheap hlist hclosing hcounters, Nat.le_of_eq hcounters.nextRef.symm,
    fun p b' _ hb' => ⟨b', hheap ▸ hb', .inl rfl⟩, .of_heap hheap hcounters,
    fun s _ => (hover s).mpr, fun s i j => (hjoined s i j).mp,
    fun s i j hs => .inl ((hjoined s i j).mpr hs),
    fun s i hs => .inl ((hwaiting s i).mpr hs), hemits.mono fun e he => ?_⟩
  cases e with
  | sent t' p => exact fun ht harg => ⟨(he ht harg).1, fun hp => hasked _ ((he ht harg).2 hp)⟩
  | enqueueCalled => exact he
  | connected => exact he
  | _ => trivial

theorem Kept.refl (h : WellFormed st) : Kept t st st :=
  .of_heap h rfl rfl rfl ⟨rfl, rfl⟩ (.refl rfl)

theorem Kept.trans {st₁ st₂ st₃ : Sockets} (h₁ : Kept t st₁ st₂) (h₂ : Kept t st₂ st₃) :
    Kept t st₁ st₃ where
  before := h₁.before
  after := h₂.after
  next := Nat.le_trans h₁.next h₂.next
  kinds p b' hp hb' := by
    obtain ⟨b, hb, hkind⟩ := h₂.kinds p b' (Nat.lt_of_lt_of_le hp h₁.next) hb'
    obtain ⟨b₀, hb₀, hkind₀⟩ := h₁.kinds p b hp hb
    exact ⟨b₀, hb₀, hkind₀.trans hkind⟩
  ids := h₁.ids.trans h₂.ids
  ended s hs hover := h₂.ended s (Nat.lt_of_lt_of_le hs h₁.next) (h₁.ended s hs hover)
  joined s i j hs := h₁.joined s i j (h₂.joined s i j hs)
  stays s i j hs := by
    have hfresh : s < st₂.nextRef := Nat.lt_of_lt_of_le (hs.fresh h₁.before) h₁.next
    rcases h₁.stays s i j hs with hs' | hover
    · exact h₂.stays s i j hs'
    · exact .inr (h₂.ended s hfresh hover)
  waits s i hs := by
    have hfresh : s < st₂.nextRef := Nat.lt_of_lt_of_le (hs.fresh h₁.before) h₁.next
    rcases h₁.waits s i hs with hs' | hover
    · exact h₂.waits s i hs'
    · exact .inr (h₂.ended s hfresh hover)
  emits := by
    refine (h₁.emits.mono fun e he => he.weaken (.refl h₁.before) h₂).trans
      (h₂.emits.mono fun e he => he.weaken h₁ (.refl h₂.after))

theorem kept_record (h : WellFormed st) {e : Event} (he : Tells t st st e) :
    Kept t st (st.record e) :=
  .of_heap h rfl rfl rfl ⟨rfl, rfl⟩ (.single rfl he)

theorem kept_sendPacket (h : WellFormed st) (t' : TransportRef) {p : Apacket}
    (hp : Tells t st st (.sent t' p)) : Kept t st (st.sendPacket t' p) :=
  .of_heap h rfl rfl rfl ⟨rfl, rfl⟩ (.single rfl hp)

theorem kept_halt (h : WellFormed st) (reason : Halt) : Kept t st (st.halt reason) :=
  .of_heap h rfl rfl rfl ⟨rfl, rfl⟩ (.refl rfl)

theorem kept_sendOn (h : WellFormed st) (t' : Option TransportRef) {p : Apacket}
    (hp : ∀ t₀, t' = some t₀ → Tells t st st (.sent t₀ p)) : Kept t st (sendOn st t' p) := by
  cases t' with
  | none => exact kept_halt h _
  | some t₀ => exact kept_sendPacket h t₀ (hp t₀ rfl)

theorem tells_sent {t' : TransportRef} {p : Apacket} (hokay : p.command ≠ .aOkay)
    (hwrte : p.command ≠ .aWrte) (hopen : p.command ≠ .aOpen) : Tells t st st' (.sent t' p) :=
  fun _ _ => ⟨fun hp => (hp.elim hokay hwrte).elim, fun hp => (hopen hp).elim⟩

theorem kept_modify {a : Asocket} {f : Asocket → Asocket} (h : WellFormed st)
    (hs : st.heap s = some a) (hf : Respects a (f a)) (htransport : (f a).transport = a.transport) :
    Kept t st (st.modify s f) := by
  have hself : (st.modify s f).heap s = some (f a) := by simp [Sockets.modify, hs]
  have hother : ∀ p, p ≠ s → (st.modify s f).heap p = st.heap p := fun p hp => by
    simp [Sockets.modify, hp]
  have hremote : (f a).kind = .remote ↔ a.kind = .remote := by
    rcases hf.kind with hk | ⟨hk, hk'⟩
    · rw [hk]
    · constructor
      · intro hr
        simp [hr, SocketKind.isLocal] at hk'
      · intro hr
        simp [hr, SocketKind.isLocal] at hk
  -- The cells that the definitions look at differ in nothing that they read.
  have hcell : ∀ p b', (st.modify s f).heap p = some b' → ∃ b, st.heap p = some b ∧
      b'.peer = b.peer ∧ b'.id = b.id ∧ b'.closing = b.closing ∧ b'.transport = b.transport ∧
      (b'.kind = .remote ↔ b.kind = .remote) ∧
      SocketKind.isListed b'.kind = SocketKind.isListed b.kind := by
    intro p b' hb'
    by_cases hp : p = s
    · subst hp
      obtain rfl := Option.some.inj (hself.symm.trans hb')
      exact ⟨a, hs, hf.peer, hf.id, hf.closing, htransport, hremote, hf.listed⟩
    · exact ⟨b', hother p hp ▸ hb', rfl, rfl, rfl, rfl, Iff.rfl, rfl⟩
  have hback : ∀ p b, st.heap p = some b → ∃ b', (st.modify s f).heap p = some b' ∧
      b'.peer = b.peer ∧ b'.id = b.id ∧ b'.closing = b.closing ∧ b'.transport = b.transport ∧
      (b'.kind = .remote ↔ b.kind = .remote) ∧
      SocketKind.isListed b'.kind = SocketKind.isListed b.kind := by
    intro p b hb
    by_cases hp : p = s
    · subst hp
      obtain rfl := Option.some.inj (hs.symm.trans hb)
      exact ⟨f a, hself, hf.peer, hf.id, hf.closing, htransport, hremote, hf.listed⟩
    · exact ⟨b, (hother p hp).trans hb, rfl, rfl, rfl, rfl, Iff.rfl, rfl⟩
  refine ⟨h, h.modify hs hf, Nat.le_refl _, ?_, idsKept_modify hs hf.id hf.listed hf.closing,
    ?_, ?_, ?_, ?_, .refl rfl⟩
  · intro p b' _ hb'
    by_cases hp : p = s
    · subst hp
      obtain rfl := Option.some.inj (hself.symm.trans hb')
      exact ⟨a, hs, hf.kind⟩
    · exact ⟨b', hother p hp ▸ hb', .inl rfl⟩
  · intro p _ hover b' hb'
    obtain ⟨b, hb, -, -, hclosing, -⟩ := hcell p b' hb'
    exact hclosing.trans (hover b hb)
  · rintro p i j ⟨c', q, d', hc', hid, hpeer, hd', hk, hid', ht⟩
    obtain ⟨c, hc, hcpeer, hcid, -⟩ := hcell p c' hc'
    obtain ⟨d, hd, -, hdid, -, hdt, hdk, -⟩ := hcell q d' hd'
    exact ⟨c, q, d, hc, hcid ▸ hid, hcpeer ▸ hpeer, hd, hdk.mp hk, hdid ▸ hid', hdt ▸ ht⟩
  · rintro p i j ⟨c, q, d, hc, hid, hpeer, hd, hk, hid', ht⟩
    obtain ⟨c', hc', hcpeer, hcid, -⟩ := hback p c hc
    obtain ⟨d', hd', -, hdid, -, hdt, hdk, -⟩ := hback q d hd
    exact .inl ⟨c', q, d', hc', hcid.trans hid, hcpeer.trans hpeer, hd', hdk.mpr hk,
      hdid.trans hid', hdt.trans ht⟩
  · rintro p i ⟨c, hc, hlisted, hclosing, hid, hpeer, ht⟩
    obtain ⟨c', hc', hcpeer, hcid, hcc, hct, -, hcl⟩ := hback p c hc
    exact .inl ⟨c', hc', hcl.trans hlisted, hcc.trans hclosing, hcid.trans hid, hcpeer.trans hpeer,
      hct.trans ht⟩

theorem tells_of_closeEvent {st₀ : Sockets} {T : List SocketRef} {e : Event}
    (h : CloseEvent st₀ T e) : Tells t st st' e := by
  cases e with
  | sent t' p =>
      have hclse : p.command = .aClse := h
      exact tells_sent (by simp [hclse]) (by simp [hclse]) (by simp [hclse])
  | connected | enqueueCalled => exact h.elim
  | _ => trivial

theorem kept_asocketClose {a : Asocket} (h : WellFormed st) (hs : st.heap s = some a) :
    Kept t st (asocketClose st s) := by
  have hclosed := h.asocketClose_closed hs
  have hcases : ∀ p, p ∈ withPeer st s ∧ Over (asocketClose st s) p ∨
      p ∉ withPeer st s ∧ (asocketClose st s).heap p = st.heap p := by
    intro p
    by_cases hp : p ∈ withPeer st s
    · refine .inl ⟨hp, fun b' hb' => ?_⟩
      rw [hclosed.heap, if_pos hp] at hb'
      obtain ⟨b, -, hremains⟩ := Option.bind_eq_some_iff.mp hb'
      rw [(remains_eq_some hremains).2.2.2.2]
    · exact .inr ⟨hp, by rw [hclosed.heap, if_neg hp]⟩
  have hafter := h.asocketClose hs
  refine ⟨h, hafter, Nat.le_of_eq hclosed.counters.nextRef.symm,
    fun p b' _ hb' => (closes_asocketClose s).kind p b' hb', idsKept_asocketClose h hs,
    ?_, ?_, ?_, ?_, hclosed.emits.mono fun e he => tells_of_closeEvent he⟩
  · intro p _ hover
    rcases hcases p with ⟨-, hgone⟩ | ⟨-, hsame⟩
    · exact hgone
    · exact fun b hb => hover b (hsame ▸ hb)
  · rintro p i j hjoined
    obtain ⟨c, q, d, hc, hid, hpeer, hd, hk, hid', ht⟩ := id hjoined
    rcases hcases p with ⟨-, hgone⟩ | ⟨hp, hsame⟩
    · exact absurd hgone (hjoined.not_over hafter)
    · rcases hcases q with ⟨hq, -⟩ | ⟨-, hsame'⟩
      · exact absurd ((h.withPeer_linked s p c q (hsame ▸ hc) hpeer).mpr hq) hp
      · exact ⟨c, q, d, hsame ▸ hc, hid, hpeer, hsame' ▸ hd, hk, hid', ht⟩
  · rintro p i j ⟨c, q, d, hc, hid, hpeer, hd, hk, hid', ht⟩
    rcases hcases p with ⟨-, hgone⟩ | ⟨hp, hsame⟩
    · exact .inr hgone
    · rcases hcases q with ⟨hq, -⟩ | ⟨-, hsame'⟩
      · exact absurd ((h.withPeer_linked s p c q hc hpeer).mpr hq) hp
      · exact .inl ⟨c, q, d, hsame.trans hc, hid, hpeer, hsame'.trans hd, hk, hid', ht⟩
  · rintro p i ⟨c, hc, hwaiting⟩
    rcases hcases p with ⟨-, hgone⟩ | ⟨-, hsame⟩
    · exact .inr hgone
    · exact .inl ⟨c, hsame.trans hc, hwaiting⟩

end Streams

section Effects

variable {t : TransportRef} {T : SocketRef → Prop} {R : TransportRef → Prop} {st st' : Sockets}

/-- A new socket, or one whose peer is in this process. -/
def Indoors (st : Sockets) (p : SocketRef) : Prop :=
  st.nextRef ≤ p ∨ ∃ q, st.peerOf p = some q ∧ Offstream st p

theorem remote_of_effect (h : Effect false T R st st') (hwf : WellFormed st) {q : SocketRef}
    (hq : st'.kindOf q = some .remote) : st.kindOf q = some .remote := by
  have hmodified : ∀ {st : Sockets} {s : SocketRef} {f : Asocket → Asocket} {a : Asocket},
      st.heap s = some a → (f a).kind ≠ .remote → (st.modify s f).kindOf q = some .remote →
        st.kindOf q = some .remote := by
    intro st s f a hs hf hq
    by_cases hqs : q = s
    · subst hqs
      simp [Sockets.kindOf, Sockets.modify, hs, hf] at hq
    · simpa [Sockets.kindOf, Sockets.modify, hqs] using hq
  induction h with
  | same h => rwa [Sockets.kindOf, h.heap] at hq
  | note | send | track => exact hq
  | @update st s a f hs _ hf =>
      refine hmodified hs (fun hk => hf.kind ?_) hq
      rcases hf.respects.kind with hsame | ⟨-, hlocal⟩
      · rw [← hsame, hk]
      · simp [hk, SocketKind.isLocal] at hlocal
  | @close st s a hs _ _ =>
      obtain ⟨b', hb', hk⟩ := Option.map_eq_some_iff.mp hq
      rw [(hwf.asocketClose_closed hs).heap] at hb'
      split at hb'
      · obtain ⟨b, -, hremains⟩ := Option.bind_eq_some_iff.mp hb'
        rw [(remains_eq_some hremains).2.2.2.2] at hk
        cases hk
      · rw [Sockets.kindOf, hb', Option.map_some, hk]
  | @allocate st a _ _ _ hkind =>
      have hne : q ≠ st.nextRef := by
        rintro rfl
        have hremote : a.kind = .remote := by simpa [Sockets.kindOf, Sockets.allocate] using hq
        exact hkind.elim (fun h => by cases h) fun h => h hremote
      simpa [Sockets.kindOf, Sockets.allocate, hne] using hq
  | @install st a _ _ hlisted _ _ =>
      have hne : q ≠ st.nextRef := by
        rintro rfl
        have hremote : a.kind = .remote := by
          simpa [Sockets.kindOf, installLocalSocket, Sockets.haltWhen, Sockets.modify,
            Sockets.allocate] using hq
        simp [hremote, SocketKind.isListed] at hlisted
      simpa [Sockets.kindOf, installLocalSocket, Sockets.haltWhen, Sockets.modify,
        Sockets.allocate, hne] using hq
  | @link st s q' a b f g hs hq' _ hlink =>
      obtain ⟨-, -, hleft, hright⟩ := hlink.remote.resolve_left (by simp)
      have hb' : (st.modify s f).heap q' = some b := by
        simp [Sockets.modify, hlink.ne.symm, hq']
      exact hmodified hs hleft (hmodified hb' hright hq)
  | trans h₁ _ ih₁ ih₂ => exact ih₁ hwf (ih₂ (h₁.wellFormed hwf) hq)

theorem Indoors.not_attached {p : SocketRef} (h : Indoors st p) (hwf : WellFormed st) :
    ¬ Attached st p := by
  rcases h with hnew | ⟨q, -, hoff⟩
  · rintro ⟨q, hq, -⟩
    obtain ⟨a, ha, -⟩ := peerOf_eq_some.mp hq
    exact absurd (hwf.socket p a ha).fresh (Nat.not_lt.mpr hnew)
  · exact hoff.1

theorem Joined.attached {s : SocketRef} {i j : Nat} (h : Joined t st s i j) : Attached st s := by
  obtain ⟨a, q, b, ha, -, hpeer, hb, hk, -⟩ := h
  exact ⟨q, peerOf_eq_some.mpr ⟨a, ha, hpeer⟩, by rw [Sockets.kindOf, hb, Option.map_some, hk]⟩

theorem Indoors.unjoined {p : SocketRef} (h : Indoors st p) (hwf : WellFormed st) :
    Unjoined t st p := by
  refine h.imp_right fun ⟨q, hq, hoff⟩ => ?_
  obtain ⟨a, ha, -⟩ := peerOf_eq_some.mp hq
  exact ⟨a, ha, active_of_peer hwf hq a ha, fun i j hjoined => hoff.1 hjoined.attached⟩

/-- What only happens to sockets inside this process leaves the streams alone.
What is sent meanwhile is shown apart. -/
theorem kept_effect (h : WellFormed st) (heffect : Effect false T R st st')
    (hT : ∀ p, T p → Indoors st p)
    (hopens : Emits (fun e => ∀ p, e = .sent t p → p.command = .aOpen → Asked t st' p.arg0)
      st st') : Kept t st st' := by
  have hafter := heffect.wellFormed h
  have hsame : ∀ p, ¬ Indoors st p → st'.heap p = st.heap p := fun p hp =>
    heffect.heap h fun hTp => hp (hT p hTp)
  have hremote : ∀ q, st.kindOf q = some .remote → ¬ Indoors st q := by
    rintro q hq (hnew | ⟨-, -, hoff⟩)
    · exact absurd (fresh_of_kindOf h hq).1 (Nat.not_lt.mpr hnew)
    · exact hoff.2 hq
  refine ⟨h, hafter, (heffect.counters h).1, fun _ _ hp hb => heffect.cell h hp hb,
    idsKept_effect heffect h, ?_, ?_, ?_, ?_, ?_⟩
  · intro s hs hover
    rw [Over, hsame s]
    · exact hover
    · rintro (hnew | ⟨q, hq, -⟩)
      · exact absurd hs (Nat.not_lt.mpr hnew)
      · obtain ⟨a, ha, -⟩ := peerOf_eq_some.mp hq
        simpa [active_of_peer h hq a ha] using hover a ha
  · rintro s i j ⟨a, q, b, ha, hid, hpeer, hb, hk, hid', ht⟩
    have hq : st.kindOf q = some .remote :=
      remote_of_effect heffect h (by rw [Sockets.kindOf, hb, Option.map_some, hk])
    have hb₀ : st.heap q = some b := (hsame q (hremote q hq)) ▸ hb
    obtain ⟨-, b', hb', hback, -⟩ := (hafter.socket s a ha).peer q hpeer
    obtain rfl := Option.some.inj (hb.symm.trans hb')
    have hs : Attached st s := ⟨q, h.peerOf_symm (peerOf_eq_some.mpr ⟨b, hb₀, hback⟩), hq⟩
    have ha₀ : st.heap s = some a := (hsame s fun hin => hin.not_attached h hs) ▸ ha
    exact ⟨a, q, b, ha₀, hid, hpeer, hb₀, hk, hid', ht⟩
  · intro s i j hjoined
    obtain ⟨a, q, b, ha, hid, hpeer, hb, hk, hid', ht⟩ := id hjoined
    have hq : st.kindOf q = some .remote := by rw [Sockets.kindOf, hb, Option.map_some, hk]
    exact .inl ⟨a, q, b, (hsame s fun hin => hin.not_attached h hjoined.attached).trans ha, hid,
      hpeer, (hsame q (hremote q hq)).trans hb, hk, hid', ht⟩
  · rintro s i ⟨a, ha, hlisted, hclosing, hid, hpeer, ht⟩
    refine .inl ⟨a, (hsame s ?_).trans ha, hlisted, hclosing, hid, hpeer, ht⟩
    rintro (hnew | ⟨q, hq, -⟩)
    · exact absurd (h.socket s a ha).fresh (Nat.not_lt.mpr hnew)
    · simp [Sockets.peerOf, ha, hpeer] at hq
  · obtain ⟨events, htrace, hquiet⟩ := heffect.emits h
    obtain ⟨events', htrace', hasked⟩ := hopens
    obtain rfl := List.append_cancel_left (htrace.symm.trans htrace')
    refine ⟨events, htrace, fun e he => ?_⟩
    obtain ⟨hq, habout⟩ := hquiet e he
    cases e with
    | sent t' p =>
        rintro rfl -
        refine ⟨fun hp => ?_, hasked _ he p rfl⟩
        rcases hq with hfree | hc | hc
        · cases hfree
        · simp [hc] at hp
        · simp [hc] at hp
    | connected => cases hq
    | enqueueCalled p data => exact (hT p (habout p rfl)).unjoined h
    | _ => trivial

theorem kept_silent (h : WellFormed st) (heffect : Effect false T R st st')
    (hT : ∀ p, T p → Indoors st p) (htrace : st'.trace = st.trace) : Kept t st st' :=
  kept_effect h heffect hT (.refl htrace)

end Effects

section Operations

variable {t : TransportRef} {st : Sockets} {s : SocketRef}

theorem tells_streamPacket {q : SocketRef} {b : Asocket} (h : WellFormed st)
    (hq : st.heap q = some b) (hk : b.kind = .remote) {command : Command}
    (hcommand : command ≠ .aOpen) (data : Bytes) {t₀ : TransportRef}
    (ht₀ : b.transport = some t₀) : Tells t st st (.sent t₀ (streamPacket st b command data)) := by
  rintro rfl harg
  refine ⟨fun _ => ?_, fun hopen => absurd hopen hcommand⟩
  cases hpeer : b.peer with
  | none => simp [streamPacket, peerId, hpeer] at harg
  | some p =>
      obtain ⟨-, a, ha, hback, -⟩ := (h.socket q b hq).peer p hpeer
      exact ⟨p, a, q, b, ha, by simp [streamPacket, peerId, hpeer, ha], hback, hq, hk, rfl, ht₀⟩

theorem kept_local {a : Asocket} {f : Asocket → Asocket} (h : WellFormed st)
    (hs : st.heap s = some a) (hkind : (f a).kind = a.kind) (hpeer : (f a).peer = a.peer)
    (hid : (f a).id = a.id) (hclosing : (f a).closing = a.closing)
    (htransport : (f a).transport = a.transport)
    (hqueue : SocketKind.isLocal a.kind = true → (f a).pkts ≠ [] → (f a).fde.state.write = true)
    (hfde : (f a).fde.Sound) : Kept t st (st.modify s f) := by
  refine kept_modify h hs (.of_kind hkind hpeer hid hclosing hqueue hfde ?_) htransport
  rw [htransport]
  exact (h.socket s a hs).transport

theorem kept_afterWrite {α : Type} (h : WellFormed st) (s : SocketRef) (out : Written α) :
    Kept t st (st.afterWrite s out) :=
  .of_heap h rfl rfl rfl ⟨rfl, rfl⟩ (.single rfl trivial)

theorem kept_writeFailed {a : Asocket} (h : WellFormed st) (hs : st.heap s = some a) :
    Kept t st (asocketClose ((st.record (.fdWriteFailed s)).modify s fun a =>
      { a with hasWriteError := true }) s) := by
  have hnoted : Kept t st (st.record (.fdWriteFailed s)) := kept_record h trivial
  have hok := hnoted.after.socket s a hs
  have hmarked : Kept t (st.record (.fdWriteFailed s)) ((st.record (.fdWriteFailed s)).modify s
      fun a => { a with hasWriteError := true }) :=
    kept_local hnoted.after hs rfl rfl rfl rfl rfl hok.queue hok.fde
  refine (hnoted.trans hmarked).trans (kept_asocketClose (a := { a with hasWriteError := true })
    hmarked.after ?_)
  simp [Sockets.modify, Sockets.record, hs]

theorem kept_localSocketEnqueue (h : WellFormed st) (s : SocketRef) (data : Bytes) :
    Kept t st (localSocketEnqueue st s data).2 := by
  unfold localSocketEnqueue
  split
  · exact kept_halt h _
  · rename_i a hs
    split
    · have hwrote : Kept t st (st.afterWrite s (writeAll st.writeScript data)) :=
        kept_afterWrite h s _
      dsimp only
      split
      · exact hwrote
      · exact hwrote.trans (kept_writeFailed hwrote.after hs)
      · refine hwrote.trans (kept_local (a := a) hwrote.after hs rfl rfl rfl rfl rfl ?_ ?_)
        · exact fun _ _ => by simp [EventMask.union, EventMask.fdeWrite]
        · exact (h.socket s a hs).fde.fdeventAdd _
    · refine kept_local h hs rfl rfl rfl rfl rfl ?_ ?_
      · exact fun _ _ => by simp [EventMask.union, EventMask.fdeWrite]
      · exact (h.socket s a hs).fde.fdeventAdd _

theorem kept_asocketEnqueue_called (h : WellFormed st) (s : SocketRef) (data : Bytes) :
    Kept t (st.record (.enqueueCalled s data)) (asocketEnqueue st s data).2 := by
  have hwf : WellFormed (st.record (.enqueueCalled s data)) := h.congr rfl rfl rfl ⟨rfl, rfl⟩
  unfold asocketEnqueue
  generalize st.record (.enqueueCalled s data) = st₁ at hwf
  have hjdwp : Kept t st₁ (jdwpSocketEnqueue st₁ s).2 := by
    unfold jdwpSocketEnqueue
    split
    · exact kept_halt hwf _
    · rename_i q hq
      obtain ⟨b, hb, -⟩ := peerOf_eq_some.mp (hwf.peerOf_symm hq)
      exact kept_asocketClose hwf hb
  dsimp only
  split
  · exact kept_localSocketEnqueue hwf s data
  · exact kept_localSocketEnqueue hwf s data
  · rename_i hkind
    obtain ⟨b, hb, hk⟩ := Option.map_eq_some_iff.mp hkind
    simp only [remoteSocketEnqueue, hb]
    exact kept_sendOn hwf _ fun t₀ ht₀ => tells_streamPacket hwf hb hk (by simp) data ht₀
  · exact hjdwp
  · exact hjdwp
  · rename_i hkind
    obtain ⟨a, ha, -⟩ := Option.map_eq_some_iff.mp hkind
    exact kept_asocketClose hwf ha
  · exact kept_halt hwf _
  · exact kept_halt hwf _

theorem kept_asocketEnqueue (h : WellFormed st) (hs : Unjoined t st s) (data : Bytes) :
    Kept t st (asocketEnqueue st s data).2 :=
  (kept_record (e := .enqueueCalled s data) h hs).trans (kept_asocketEnqueue_called h s data)

/-- Only remote sockets hand something to a socket that is joined. -/
theorem unjoined_peer {q : SocketRef} (h : WellFormed st) (hq : st.peerOf s = some q)
    (hs : st.kindOf s ≠ some .remote) : Unjoined t st q := by
  have hback := h.peerOf_symm hq
  obtain ⟨b, hb, -⟩ := peerOf_eq_some.mp hback
  refine .inr ⟨b, hb, active_peer h hq b hb, fun i j hjoined => hs ?_⟩
  obtain ⟨r, hr, hk⟩ := hjoined.attached
  obtain rfl := Option.some.inj (hback.symm.trans hr)
  exact hk

theorem kindOf_eq {a : Asocket} {k : SocketKind} (hs : st.heap s = some a) (hk : a.kind = k) :
    st.kindOf s = some k := by
  rw [Sockets.kindOf, hs, Option.map_some, hk]

theorem kept_localSocketReady (h : WellFormed st) (s : SocketRef) :
    Kept t st (localSocketReady st s) := by
  unfold localSocketReady
  cases hs : st.heap s with
  | none =>
      refine .of_heap h ?_ rfl rfl ⟨rfl, rfl⟩ (.refl rfl)
      simp [Sockets.modify, hs]
  | some a =>
      have hok := h.socket s a hs
      refine kept_local h hs rfl rfl rfl rfl rfl ?_ (hok.fde.fdeventAdd _)
      intro hlocal hpkts
      simp [EventMask.union, hok.queue hlocal hpkts]

theorem kept_localSocketReadyNotify (h : WellFormed st) (hkind : st.kindOf s = some .localNotify) :
    Kept t st (localSocketReadyNotify st s) := by
  obtain ⟨a, hs, hakind⟩ := Option.map_eq_some_iff.mp hkind
  have hplain : Kept t st (st.modify s fun a => { a with kind := .localSocket }) :=
    kept_modify h hs (.plain (h.socket s a hs) hakind) rfl
  have hreplied : Kept t (st.modify s fun a => { a with kind := .localSocket })
      ((st.modify s fun a => { a with kind := .localSocket }).reply s .okay) :=
    kept_record hplain.after trivial
  exact (hplain.trans hreplied).trans (kept_localSocketReady hreplied.after s)

theorem kept_deviceTrackerSend (h : WellFormed st) (hs : st.kindOf s ≠ some .remote)
    (list : Bytes) : Kept t st (deviceTrackerSend st s list) := by
  unfold deviceTrackerSend
  split
  · exact kept_halt h _
  · rename_i q hq
    exact kept_asocketEnqueue h (unjoined_peer h hq hs) _

theorem kept_jdwpSocketReady (ctx : ServiceContext) (h : WellFormed st)
    (hkind : st.kindOf s = some .jdwp) : Kept t st (jdwpSocketReady ctx st s) := by
  obtain ⟨a, hs, hakind⟩ := Option.map_eq_some_iff.mp hkind
  unfold jdwpSocketReady
  simp only [hs]
  split
  · exact kept_halt h _
  · rename_i q hq
    have hpeer : st.peerOf s = some q := peerOf_eq_some.mpr ⟨a, hs, hq⟩
    obtain ⟨b, hb, -⟩ := peerOf_eq_some.mp (h.peerOf_symm hpeer)
    split
    · exact kept_asocketClose h hb
    · have hremote : st.kindOf q = some .remote := by
        obtain ⟨-, b', hb', -, hcompat⟩ := (h.socket s a hs).peer q hq
        rw [hakind] at hcompat
        cases hbkind : b'.kind <;> simp_all [Compatible, Sockets.kindOf]
      have hsent : Kept t st (asocketEnqueue st q
          (jdwpProcessList ctx.jdwpPids (getMaxPayload ctx.limit st s))).2 :=
        kept_asocketEnqueue h (unjoined_peer h hpeer (by simp [hkind])) _
      have hs' := hs
      rw [← asocketEnqueue_remote_heap hremote] at hs'
      have hok := hsent.after.socket s a hs'
      exact hsent.trans (kept_local hsent.after hs' rfl rfl rfl rfl rfl hok.queue hok.fde)

theorem kept_jdwpTrackerReady (ctx : ServiceContext) (h : WellFormed st)
    (hkind : st.kindOf s = some .jdwpTracker) : Kept t st (jdwpTrackerReady ctx st s) := by
  obtain ⟨a, hs, hakind⟩ := Option.map_eq_some_iff.mp hkind
  have hok := h.socket s a hs
  have hmarked : Kept t st (st.modify s fun a => { a with needInitial := false }) :=
    kept_local h hs rfl rfl rfl rfl rfl hok.queue hok.fde
  have hcell : (st.modify s fun a => { a with needInitial := false }).heap s =
      some { a with needInitial := false } := by simp [Sockets.modify, hs]
  unfold jdwpTrackerReady
  simp only [hs]
  split
  · split
    · exact kept_halt h _
    · rename_i q hq
      split
      · exact hmarked.trans (kept_halt hmarked.after _)
      · refine hmarked.trans (kept_asocketEnqueue hmarked.after (unjoined_peer (s := s)
          hmarked.after (peerOf_eq_some.mpr ⟨_, hcell, hq⟩) ?_) _)
        simp [Sockets.kindOf, hcell, hakind]
  · exact .refl h

theorem kept_deviceTrackerReady (ctx : ServiceContext) (h : WellFormed st)
    (hkind : st.kindOf s = some .deviceTracker) : Kept t st (deviceTrackerReady ctx st s) := by
  obtain ⟨a, hs, hakind⟩ := Option.map_eq_some_iff.mp hkind
  have hok := h.socket s a hs
  unfold deviceTrackerReady
  simp only [hs]
  split
  · have hmarked : Kept t st (st.modify s fun a => { a with updateNeeded := false }) :=
      kept_local h hs rfl rfl rfl rfl rfl hok.queue hok.fde
    refine hmarked.trans (kept_deviceTrackerSend hmarked.after ?_ _)
    simp [Sockets.kindOf, Sockets.modify, hs, hakind]
  · exact .refl h

theorem kept_asocketReady (ctx : ServiceContext) (h : WellFormed st) (s : SocketRef) :
    Kept t st (asocketReady ctx st s) := by
  have hcalled : Kept t st (st.record (.readyCalled s)) := kept_record h trivial
  refine hcalled.trans ?_
  have hwf := hcalled.after
  unfold asocketReady
  generalize st.record (.readyCalled s) = st₁ at hwf
  dsimp only
  split
  · exact kept_halt hwf _
  · exact kept_localSocketReady hwf s
  · rename_i hkind
    exact kept_localSocketReadyNotify hwf hkind
  · rename_i hkind
    obtain ⟨b, hb, hk⟩ := Option.map_eq_some_iff.mp hkind
    simp only [remoteSocketReady, hb]
    exact kept_sendOn hwf _ fun t₀ ht₀ => tells_streamPacket hwf hb hk (by simp) [] ht₀
  · exact .refl hwf
  · rename_i hkind
    exact kept_jdwpSocketReady ctx hwf hkind
  · rename_i hkind
    exact kept_jdwpTrackerReady ctx hwf hkind
  · rename_i hkind
    exact kept_deviceTrackerReady ctx hwf hkind

end Operations

section Smart

variable {t : TransportRef} {st : Sockets} {ctx : ServiceContext} {s client : SocketRef}

theorem asked_of_waiting {p : SocketRef} {i : Nat} (h : WellFormed st) (hp : Waiting t st p i) :
    Asked t st i := by
  obtain ⟨a, ha, hlisted, hclosing, hid, -⟩ := id hp
  refine ⟨hid ▸ ((h.socket p a ha).id hlisted hclosing).2, ?_⟩
  intro p' a' ha' hlisted' hclosing' hid'
  obtain rfl := h.idInj p' p a' a ha' ha ((h.listed p').mpr ⟨a', ha', hlisted', hclosing'⟩)
    ((h.listed p).mpr ⟨a, ha, hlisted, hclosing⟩) (hid'.trans hid.symm)
  exact .inl hp

theorem indoors_of_serves (hserves : Serves st s client) (h : WellFormed st) {p : SocketRef}
    (hp : p = s ∨ p = client) : Indoors st p := by
  obtain ⟨a, b, ha, hb, hakind, hbkind, hback, hpeer, -⟩ := hserves.cells h
  obtain ⟨hs, hclient⟩ := hserves.not_attached h
  rcases hp with rfl | rfl
  · exact .inr ⟨client, hserves.peer, hs, by simp [Sockets.kindOf, hb, hbkind]⟩
  · exact .inr ⟨s, peerOf_eq_some.mpr ⟨a, ha, hback⟩, hclient, by simp [Sockets.kindOf, ha, hakind]⟩

theorem kept_ite {c : Prop} [Decidable c] {x y : Int × Sockets} (hx : Kept t st x.2)
    (hy : Kept t st y.2) : Kept t st (if c then x else y).2 := by
  split
  · exact hx
  · exact hy

theorem kept_setTransport (h : WellFormed st) (hserves : Serves st s client) (t' : TransportRef) :
    Kept t st (st.modify s fun a => { a with transport := some t' }) ∧
      Serves (st.modify s fun a => { a with transport := some t' }) s client := by
  have hset : Handled false (fun p => p = s) (fun _ => True) st
      (st.modify s fun a => { a with transport := some t' }) :=
    handled_setTransport (T := fun p => p = s) hserves h rfl trivial
  refine ⟨kept_silent h hset.effect (fun p hp => ?_) rfl, hserves.of_handled hset⟩
  exact indoors_of_serves hserves h (.inl hp)

theorem kept_handleHostRequest (h : WellFormed st) (hserves : Serves st s client)
    (request : HostService) : Kept t st (handleHostRequest ctx st s client request).2 := by
  have hsame : Kept t st st := .refl h
  have hreply : ∀ {st : Sockets} r, WellFormed st → Kept t st (st.reply client r) :=
    fun r h => kept_record h trivial
  have hanswer : ∀ onError, Kept t st (answerAbout ctx st client request onError).2 := by
    intro onError
    unfold answerAbout
    split
    · exact hreply _ h
    · exact hreply _ h
  have hforward : Kept t st (handleForwardRequest ctx st client request).2 := by
    unfold handleForwardRequest
    refine kept_ite (hreply _ h) (kept_ite ?_ hsame)
    exact .of_heap h rfl rfl rfl ⟨rfl, rfl⟩ (.refl rfl)
  unfold handleHostRequest
  refine kept_ite ?_ (kept_ite ?_ (kept_ite (kept_ite (hreply _ h) hsame)
    (kept_ite (hreply _ h) (kept_ite (hanswer _) (kept_ite (hreply _ h)
    (kept_ite (kept_ite (hreply _ h) ?_) (kept_ite (hreply _ h) (kept_ite (hanswer _)
    (kept_ite hsame (kept_ite (hreply _ h) ?_))))))))))
  · exact (hreply _ h).trans (kept_halt (hreply _ h).after _)
  · dsimp only
    split
    · rename_i t' _
      have hset := (@kept_setTransport t st s client h hserves t').1
      exact hset.trans (hreply _ hset.after)
    · exact hreply _ h
  · split
    · exact hreply _ h
    · exact hreply _ h
  · exact hforward

theorem kept_smartSocketFail (h : WellFormed st) (hserves : Serves st s client) :
    Kept t st (smartSocketFail st s).2 := by
  obtain ⟨a, b, ha, hb, -⟩ := hserves.cells h
  exact kept_asocketClose h hb

theorem kept_replyFail (h : WellFormed st) (hserves : Serves st s client) (r : Reply) :
    Kept t st (smartSocketFail (st.reply client r) s).2 := by
  have hreplied : Kept t st (st.reply client r) := kept_record h trivial
  exact hreplied.trans (kept_smartSocketFail hreplied.after ⟨hserves.smart, hserves.peer⟩)

theorem kept_connectToRemote (h : WellFormed st)
    (hwaits : ∀ a t', st.heap s = some a → a.transport = some t' → Waiting t' st s a.id)
    (destination : Bytes) : Kept t st (connectToRemote ctx st s destination) := by
  unfold connectToRemote
  split
  · exact kept_halt h _
  · rename_i a ha
    dsimp only
    split
    · exact kept_halt h _
    · refine kept_sendOn h _ fun t₀ ht₀ ht _ => ⟨by simp, fun _ => ?_⟩
      exact asked_of_waiting h (hwaits a t (by exact ha) (ht ▸ ht₀))

/-- What another socket points at does not matter to a socket without a peer. -/
theorem connectToRemote_modify {a : Asocket} {p : SocketRef} (hs : st.heap s = some a)
    (hpeer : a.peer = none) (hp : s ≠ p) (f : Asocket → Asocket) (destination : Bytes) :
    (connectToRemote ctx st s destination).modify p f =
      connectToRemote ctx (st.modify p f) s destination := by
  have hs' : (st.modify p f).heap s = some a := by simp [Sockets.modify, hp, hs]
  have hlimit : getMaxPayload ctx.limit (st.modify p f) s = getMaxPayload ctx.limit st s := by
    simp [getMaxPayload, hs, hs', hpeer]
  simp only [connectToRemote, hs, hs', hlimit]
  split
  · rfl
  · cases a.transport <;> rfl

theorem kept_smartSocketConnect (h : WellFormed st) (hserves : Serves st s client)
    (service : Bytes) : Kept t st (smartSocketConnect ctx st s client service).2 := by
  obtain ⟨a, b, ha, hb, hakind, hbkind, hback, hpeer, hactiveClient, hactive, hne⟩ :=
    hserves.cells h
  unfold smartSocketConnect
  split
  · exact kept_replyFail h hserves _
  · rename_i t₀ ht₀
    split
    · exact kept_replyFail h hserves _
    · have hclient : (st.modify client fun a => { a with
          kind := .localNotify, peer := none, transport := some t₀ }).heap client =
            some { a with kind := .localNotify, peer := none, transport := some t₀ } := by
        simp [Sockets.modify, ha]
      dsimp only
      rw [connectToRemote_modify hclient rfl hne]
      have hdetach : Effect false (fun p => p = s ∨ p = client) (fun _ => True) st
          ((st.modify client fun a => { a with
            kind := .localNotify, peer := none, transport := some t₀ }).modify s fun a =>
              { a with peer := none }) := by
        refine effect_detach h hserves (.inl rfl) (.inr rfl) fun c hc =>
          ⟨rfl, rfl, rfl, rfl, rfl, rfl, ?_⟩
        rintro t' ⟨⟩
        refine ⟨a, ha, by simp [hakind, SocketKind.isListed], .inr ⟨s, b, hback, hb, ?_⟩⟩
        simpa [hb] using ht₀
      have hdetached := @kept_silent t _ _ _ _ h hdetach
        (fun p hp => indoors_of_serves hserves h hp) rfl
      generalize hst₁ : (st.modify client fun a => { a with
        kind := .localNotify, peer := none, transport := some t₀ }).modify s (fun a =>
          { a with peer := none }) = st₁ at hdetached
      have hclient₁ : st₁.heap client =
          some { a with kind := .localNotify, peer := none, transport := some t₀ } := by
        rw [← hst₁]
        simp [Sockets.modify, ha, hne]
      have hsmart₁ : st₁.heap s = some { b with peer := none } := by
        rw [← hst₁]
        simp [Sockets.modify, hb, hne.symm]
      have hasked : Kept t st₁ (connectToRemote ctx st₁ client service) := by
        refine kept_connectToRemote hdetached.after (fun c t' hc ht' => ?_) service
        obtain rfl := Option.some.inj (hclient₁.symm.trans hc)
        exact ⟨_, hclient₁, rfl, hactiveClient, rfl, rfl, ht'⟩
      refine (hdetached.trans hasked).trans (kept_asocketClose (a := { b with peer := none })
        hasked.after ?_)
      rw [connectToRemote_heap, hsmart₁]

theorem hostServiceToSocket_trace {name : Bytes} {s2 : SocketRef} {st' : Sockets}
    (h : hostServiceToSocket st name = some (s2, st')) : st'.trace = st.trace := by
  rcases @hostServiceToSocket_cases st name with hc | hc | hc
  · rw [hc] at h
    obtain ⟨rfl, rfl⟩ := Prod.mk.inj (Option.some.inj h)
    rfl
  · rw [hc] at h
    obtain ⟨rfl, rfl⟩ := Prod.mk.inj (Option.some.inj h)
    rfl
  · simp [hc] at h

theorem kept_smartSocketHostService (h : WellFormed st) (hserves : Serves st s client)
    (request : HostService) : Kept t st (smartSocketHostService ctx st s client request).2 := by
  have hhandled : Handled false (fun p => p = s ∨ p = client) (fun _ => True) st
      (handleHostRequest ctx st s client request).2 :=
    handled_handleHostRequest h hserves (fun _ _ _ _ => trivial) (.inl rfl) (.inr rfl) request
  have hkept := @kept_handleHostRequest t st ctx s client h hserves request
  have hserves' := hserves.of_handled hhandled
  unfold smartSocketHostService
  dsimp only
  generalize handleHostRequest ctx st s client request = out at hserves' hkept ⊢
  obtain ⟨ret, st₁⟩ := out
  dsimp only at hserves' hkept ⊢
  have hwf := hkept.after
  refine hkept.trans ?_
  split
  · exact kept_smartSocketFail hwf hserves'
  split
  · obtain ⟨a, b, ha, hb, hakind, hbkind, -⟩ := hserves'.cells hwf
    refine kept_local hwf hb rfl rfl rfl rfl rfl ?_ (hwf.socket s b hb).fde
    intro hlocal
    simp [hbkind, SocketKind.isLocal] at hlocal
  · split
    · exact kept_replyFail hwf hserves' _
    · rename_i s2 st₂ hs2
      let T : SocketRef → Prop := fun p => p = s ∨ p = client ∨ p = st₁.nextRef
      obtain ⟨hcreated, d, hd⟩ : Effect false T (fun _ => True) st₁ st₂ ∧
          ∃ d, HostSocket st₁ st₂ s2 d := hostServiceToSocket_spec hs2 (.inr (.inr rfl))
      obtain ⟨hsne, hcne, hserves₂⟩ := hostSocket_serves hwf hserves' hd
      have hwf₂ := hcreated.wellFormed hwf
      have hreplied : Effect false T (fun _ => True) st₂ (st₂.reply client .okay) :=
        effect_reply (.inr (.inl rfl)) (active_peer hwf₂ hserves₂.peer) _
      have hwf₃ := hreplied.wellFormed hwf₂
      have hserves₃ : Serves (st₂.reply client .okay) s client := ⟨hserves₂.smart, hserves₂.peer⟩
      have hhand : Effect false T (fun _ => True) (st₂.reply client .okay)
          (handOff (st₂.reply client .okay) s client s2) :=
        effect_handOff hwf₃ hserves₃ (.inl rfl) (.inr (.inl rfl)) hd.cell (.inr (.inr hd.ref))
          hd.new hd.kind hd.transport ⟨hsne, hcne⟩
      have hgiven : Kept t st₁ (handOff (st₂.reply client .okay) s client s2) := by
        refine kept_effect hwf ((hcreated.trans hreplied).trans hhand) ?_ ?_
        · rintro p (hp | hp | hp)
          · exact indoors_of_serves hserves' hwf (.inl hp)
          · exact indoors_of_serves hserves' hwf (.inr hp)
          · exact .inl (Nat.le_of_eq hp.symm)
        · refine (Emits.refl (hostServiceToSocket_trace hs2)).trans ?_
          exact .single (e := .replied client .okay) rfl (by intro p hp; cases hp)
      obtain ⟨a, b, -, -, hcell, -⟩ := handOff_heap hwf₃ hserves₃ hd.cell ⟨hsne, hcne⟩
      have hclosed : Kept t (handOff (st₂.reply client .okay) s client s2)
          (asocketClose (handOff (st₂.reply client .okay) s client s2) s) :=
        kept_asocketClose hgiven.after hcell
      exact (hgiven.trans hclosed).trans (kept_asocketReady ctx hclosed.after s2)

theorem kept_smartSocketDispatch (h : WellFormed st) (hserves : Serves st s client)
    (service : Bytes) : Kept t st (smartSocketDispatch ctx st s service).2 := by
  unfold smartSocketDispatch
  simp only [hserves.peer]
  split
  · split
    · exact kept_smartSocketHostService h hserves _
    · exact kept_smartSocketConnect h hserves service
  · split
    · exact kept_replyFail h hserves _
    · rename_i t' _ _
      obtain ⟨hset, hserves'⟩ := @kept_setTransport t st s client h hserves t'
      exact hset.trans (kept_smartSocketConnect hset.after hserves' service)
    · exact kept_smartSocketConnect h hserves service

theorem kept_smartSocketRequest (h : WellFormed st) (hserves : Serves st s client)
    (packet : Bytes) : Kept t st (smartSocketRequest ctx st s packet).2 := by
  unfold smartSocketRequest
  split
  · exact .refl h
  · dsimp only
    split
    · exact kept_smartSocketFail h hserves
    · split
      · exact .refl h
      · exact kept_smartSocketDispatch h hserves _

theorem kept_smartSocketEnqueue (h : WellFormed st) (hserves : Serves st s client)
    (data : Bytes) : Kept t st (smartSocketEnqueue ctx st s data).2 := by
  obtain ⟨a, b, ha, hb, hakind, hbkind, hback, hpeer, -⟩ := hserves.cells h
  have hrequest : ∀ pkts packet, Kept t st
      (smartSocketRequest ctx (st.modify s fun a => { a with pkts := pkts }) s packet).2 := by
    intro pkts packet
    have hstored : Kept t st (st.modify s fun a => { a with pkts := pkts }) := by
      refine kept_local h hb rfl rfl rfl rfl rfl ?_ (h.socket s b hb).fde
      intro hlocal
      simp [hbkind, SocketKind.isLocal] at hlocal
    have hcell : (st.modify s fun a => { a with pkts := pkts }).heap s =
        some { b with pkts := pkts } := by simp [Sockets.modify, hb]
    exact hstored.trans (kept_smartSocketRequest hstored.after
      ⟨kindOf_eq hcell hbkind, peerOf_eq_some.mpr ⟨_, hcell, hpeer⟩⟩ packet)
  unfold smartSocketEnqueue
  simp only [hb]
  split
  · exact hrequest _ _
  · split
    · exact kept_smartSocketFail h hserves
    · exact hrequest _ _

theorem kept_peerEnqueue {q : SocketRef} (h : WellFormed st) (hq : st.peerOf s = some q)
    (hs : st.kindOf s ≠ some .remote) (data : Bytes) : Kept t st (peerEnqueue ctx st q data).2 := by
  have hunjoined : Unjoined t st q := unjoined_peer h hq hs
  unfold peerEnqueue
  split
  · rename_i hsmart
    have hcalled : Kept t st (st.record (.enqueueCalled q data)) :=
      kept_record (e := .enqueueCalled q data) h hunjoined
    exact hcalled.trans (kept_smartSocketEnqueue hcalled.after ⟨hsmart, h.peerOf_symm hq⟩ data)
  · exact kept_asocketEnqueue h hunjoined data

end Smart

section Events

variable {t : TransportRef} {st : Sockets} {s : SocketRef}

theorem kept_closeAtEof (h : WellFormed st) (s : SocketRef) (lastZero isEof : Bool) :
    Kept t st (closeAtEof st s lastZero isEof) := by
  unfold closeAtEof
  split
  · exact kept_halt h _
  · rename_i a ha
    split
    · exact kept_asocketClose h ha
    · exact .refl h

theorem kept_localSocketWriteEvent (ctx : ServiceContext) (h : WellFormed st) (s : SocketRef) :
    Kept t st (localSocketWriteEvent ctx st s).2 := by
  unfold localSocketWriteEvent
  split
  · exact kept_halt h _
  · rename_i a ha
    have hok := h.socket s a ha
    have hwrote : Kept t st (st.afterWrite s (drain st.writeScript a.pkts)) :=
      kept_afterWrite h s _
    have hdrained : Kept t st ((st.afterWrite s (drain st.writeScript a.pkts)).modify s fun b =>
        { b with pkts := (drain st.writeScript a.pkts).rest }) := by
      refine hwrote.trans (kept_local (a := a) hwrote.after ha rfl rfl rfl rfl rfl ?_ hok.fde)
      exact fun hlocal hrest => hok.queue hlocal (drain_nil_rest hrest)
    have hcell : ((st.afterWrite s (drain st.writeScript a.pkts)).modify s fun b =>
        { b with pkts := (drain st.writeScript a.pkts).rest }).heap s =
          some { a with pkts := (drain st.writeScript a.pkts).rest } := by
      simp [Sockets.modify, Sockets.afterWrite, ha]
    dsimp only
    generalize (st.afterWrite s (drain st.writeScript a.pkts)).modify s (fun b =>
      { b with pkts := (drain st.writeScript a.pkts).rest }) = st₁ at hdrained hcell
    refine hdrained.trans ?_
    have hwf := hdrained.after
    split
    · exact .refl hwf
    · exact kept_writeFailed hwf hcell
    · rename_i hdone
      split
      · exact kept_asocketClose hwf hcell
      · have hquiet : Kept t st₁
            (st₁.modify s fun a => { a with fde := fdeventDel a.fde .fdeWrite }) := by
          refine kept_local hwf hcell rfl rfl rfl rfl rfl ?_ (hok.fde.fdeventDel _)
          exact fun _ hrest => absurd (drain_rest_of_done hdone) hrest
        split
        · exact hquiet.trans (kept_halt hquiet.after _)
        · exact hquiet.trans (kept_asocketReady ctx hquiet.after _)

theorem kept_localSocketReadEvent (ctx : ServiceContext) (h : WellFormed st)
    (hs : st.kindOf s ≠ some .remote) : Kept t st (localSocketReadEvent ctx st s) := by
  have hread : ∀ out, Kept t st (st.afterRead s out) := fun _ =>
    .of_heap h rfl rfl rfl ⟨rfl, rfl⟩ (.single rfl trivial)
  unfold localSocketReadEvent
  split
  · exact kept_halt h _
  · rename_i a ha
    dsimp only
    generalize readLoop true st.readScript (getMaxPayload ctx.limit st s) = out
    split
    · exact (hread out).trans (kept_closeAtEof (hread out).after s _ _)
    · rename_i q hpeer
      split
      · exact (hread out).trans (kept_closeAtEof (hread out).after s _ _)
      · have hhanded : Kept t st ((st.afterRead s out).record (.handedOver s out.bytes)) :=
          (hread out).trans (kept_record (hread out).after trivial)
        have hq : ((st.afterRead s out).record (.handedOver s out.bytes)).peerOf s = some q :=
          peerOf_eq_some.mpr ⟨a, ha, hpeer⟩
        have henqueued := hhanded.trans
          (@kept_peerEnqueue t _ ctx s q hhanded.after hq hs out.bytes)
        generalize peerEnqueue ctx ((st.afterRead s out).record (.handedOver s out.bytes)) q
          out.bytes = result at henqueued
        obtain ⟨r, st₁⟩ := result
        have hwf := henqueued.after
        dsimp only at henqueued hwf ⊢
        refine henqueued.trans ?_
        split
        · exact .refl hwf
        split
        · split
          · exact kept_halt hwf _
          · rename_i a' ha'
            have hok := hwf.socket s a' ha'
            have hpaused : Kept t st₁
                (st₁.modify s fun a => { a with fde := fdeventDel a.fde .fdeRead }) := by
              refine kept_local hwf ha' rfl rfl rfl rfl rfl ?_ (hok.fde.fdeventDel _)
              intro hlocal hpkts
              simpa [EventMask.diff, EventMask.fdeRead, EventMask.empty] using
                hok.queue hlocal hpkts
            exact hpaused.trans (kept_closeAtEof hpaused.after s _ _)
        · exact kept_closeAtEof hwf s _ _

theorem kept_localSocketEventFunc (ctx : ServiceContext) (h : WellFormed st) {a : Asocket}
    (hs : st.heap s = some a) (hlocal : SocketKind.isLocal a.kind = true) (ev : EventMask) :
    Kept t st (localSocketEventFunc ctx st s ev) := by
  have hk : a.kind ≠ .remote := by
    intro hk
    simp [hk, SocketKind.isLocal] at hlocal
  unfold localSocketEventFunc
  cases ev.write with
  | false =>
      simp only [Bool.false_eq_true, if_false, Bool.true_and]
      split
      · refine kept_localSocketReadEvent ctx h ?_
        rw [kindOf_eq hs rfl]
        simpa using hk
      · exact .refl h
  | true =>
      simp only [if_true]
      have hwrite := @kept_localSocketWriteEvent t st ctx h s
      refine hwrite.trans ?_
      split
      · exact kept_localSocketReadEvent ctx hwrite.after (hwrite.not_kind rfl hs hk)
      · exact .refl hwrite.after

theorem kept_dispatchSocket (ctx : ServiceContext) (h : WellFormed st) {a : Asocket}
    (hs : st.heap s = some a) (hlocal : SocketKind.isLocal a.kind = true) :
    Kept t st (dispatchSocket ctx st s) := by
  have hok := h.socket s a hs
  have htaken : Kept t st (st.modify s fun a => { a with fde := fdeventTake a.fde }) :=
    kept_local h hs rfl rfl rfl rfl rfl hok.queue hok.fde.fdeventTake
  unfold dispatchSocket
  simp only [hs]
  refine htaken.trans (kept_localSocketEventFunc (a := { a with fde := fdeventTake a.fde }) ctx
    htaken.after ?_ hlocal _)
  simp [Sockets.modify, hs]

theorem kept_subprocExited (ctx : ServiceContext) (h : WellFormed st) {a : Asocket}
    (hs : st.heap s = some a) (hlocal : SocketKind.isLocal a.kind = true) (unread : Bool) :
    Kept t st (subprocExited ctx st s unread) := by
  have hok := h.socket s a hs
  have hmarked : Kept t st (st.modify s markEof) :=
    kept_local h hs rfl rfl rfl rfl rfl hok.queue ⟨hok.fde.writeWanted, hok.fde.idle⟩
  have hcell : (st.modify s markEof).heap s = some (markEof a) := by simp [Sockets.modify, hs]
  have hfaked : Kept t (st.modify s markEof) ((st.modify s markEof).modify s fun a =>
      { a with fde := { a.fde with events := a.fde.events.union .fdeRead, pending := true } }) := by
    refine kept_local hmarked.after hcell rfl rfl rfl rfl rfl hok.queue ⟨fun hw => ?_, by simp⟩
    refine hok.fde.writeWanted ?_
    simpa [markEof, EventMask.union, EventMask.fdeRead, EventMask.empty] using hw
  unfold subprocExited
  simp only [hs]
  split
  · exact hmarked
  · split
    · exact hmarked.trans hfaked
    · refine (hmarked.trans hfaked).trans (kept_dispatchSocket (a := { markEof a with
        fde := { (markEof a).fde with
          events := (markEof a).fde.events.union .fdeRead, pending := true } }) ctx hfaked.after
        ?_ hlocal)
      simp [Sockets.modify, hs]

end Events

end Adb.StreamLinks
