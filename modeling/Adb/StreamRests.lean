import Adb.StreamPacing

/-!
What leaves the ends of streams alone: the queue of a socket whose stream runs over
a transport, and whether it reads its descriptor.
-/

namespace Adb.StreamRests

open Adb.WirePackets
open Adb.SocketTable
open Adb.SocketOperations
open Adb.SocketClosing
open Adb.SocketGraph
open Adb.SocketEffects
open Adb.GraphInvariants
open Adb.StreamLinks

/-- Every socket on the list has a descriptor, and one with packets in its queue has a
peer that handed them to it; the peer of a socket that is being connected has not. -/
structure Tidy (st : Sockets) : Prop where
  smart : ∀ s a, st.heap s = some a → a.kind = .smart → a.id = 0
  fed : ∀ s a, st.heap s = some a → SocketKind.isLocal a.kind = true → a.closing = false →
    a.pkts ≠ [] → Fed st s
  plain : ∀ s a, st.heap s = some a → a.kind ≠ .jdwp ∧ a.kind ≠ .jdwpTracker

/-- A socket whose stream runs over a transport, or that is over. -/
def Bound (st : Sockets) (s : SocketRef) : Prop := Attached st s ∨ Over st s

/-- An event that neither uses the descriptor of a bound socket nor sends a `WRTE`. -/
def Apart (st : Sockets) : Event → Prop
  | .sent _ p => p.command ≠ .aWrte
  | .fdRead s _ | .fdWrote s _ => s < st.nextRef → ¬ Bound st s
  | _ => True

/-- The bound sockets keep their queues, and stay as they are unless they are closed. -/
structure Still (st st' : Sockets) : Prop where
  before : WellFormed st
  after : WellFormed st'
  next : st.nextRef ≤ st'.nextRef
  tidy : Tidy st → Tidy st'
  bound : ∀ s, s < st.nextRef → Bound st s → Bound st' s
  cells : ∀ s a', s < st.nextRef → Bound st s → st'.heap s = some a' →
    ∃ a, st.heap s = some a ∧ a'.pkts = a.pkts ∧ (a'.closing = false → a' = a)
  emits : Emits (Apart st) st st'

section Tables

variable {st st' : Sockets} {s : SocketRef} {a : Asocket}

theorem tidy_initial : Tidy .initial where
  smart s a hs := by cases hs
  fed s a hs := by cases hs
  plain s a hs := by cases hs

theorem kind_of_sameKind {k k' : SocketKind} (h : SameKind k k')
    (hk : SocketKind.isLocal k' = false) : k = k' := by
  rcases h with rfl | ⟨-, hlocal⟩
  · rfl
  · simp [hk] at hlocal

theorem local_of_sameKind {k k' : SocketKind} (h : SameKind k k')
    (hk : SocketKind.isLocal k' = true) : SocketKind.isLocal k = true := by
  rcases h with rfl | ⟨hlocal, -⟩
  · exact hk
  · exact hlocal

/-- The cell of a socket that was there before, or is new. -/
def Descends (st : Sockets) (p : SocketRef) (b' : Asocket) : Prop :=
  (∃ b, st.heap p = some b ∧ SameKind b.kind b'.kind ∧ (b'.kind = .smart → b'.id = b.id) ∧
      (SocketKind.isLocal b'.kind = true → b'.closing = false → b'.pkts ≠ [] →
        b.closing = false ∧ (b.pkts ≠ [] ∨ Fed st p))) ∨
    (b'.pkts = [] ∧ (b'.kind = .smart → b'.id = 0) ∧ b'.kind ≠ .jdwp ∧ b'.kind ≠ .jdwpTracker)

theorem descends_same {p : SocketRef} {b : Asocket} (hb : st.heap p = some b) :
    Descends st p b := .inl ⟨b, hb, .inl rfl, fun _ => rfl, fun _ hc hp => ⟨hc, .inl hp⟩⟩

theorem Tidy.later (h : Tidy st) (hcells : ∀ p b', st'.heap p = some b' → Descends st p b')
    (hfed : ∀ p b', st'.heap p = some b' → SocketKind.isLocal b'.kind = true →
      b'.closing = false → b'.pkts ≠ [] → Fed st p → Fed st' p) : Tidy st' where
  smart p b' hb' hk := by
    rcases hcells p b' hb' with ⟨b, hb, hkind, hid, -⟩ | ⟨-, hid, -⟩
    · refine (hid hk).trans (h.smart p b hb ?_)
      rw [kind_of_sameKind hkind (by simp [hk, SocketKind.isLocal]), hk]
    · exact hid hk
  fed p b' hb' hlocal hclosing hpkts := by
    refine hfed p b' hb' hlocal hclosing hpkts ?_
    rcases hcells p b' hb' with ⟨b, hb, hkind, -, hold⟩ | ⟨hnone, -⟩
    · obtain ⟨hactive, hqueue | hfed⟩ := hold hlocal hclosing hpkts
      · exact h.fed p b hb (local_of_sameKind hkind hlocal) hactive hqueue
      · exact hfed
    · exact absurd hnone hpkts
  plain p b' hb' := by
    rcases hcells p b' hb' with ⟨b, hb, hkind, -⟩ | ⟨-, -, hplain⟩
    · rcases hkind with hsame | ⟨-, hlocal⟩
      · rw [hsame]
        exact h.plain p b hb
      · constructor
        all_goals
          intro hk
          simp [hk, SocketKind.isLocal] at hlocal
    · exact hplain

theorem Tidy.of_heap (h : Tidy st) (hheap : st'.heap = st.heap) : Tidy st' := by
  refine h.later (fun p b hb => descends_same (hheap ▸ hb)) fun p _ _ _ _ _ hfed => ?_
  rwa [Fed, Sockets.peerOf, hheap]

theorem fed_modify {f : Asocket → Asocket} (hs : st.heap s = some a) (hf : Respects a (f a))
    {p : SocketRef} (h : Fed st p) : Fed (st.modify s f) p := by
  obtain ⟨q, b, hq, hb, hspeaks⟩ := h
  have hpeer : (st.modify s f).peerOf p = some q := by
    by_cases hp : p = s
    · subst hp
      simpa [Sockets.peerOf, Sockets.modify, hs, hf.peer] using hq
    · simpa [Sockets.peerOf, Sockets.modify, hp] using hq
  by_cases hqs : q = s
  · subst hqs
    obtain rfl := Option.some.inj (hs.symm.trans hb)
    refine ⟨q, f a, hpeer, by simp [Sockets.modify, hs], ?_⟩
    rw [hf.id]
    refine hspeaks.imp_left fun hk hk' => hk ?_
    rw [kind_of_sameKind hf.kind (by simp [hk', SocketKind.isLocal]), hk']
  · exact ⟨q, b, hpeer, by simpa [Sockets.modify, hqs] using hb, hspeaks⟩

theorem tidy_modify {f : Asocket → Asocket} (h : Tidy st) (hs : st.heap s = some a)
    (hf : Respects a (f a))
    (hpkts : SocketKind.isLocal a.kind = true → (f a).pkts ≠ [] → a.pkts ≠ [] ∨ Fed st s) :
    Tidy (st.modify s f) := by
  refine h.later (fun p b' hb' => ?_) fun p _ _ _ _ _ => fed_modify hs hf
  by_cases hp : p = s
  · subst hp
    obtain rfl : f a = b' := by simpa [Sockets.modify, hs] using hb'
    exact .inl ⟨a, hs, hf.kind, fun _ => hf.id,
      fun hlocal hclosing hqueue => ⟨hf.closing.symm.trans hclosing,
        hpkts (local_of_sameKind hf.kind hlocal) hqueue⟩⟩
  · exact descends_same (by simpa [Sockets.modify, hp] using hb')

/-- What closing a socket leaves of each socket. -/
theorem close_cases (h : WellFormed st) (hs : st.heap s = some a) (p : SocketRef) :
    (p ∈ withPeer st s ∧ ∀ b', (asocketClose st s).heap p = some b' → ∃ b, st.heap p = some b ∧
        SocketKind.isLocal b.kind = true ∧ b'.kind = .localSocket ∧ b'.closing = true ∧
        b'.pkts = b.pkts) ∨
      (p ∉ withPeer st s ∧ (asocketClose st s).heap p = st.heap p) := by
  have hclosed := h.asocketClose_closed hs
  by_cases hp : p ∈ withPeer st s
  · refine .inl ⟨hp, fun b' hb' => ?_⟩
    rw [hclosed.heap, if_pos hp] at hb'
    obtain ⟨b, hb, hremains⟩ := Option.bind_eq_some_iff.mp hb'
    obtain ⟨hlocal, -, -, -, rfl⟩ := remains_eq_some hremains
    exact ⟨b, hb, hlocal, rfl, rfl, rfl⟩
  · exact .inr ⟨hp, by rw [hclosed.heap, if_neg hp]⟩

theorem tidy_asocketClose (h : Tidy st) (hwf : WellFormed st) (hs : st.heap s = some a) :
    Tidy (asocketClose st s) := by
  refine h.later (fun p b' hb' => ?_) fun p b' hb' _ hclosing _ hfed => ?_
  · rcases close_cases hwf hs p with ⟨-, hgone⟩ | ⟨-, hsame⟩
    · obtain ⟨b, hb, hlocal, hk, hclosing, -⟩ := hgone b' hb'
      refine .inl ⟨b, hb, .inr ⟨hlocal, by simp [hk, SocketKind.isLocal]⟩, ?_, ?_⟩
      · simp [hk]
      · simp [hclosing]
    · exact descends_same (hsame ▸ hb')
  · rcases close_cases hwf hs p with ⟨-, hgone⟩ | ⟨hp, hsame⟩
    · obtain ⟨-, -, -, -, hover, -⟩ := hgone b' hb'
      simp [hclosing] at hover
    · obtain ⟨q, b, hq, hb, hspeaks⟩ := hfed
      obtain ⟨c, hc, hpeer⟩ := peerOf_eq_some.mp hq
      have hq' : q ∉ withPeer st s := fun hmem =>
        hp ((hwf.withPeer_linked s p c q hc hpeer).mpr hmem)
      rcases close_cases hwf hs q with ⟨hmem, -⟩ | ⟨-, hsame'⟩
      · exact absurd hmem hq'
      · exact ⟨q, b, by rwa [Sockets.peerOf, hsame], hsame'.trans hb, hspeaks⟩

end Tables

section Steps

variable {st st' : Sockets} {s : SocketRef} {a : Asocket}

theorem over_of_heap {p : SocketRef} (hheap : st'.heap p = st.heap p) (h : Over st p) :
    Over st' p := fun b hb => h b (hheap ▸ hb)

/-- The bound sockets and the remote ones are left alone. -/
theorem Still.of_same (h : WellFormed st) (h' : WellFormed st') (hnext : st.nextRef ≤ st'.nextRef)
    (htidy : Tidy st → Tidy st')
    (hsame : ∀ p, p < st.nextRef → Bound st p → st'.heap p = st.heap p)
    (hremote : ∀ q, st.kindOf q = some .remote → st'.heap q = st.heap q)
    (hemits : Emits (Apart st) st st') : Still st st' where
  before := h
  after := h'
  next := hnext
  tidy := htidy
  bound p hp hbound := by
    have hcell := hsame p hp hbound
    rcases hbound with ⟨q, hq, hk⟩ | hover
    · refine .inl ⟨q, by rwa [Sockets.peerOf, hcell], ?_⟩
      rw [Sockets.kindOf, hremote q hk]
      exact hk
    · exact .inr (over_of_heap hcell hover)
  cells p a' hp hbound ha' := ⟨a', hsame p hp hbound ▸ ha', rfl, fun _ => rfl⟩
  emits := hemits

theorem Still.of_heap (h : WellFormed st) (hheap : st'.heap = st.heap)
    (hlist : st'.localSocketList = st.localSocketList)
    (hclosing : st'.localSocketClosingList = st.localSocketClosingList)
    (hcounters : SameCounters st st') (hemits : Emits (Apart st) st st') : Still st st' :=
  .of_same h (h.congr hheap hlist hclosing hcounters) (Nat.le_of_eq hcounters.nextRef.symm)
    (fun htidy => htidy.of_heap hheap) (fun p _ _ => congrFun hheap p)
    (fun q _ => congrFun hheap q) hemits

theorem Still.refl (h : WellFormed st) : Still st st :=
  .of_heap h rfl rfl rfl ⟨rfl, rfl⟩ (.refl rfl)

theorem Still.trans {st₁ st₂ st₃ : Sockets} (h₁ : Still st₁ st₂) (h₂ : Still st₂ st₃) :
    Still st₁ st₃ where
  before := h₁.before
  after := h₂.after
  next := Nat.le_trans h₁.next h₂.next
  tidy htidy := h₂.tidy (h₁.tidy htidy)
  bound s hs hbound := h₂.bound s (Nat.lt_of_lt_of_le hs h₁.next) (h₁.bound s hs hbound)
  cells s c hs hbound hc := by
    obtain ⟨b, hb, hpkts, hsame⟩ :=
      h₂.cells s c (Nat.lt_of_lt_of_le hs h₁.next) (h₁.bound s hs hbound) hc
    obtain ⟨a, ha, hpkts', hsame'⟩ := h₁.cells s b hs hbound hb
    refine ⟨a, ha, hpkts.trans hpkts', fun hactive => ?_⟩
    obtain rfl := hsame hactive
    exact hsame' hactive
  emits := by
    refine h₁.emits.trans (h₂.emits.mono fun e he => ?_)
    cases e with
    | sent => exact he
    | fdRead s | fdWrote s =>
        exact fun hs hbound => he (Nat.lt_of_lt_of_le hs h₁.next) (h₁.bound s hs hbound)
    | _ => trivial

theorem still_record (h : WellFormed st) {e : Event} (he : Apart st e) : Still st (st.record e) :=
  .of_heap h rfl rfl rfl ⟨rfl, rfl⟩ (.single rfl he)

theorem still_halt (h : WellFormed st) (reason : Halt) : Still st (st.halt reason) :=
  .of_heap h rfl rfl rfl ⟨rfl, rfl⟩ (.refl rfl)

theorem still_sendPacket (h : WellFormed st) (t : TransportRef) {p : Apacket}
    (hp : p.command ≠ .aWrte) : Still st (st.sendPacket t p) :=
  .of_heap h rfl rfl rfl ⟨rfl, rfl⟩ (.single rfl hp)

theorem still_asocketClose (h : WellFormed st) (hs : st.heap s = some a) :
    Still st (asocketClose st s) where
  before := h
  after := h.asocketClose hs
  next := Nat.le_of_eq (h.asocketClose_closed hs).counters.nextRef.symm
  tidy htidy := tidy_asocketClose htidy h hs
  bound p _ hbound := by
    rcases close_cases h hs p with ⟨-, hgone⟩ | ⟨hp, hsame⟩
    · refine .inr fun b' hb' => ?_
      obtain ⟨-, -, -, -, hclosing, -⟩ := hgone b' hb'
      exact hclosing
    · rcases hbound with ⟨q, hq, hk⟩ | hover
      · obtain ⟨c, hc, hpeer⟩ := peerOf_eq_some.mp hq
        have hq' : q ∉ withPeer st s := fun hmem =>
          hp ((h.withPeer_linked s p c q hc hpeer).mpr hmem)
        rcases close_cases h hs q with ⟨hmem, -⟩ | ⟨-, hsame'⟩
        · exact absurd hmem hq'
        · exact .inl ⟨q, by rwa [Sockets.peerOf, hsame], by rwa [Sockets.kindOf, hsame']⟩
      · exact .inr (over_of_heap hsame hover)
  cells p b' _ _ hb' := by
    rcases close_cases h hs p with ⟨-, hgone⟩ | ⟨-, hsame⟩
    · obtain ⟨b, hb, -, -, hclosing, hpkts⟩ := hgone b' hb'
      exact ⟨b, hb, hpkts, fun hactive => by simp [hclosing] at hactive⟩
    · exact ⟨b', hsame ▸ hb', rfl, fun _ => rfl⟩
  emits := by
    refine (h.asocketClose_closed hs).emits.mono fun e he => ?_
    cases e with
    | sent t p =>
        have hclse : p.command = .aClse := he
        simp [Apart, hclse]
    | fdRead | fdWrote => exact he.elim
    | _ => trivial

theorem not_bound (hs : st.heap s = some a) (hactive : a.closing = false)
    (hnot : ¬ Attached st s) : ¬ Bound st s := by
  rintro (hattached | hover)
  · exact hnot hattached
  · simp [hover a hs] at hactive

/-- A socket in use that is not bound changes. -/
theorem still_modify {f : Asocket → Asocket} (h : WellFormed st) (hs : st.heap s = some a)
    (hf : Respects a (f a)) (hbound : ¬ Bound st s) (hkind : a.kind ≠ .remote)
    (hpkts : SocketKind.isLocal a.kind = true → (f a).pkts ≠ [] → a.pkts ≠ [] ∨ Fed st s) :
    Still st (st.modify s f) := by
  refine .of_same h (h.modify hs hf) (Nat.le_refl _)
    (fun htidy => tidy_modify htidy hs hf hpkts) (fun p _ hp => ?_) (fun q hq => ?_)
    (.refl rfl)
  · have hps : p ≠ s := by
      rintro rfl
      exact hbound hp
    simp [Sockets.modify, hps]
  · have hqs : q ≠ s := by
      rintro rfl
      exact hkind (by simpa [Sockets.kindOf, hs] using hq)
    simp [Sockets.modify, hqs]

/-- There is a new socket. -/
theorem still_new {b : Asocket} (h : WellFormed st) (h' : WellFormed st')
    (hnext : st.nextRef ≤ st'.nextRef) (hheap : ∀ p, p ≠ st.nextRef → st'.heap p = st.heap p)
    (hcell : st'.heap st.nextRef = some b) (hpkts : b.pkts = [])
    (hsmart : b.kind = .smart → b.id = 0) (hplain : b.kind ≠ .jdwp ∧ b.kind ≠ .jdwpTracker)
    (htrace : st'.trace = st.trace) : Still st st' := by
  have hold : ∀ {p c}, st.heap p = some c → st'.heap p = some c := fun hc =>
    (hheap _ (h.ne_nextRef hc)).trans hc
  refine .of_same h h' hnext (fun htidy => htidy.later (fun p c hc => ?_)
    fun p c hc _ _ hqueue hfed => ?_) (fun p hp _ => hheap p (Nat.ne_of_lt hp))
    (fun q hq => ?_) (.refl htrace)
  · by_cases hp : p = st.nextRef
    · subst hp
      obtain rfl := Option.some.inj (hcell.symm.trans hc)
      exact .inr ⟨hpkts, hsmart, hplain⟩
    · exact descends_same (hheap p hp ▸ hc)
  · obtain ⟨q, d, hq, hd, hspeaks⟩ := hfed
    obtain ⟨c₀, hc₀, hpeer⟩ := peerOf_eq_some.mp hq
    exact ⟨q, d, peerOf_eq_some.mpr ⟨c₀, hold hc₀, hpeer⟩, hold hd, hspeaks⟩
  · exact hheap q (Nat.ne_of_lt (fresh_of_kindOf h hq).1)

theorem still_link {f g : Asocket → Asocket} {q : SocketRef} {b : Asocket}
    {R : TransportRef → Prop} (h : WellFormed st) (hs : st.heap s = some a)
    (hq : st.heap q = some b) (hlink : Link false R st s q a b (f a) (g b)) :
    Still st ((st.modify s f).modify q g) := by
  obtain ⟨hleft, hright, -, -⟩ := hlink.remote.resolve_left (by simp)
  have hlinked : Effect false (fun _ => True) R st ((st.modify s f).modify q g) :=
    .link hs hq ⟨trivial, trivial⟩ hlink
  have hcell : ((st.modify s f).modify q g).heap s = some (f a) := by
    simp [Sockets.modify, hlink.ne, hs]
  have hcell' : ((st.modify s f).modify q g).heap q = some (g b) := by
    simp [Sockets.modify, hlink.ne.symm, hq]
  have hother : ∀ {p}, p ≠ s → p ≠ q → ((st.modify s f).modify q g).heap p = st.heap p :=
    fun hps hpq => by simp [Sockets.modify, hps, hpq]
  have hnotLeft : ¬ Attached st s := by
    rintro ⟨r, hr, hk⟩
    obtain rfl := hlink.peerLeft r (by simpa [Sockets.peerOf, hs] using hr)
    exact hright (by simpa [Sockets.kindOf, hq] using hk)
  have hnotRight : ¬ Attached st q := by
    rintro ⟨r, hr, hk⟩
    obtain rfl := hlink.peerRight r (by simpa [Sockets.peerOf, hq] using hr)
    exact hleft (by simpa [Sockets.kindOf, hs] using hk)
  refine .of_same h (hlinked.wellFormed h) (Nat.le_refl _) (fun htidy => ?_) (fun p _ hp => ?_)
    (fun r hr => ?_) (.refl rfl)
  · have hunfedLeft : SocketKind.isLocal a.kind = true → ¬ Fed st s := by
      rintro hlocal ⟨r, c, hr, hc, hspeaks⟩
      have hpeer : a.peer = some r := by simpa [Sockets.peerOf, hs] using hr
      obtain rfl := hlink.peerLeft r hpeer
      obtain rfl := Option.some.inj (hq.symm.trans hc)
      have hsmart := (hlink.unfedLeft hlocal).1.resolve_left (by simp [hpeer])
      exact hspeaks.elim (fun hk => hk hsmart) fun hid => hid (htidy.smart r b hq hsmart)
    have hunfedRight : SocketKind.isLocal b.kind = true → ¬ Fed st q := by
      rintro hlocal ⟨r, c, hr, hc, hspeaks⟩
      have hpeer : b.peer = some r := by simpa [Sockets.peerOf, hq] using hr
      obtain rfl := hlink.peerRight r hpeer
      obtain rfl := Option.some.inj (hs.symm.trans hc)
      have hsmart := (hlink.unfedRight hlocal).1.resolve_left (by simp [hpeer])
      exact hspeaks.elim (fun hk => hk hsmart) fun hid => hid (htidy.smart r a hs hsmart)
    refine htidy.later (fun p c hc => ?_) fun p c hc hlocal hclosing hqueue hfed => ?_
    · by_cases hps : p = s
      · subst hps
        obtain rfl := Option.some.inj (hcell.symm.trans hc)
        refine .inl ⟨a, hs, hlink.kindLeft, fun _ => hlink.id.1, fun hlocal _ hqueue => ?_⟩
        have hsame := (hlink.unfedLeft (local_of_sameKind hlink.kindLeft hlocal)).2
        exact ⟨hlink.closingLeft.1, .inl (hsame ▸ hqueue)⟩
      · by_cases hpq : p = q
        · subst hpq
          obtain rfl := Option.some.inj (hcell'.symm.trans hc)
          refine .inl ⟨b, hq, hlink.kindRight, fun _ => hlink.id.2, fun hlocal _ hqueue => ?_⟩
          have hsame := (hlink.unfedRight (local_of_sameKind hlink.kindRight hlocal)).2
          exact ⟨hlink.closingRight.1, .inl (hsame ▸ hqueue)⟩
        · exact descends_same (hother hps hpq ▸ hc)
    · by_cases hps : p = s
      · subst hps
        obtain rfl := Option.some.inj (hcell.symm.trans hc)
        exact absurd hfed (hunfedLeft (local_of_sameKind hlink.kindLeft hlocal))
      · by_cases hpq : p = q
        · subst hpq
          obtain rfl := Option.some.inj (hcell'.symm.trans hc)
          exact absurd hfed (hunfedRight (local_of_sameKind hlink.kindRight hlocal))
        · obtain ⟨r, d, hr, hd, hspeaks⟩ := hfed
          obtain ⟨d', hd', hback⟩ := peerOf_eq_some.mp (h.peerOf_symm hr)
          have hrs : r ≠ s := by
            rintro rfl
            obtain rfl := Option.some.inj (hs.symm.trans hd')
            exact hpq (hlink.peerLeft p hback)
          have hrq : r ≠ q := by
            rintro rfl
            obtain rfl := Option.some.inj (hq.symm.trans hd')
            exact hps (hlink.peerRight p hback)
          exact ⟨r, d, by rwa [Sockets.peerOf, hother hps hpq], (hother hrs hrq).trans hd, hspeaks⟩
  · refine hother ?_ ?_
    · rintro rfl
      exact not_bound hs hlink.closingLeft.1 hnotLeft hp
    · rintro rfl
      exact not_bound hq hlink.closingRight.1 hnotRight hp
  · refine hother ?_ ?_
    · rintro rfl
      exact hleft (by simpa [Sockets.kindOf, hs] using hr)
    · rintro rfl
      exact hright (by simpa [Sockets.kindOf, hq] using hr)

/-- What carries nothing over the streams leaves their ends alone. -/
theorem still_effect {T : SocketRef → Prop} {R : TransportRef → Prop} (h : WellFormed st)
    (heffect : Effect false T R st st') : Still st st' := by
  induction heffect with
  | same hsame =>
      exact .of_heap h hsame.heap hsame.listed hsame.closing hsame.counters (.refl hsame.trace)
  | @note st e hnoted habout =>
      refine still_record h ?_
      cases e with
      | sent => exact hnoted.elim
      | fdRead => exact hnoted.elim
      | fdWrote s =>
          obtain ⟨hsome, hnot⟩ := hnoted
          obtain ⟨a, ha⟩ := Option.isSome_iff_exists.mp hsome
          exact fun _ => not_bound ha ((habout s rfl).2 a ha) (hnot.resolve_left (by simp))
      | _ => trivial
  | send t hp =>
      refine still_sendPacket h t ?_
      rcases hp with hfree | hc | hc
      · cases hfree
      · simp [hc]
      · simp [hc]
  | update hs _ hf =>
      refine still_modify h hs hf.respects
        (not_bound hs hf.active (hf.attached.resolve_left (by simp))) hf.kind
        fun hlocal hqueue => ?_
      rcases hf.queue.resolve_left (by simp) hlocal with hsame | hfed
      · exact .inl (hsame ▸ hqueue)
      · exact .inr hfed
  | close hs _ _ => exact still_asocketClose h hs
  | @allocate st a _ hnew hlisted _ =>
      refine still_new (b := a) h
        (h.allocate hnew.peer hnew.closing hlisted hnew.fde hnew.transport) (Nat.le_succ _)
        (fun p hp => by simp [Sockets.allocate, hp]) (by simp [Sockets.allocate])
        hnew.pkts hnew.smart ?_ rfl
      constructor
      all_goals
        intro hk
        simp [hk, SocketKind.isListed] at hlisted
  | @install st a _ hnew hlisted _ hlocal =>
      have hlocal := hlocal.resolve_left (by simp)
      refine still_new (b := { a with id := st.localSocketNextId }) h
        (h.install hnew.peer hnew.closing hnew.pkts hlisted hnew.fde) (Nat.le_succ _)
        (fun p hp => ?_) ?_ hnew.pkts (fun hk => ?_) ?_ rfl
      · simp [installLocalSocket, Sockets.haltWhen, Sockets.modify, Sockets.allocate, hp]
      · simp [installLocalSocket, Sockets.haltWhen, Sockets.modify, Sockets.allocate]
      · have hk : a.kind = .smart := hk
        simp [hk, SocketKind.isLocal] at hlocal
      · constructor
        all_goals
          intro hk
          have hk : a.kind = _ := hk
          simp [hk, SocketKind.isLocal] at hlocal
  | link hs hq _ hlink => exact still_link h hs hq hlink
  | track _ _ _ => exact .of_heap h rfl rfl rfl ⟨rfl, rfl⟩ (.refl rfl)
  | trans h₁ _ ih₁ ih₂ => exact (ih₁ h).trans (ih₂ (h₁.wellFormed h))

end Steps

end Adb.StreamRests
