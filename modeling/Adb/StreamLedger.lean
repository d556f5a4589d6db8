import Adb.ClosingDrain
import Adb.LinkedEndpoints
import Adb.ReadAccounting
import Adb.StreamRests

/-!
The accounts of the streams of a transport: what is written to the descriptor of a
socket comes out of its queue in order, what is read from it is sent on its stream,
and a socket stops reading only when it sends and empties its queue only when it
answers.
-/

namespace Adb.StreamLedger

open Adb.DescriptorIo
open Adb.WirePackets
open Adb.SocketTable
open Adb.SocketClosing
open Adb.SocketGraph
open Adb.GraphInvariants
open Adb.ClosingDrain (bytesWritten bytesWritten_append)
open Adb.ReadAccounting (bytesRead)
open Adb.StreamSends
open Adb.StreamLinks
open Adb.StreamViews
open Adb.StreamMessages
open Adb.LinkedEndpoints (payloads)
open Adb.StreamRests

/-- The bytes that a socket still has to write. -/
def queued (st : Sockets) (s : SocketRef) : Bytes :=
  (st.heap s).elim [] fun a => a.pkts.flatten

/-- The socket has packets in its queue. -/
def Holds (st : Sockets) (s : SocketRef) : Prop := ∃ a, st.heap s = some a ∧ a.pkts ≠ []

/-- `FDE_READ` is set for the descriptor of the socket. -/
def Reads (st : Sockets) (s : SocketRef) : Prop :=
  ∃ a, st.heap s = some a ∧ a.fde.state.read = true

/-- The bytes that were handed to the socket. -/
def bytesFed (s : SocketRef) (trace : List Event) : Bytes := (trace.flatMap (handed s)).flatten

/-- The bytes that were sent from the stream `i` to the stream `j`. -/
def bytesSent (t : TransportRef) (i j : Nat) (trace : List Event) : Bytes :=
  (payloads i j (sentOn t trace)).flatten

/-- A message from the stream `i` to the stream `j` was sent. -/
def Says (t : TransportRef) (command : Command) (i j : Nat) (trace : List Event) : Prop :=
  ∃ p, .sent t p ∈ trace ∧ p.command = command ∧ p.arg0 = i ∧ p.arg1 = j

/-- A socket that is joined over `t` or is over. -/
def Booked (t : TransportRef) (st : Sockets) (s : SocketRef) : Prop :=
  (∃ i j, Joined t st s i j) ∨ Over st s

/-- An id that no socket has any more. -/
def Retired (st : Sockets) (i : Nat) : Prop :=
  0 < i ∧ i < st.localSocketNextId ∧ ∀ s a, Listed st s a → a.id ≠ i

/-- `written` has come out of `fed`, and the rest is in the queue, or lost with its socket. -/
def Pours (st : Sockets) (s : SocketRef) (written fed : Bytes) : Prop :=
  ∃ lost, written ++ (queued st s ++ lost) = fed ∧ ((st.heap s).isSome = true → lost = [])

/-- `sent` has come out of `read`, and the rest is lost with the stream. -/
def Passes (t : TransportRef) (st : Sockets) (s : SocketRef) (i j : Nat) (sent read : Bytes) :
    Prop :=
  ∃ unsent, sent ++ unsent = read ∧ (Joined t st s i j → unsent = [])

/-- What happens to the account of one socket. -/
structure Entry (t : TransportRef) (st st' : Sockets) (events : List Event) (s : SocketRef) :
    Prop where
  unfed : Over st s → bytesFed s events = []
  poured : Pours st' s (bytesWritten s events) (queued st s ++ bytesFed s events)
  sent : ∀ i j, Joined t st s i j → Passes t st' s i j (bytesSent t i j events) (bytesRead s events)
  resumes : ∀ i j, Joined t st s i j → Joined t st' s i j → Reads st s →
    Reads st' s ∨ Says t .aWrte i j events
  drains : ∀ i j, Joined t st s i j → Joined t st' s i j → Holds st s →
    Holds st' s ∨ Says t .aOkay i j events

/-- The streams of `t` last from `st` to `st'` or are over. -/
structure Lasts (t : TransportRef) (st st' : Sockets) : Prop where
  before : WellFormed st
  after : WellFormed st'
  next : st.nextRef ≤ st'.nextRef
  kinds : ∀ p b', p < st.nextRef → st'.heap p = some b' →
    ∃ b, st.heap p = some b ∧ SameKind b.kind b'.kind
  ids : IdsKept st st'
  ended : ∀ s, s < st.nextRef → Over st s → Over st' s
  stays : ∀ s i j, Joined t st s i j → Joined t st' s i j ∨ Over st' s
  tidy : Tidy st → Tidy st'

/-- The accounts of the streams that there are, and of those that are over. -/
def Books (t : TransportRef) (st st' : Sockets) (events : List Event) : Prop :=
  (∀ s, s < st.nextRef → Booked t st s → Entry t st st' events s) ∧
    ∀ i j, Retired st i → bytesSent t i j events = []

/-- The streams of `t` last, and their accounts are kept. -/
structure Ledger (t : TransportRef) (st st' : Sockets) : Prop extends Lasts t st st' where
  books : ∃ events, st'.trace = st.trace ++ events ∧ Books t st st' events

section Accounts

variable {t : TransportRef} {st st' : Sockets} {events more : List Event} {s : SocketRef}
  {i j : Nat}

theorem bytesRead_append (trace events : List Event) :
    bytesRead s (trace ++ events) = bytesRead s trace ++ bytesRead s events :=
  List.flatMap_append

theorem bytesFed_append (trace events : List Event) :
    bytesFed s (trace ++ events) = bytesFed s trace ++ bytesFed s events := by
  rw [bytesFed, List.flatMap_append, List.flatten_append, bytesFed, bytesFed]

theorem bytesSent_append (trace events : List Event) :
    bytesSent t i j (trace ++ events) = bytesSent t i j trace ++ bytesSent t i j events := by
  rw [bytesSent, sentOn_append, payloads, List.filterMap_append, List.flatten_append]
  rfl

theorem Says.append_left (command : Command) (h : Says t command i j events) :
    Says t command i j (events ++ more) := by
  obtain ⟨p, hp, hspoken⟩ := h
  exact ⟨p, List.mem_append_left _ hp, hspoken⟩

theorem Says.append_right (command : Command) (h : Says t command i j more) :
    Says t command i j (events ++ more) := by
  obtain ⟨p, hp, hspoken⟩ := h
  exact ⟨p, List.mem_append_right _ hp, hspoken⟩

/-- An event that does not use the descriptor of `s`. -/
def Spares (s : SocketRef) : Event → Prop
  | .fdRead p _ | .fdWrote p _ => p ≠ s
  | _ => True

theorem bytesRead_of_spares (h : ∀ e ∈ events, Spares s e) : bytesRead s events = [] := by
  refine List.flatMap_eq_nil_iff.mpr fun e he => ?_
  cases e with
  | fdRead p data => exact if_neg (h _ he)
  | _ => rfl

theorem bytesWritten_of_spares (h : ∀ e ∈ events, Spares s e) : bytesWritten s events = [] := by
  refine List.flatMap_eq_nil_iff.mpr fun e he => ?_
  cases e with
  | fdWrote p data => exact if_neg (h _ he)
  | _ => rfl

theorem bytesSent_of_silent (h : ¬ Says t .aWrte i j events) : bytesSent t i j events = [] := by
  have hnone : payloads i j (sentOn t events) = [] := by
    rw [payloads, List.filterMap_eq_nil_iff]
    intro p hp
    refine if_neg ?_
    rintro ⟨hc, hi, hj⟩
    exact h ⟨p, mem_sentOn.mp hp, hc, hi, hj⟩
  rw [bytesSent, hnone, List.flatten_nil]

theorem bytesFed_eq_nil (h : ∀ data, .enqueueCalled s data ∉ events) : bytesFed s events = [] := by
  have hnone : events.flatMap (handed s) = [] := by
    refine List.flatMap_eq_nil_iff.mpr fun e he => ?_
    cases e with
    | enqueueCalled p data =>
        refine if_neg ?_
        rintro rfl
        exact h data he
    | _ => rfl
  rw [bytesFed, hnone, List.flatten_nil]

theorem queued_eq (h : st'.heap s = st.heap s) : queued st' s = queued st s := by
  rw [queued, h, queued]

theorem booked_not_unjoined (h : Booked t st s) (hwf : WellFormed st) (hs : s < st.nextRef) :
    ¬ Unjoined t st s := by
  intro hunjoined
  rcases h with ⟨i, j, hjoined⟩ | hover
  · exact hunjoined.not_joined hwf hjoined
  · exact hunjoined.not_over hs hover

/-- While streams last nothing is handed to their sockets. -/
theorem bytesFed_of_kept (hkept : Kept t st st') (htrace : st'.trace = st.trace ++ events)
    (hs : s < st.nextRef) (hbooked : Booked t st s) : bytesFed s events = [] := by
  obtain ⟨events', htrace', htells⟩ := hkept.emits
  obtain rfl := List.append_cancel_left (htrace.symm.trans htrace')
  exact bytesFed_eq_nil fun data hdata =>
    booked_not_unjoined hbooked hkept.before hs (htells _ hdata)

theorem joined_unique (hwf : WellFormed st) {p : SocketRef} {j' : Nat} (hs : Joined t st s i j)
    (hp : Joined t st p i j') : p = s := by
  obtain ⟨a, ha, hlisted, hclosing, hid⟩ := hs.listed hwf
  obtain ⟨b, hb, hlisted', hclosing', hid'⟩ := hp.listed hwf
  exact listed_eq hwf ⟨hb, hlisted', hclosing'⟩ ⟨ha, hlisted, hclosing⟩ (hid'.trans hid.symm)

theorem silent_of_kept (hkept : Kept t st st') (htrace : st'.trace = st.trace ++ events)
    (hi : Retired st i) : ¬ Says t .aWrte i j events := by
  obtain ⟨events', htrace', htells⟩ := hkept.emits
  obtain rfl := List.append_cancel_left (htrace.symm.trans htrace')
  rintro ⟨p, hp, hc, rfl, rfl⟩
  obtain ⟨s, hs⟩ := (htells _ hp rfl (Nat.ne_of_gt hi.1)).1 (.inr hc)
  obtain ⟨a, ha, hlisted, hclosing, hid⟩ := hs.listed hkept.before
  exact hi.2.2 s a ⟨ha, hlisted, hclosing⟩ hid

theorem entry_untouched (hcell : st'.heap s = st.heap s) (hspares : ∀ e ∈ events, Spares s e)
    (hfed : bytesFed s events = [])
    (hsilent : ∀ i j, Joined t st s i j → ¬ Says t .aWrte i j events) :
    Entry t st st' events s where
  unfed _ := hfed
  poured := ⟨[], by simp [bytesWritten_of_spares hspares, queued_eq hcell, hfed], fun _ => rfl⟩
  sent i j hjoined := ⟨[], by
    simp [bytesSent_of_silent (hsilent i j hjoined), bytesRead_of_spares hspares], fun _ => rfl⟩
  resumes i j _ _ hreads := .inl (by rwa [Reads, hcell])
  drains i j _ _ hholds := .inl (by rwa [Holds, hcell])

theorem Retired.later (h : Retired st i) (hids : IdsKept st st') : Retired st' i := by
  refine ⟨h.1, Nat.lt_of_lt_of_le h.2.1 hids.counter, ?_⟩
  rintro s a hs rfl
  obtain ⟨c, hc, hid⟩ := listed_earlier hids hs h.2.1
  exact h.2.2 s c hc hid

/-- The id of a stream that is over is not given out again. -/
theorem retired_of_over (hwf : WellFormed st) (hids : IdsKept st st') (hs : Joined t st s i j)
    (hover : Over st' s) : Retired st' i := by
  obtain ⟨a, ha, hlisted, hclosing, rfl⟩ := hs.listed hwf
  obtain ⟨hpositive, hid⟩ := (hwf.socket s a ha).id hlisted hclosing
  refine ⟨hpositive, Nat.lt_of_lt_of_le hid hids.counter, fun p b hp hpid => ?_⟩
  obtain ⟨c, hc, hcid⟩ := listed_earlier hids hp (hpid ▸ hid)
  obtain rfl := listed_eq hwf hc ⟨ha, hlisted, hclosing⟩ (hcid.trans hpid)
  have hactive := hp.active
  rw [hover b hp.cell] at hactive
  cases hactive

theorem Lasts.booked (h : Lasts t st st') (hs : s < st.nextRef) (hbooked : Booked t st s) :
    Booked t st' s := by
  rcases hbooked with ⟨i, j, hjoined⟩ | hover
  · exact (h.stays s i j hjoined).imp_left fun hjoined' => ⟨i, j, hjoined'⟩
  · exact .inr (h.ended s hs hover)

/-- A stream that is joined before and after was joined all the while. -/
theorem Lasts.joined_between {st₂ : Sockets} (h : Lasts t st st₂) (h' : Lasts t st₂ st')
    (hs : Joined t st s i j) (hs' : Joined t st' s i j) : Joined t st₂ s i j := by
  refine (h.stays s i j hs).resolve_right fun hover => hs'.not_over h'.after ?_
  exact h'.ended s (Nat.lt_of_lt_of_le (hs.fresh h.before) h.next) hover

theorem Pours.trans {st₂ : Sockets} {written fed : Bytes} (h : Pours st₂ s written fed)
    (hlasts : Lasts t st₂ st') (hs : s < st₂.nextRef) (hentry : Entry t st₂ st' events s) :
    Pours st' s (written ++ bytesWritten s events) (fed ++ bytesFed s events) := by
  obtain ⟨lost, hpoured, hall⟩ := h
  obtain ⟨lost', hpoured', hall'⟩ := hentry.poured
  cases hcell : st₂.heap s with
  | none =>
      have hunfed := hentry.unfed fun b hb => by simp [hcell] at hb
      have hqueued : queued st₂ s = [] := by simp [queued, hcell]
      rw [hqueued, hunfed, List.append_nil, List.append_eq_nil_iff,
        List.append_eq_nil_iff] at hpoured'
      refine ⟨lost, ?_, fun hsome => ?_⟩
      · rw [hpoured'.1, hpoured'.2.1, hunfed, ← hpoured, hqueued, List.append_nil, List.append_nil]
      · obtain ⟨b, hb⟩ := Option.isSome_iff_exists.mp hsome
        obtain ⟨c, hc, -⟩ := hlasts.kinds s b hs hb
        simp [hcell] at hc
  | some b =>
      obtain rfl := hall (by simp [hcell])
      refine ⟨lost', ?_, hall'⟩
      rw [List.append_assoc, hpoured', ← List.append_assoc, ← hpoured, List.append_nil]

theorem Passes.trans {st₂ : Sockets} {sent read : Bytes} (h : Passes t st₂ s i j sent read)
    (hlasts : Lasts t st₂ st') (hs : s < st₂.nextRef)
    (hentry : Passes t st' s i j (bytesSent t i j events) (bytesRead s events) ∧
        Joined t st₂ s i j ∨ Over st₂ s ∧ bytesSent t i j events = []) :
    Passes t st' s i j (sent ++ bytesSent t i j events) (read ++ bytesRead s events) := by
  obtain ⟨unsent, hsent, hall⟩ := h
  rcases hentry with ⟨⟨unsent', hsent', hall'⟩, hjoined⟩ | ⟨hover, hsilent⟩
  · obtain rfl := hall hjoined
    refine ⟨unsent', ?_, hall'⟩
    rw [List.append_assoc, hsent', ← hsent, List.append_nil]
  · refine ⟨unsent ++ bytesRead s events, ?_, fun hjoined => ?_⟩
    · rw [hsilent, List.append_nil, ← List.append_assoc, hsent]
    · exact absurd (hlasts.ended s hs hover) (hjoined.not_over hlasts.after)

theorem Entry.trans {st₂ : Sockets} {events₁ events₂ : List Event} (h₁ : Lasts t st st₂)
    (h₂ : Lasts t st₂ st') (hs : s < st.nextRef) (he₁ : Entry t st st₂ events₁ s)
    (he₂ : Entry t st₂ st' events₂ s) (hretired : ∀ i j, Retired st₂ i →
      bytesSent t i j events₂ = []) : Entry t st st' (events₁ ++ events₂) s where
  unfed hover := by
    rw [bytesFed_append, he₁.unfed hover, he₂.unfed (h₁.ended s hs hover), List.nil_append]
  poured := by
    rw [bytesWritten_append, bytesFed_append, ← List.append_assoc]
    exact he₁.poured.trans h₂ (Nat.lt_of_lt_of_le hs h₁.next) he₂
  sent i j hjoined := by
    rw [bytesSent_append, bytesRead_append]
    refine (he₁.sent i j hjoined).trans h₂ (Nat.lt_of_lt_of_le hs h₁.next) ?_
    rcases h₁.stays s i j hjoined with hjoined₂ | hover
    · exact .inl ⟨he₂.sent i j hjoined₂, hjoined₂⟩
    · exact .inr ⟨hover, hretired i j (retired_of_over h₁.before h₁.ids hjoined hover)⟩
  resumes i j hjoined hjoined' hreads := by
    have hjoined₂ := h₁.joined_between h₂ hjoined hjoined'
    rcases he₁.resumes i j hjoined hjoined₂ hreads with hreads₂ | hspoken
    · exact (he₂.resumes i j hjoined₂ hjoined' hreads₂).imp_right (·.append_right _)
    · exact .inr (hspoken.append_left _)
  drains i j hjoined hjoined' hholds := by
    have hjoined₂ := h₁.joined_between h₂ hjoined hjoined'
    rcases he₁.drains i j hjoined hjoined₂ hholds with hholds₂ | hspoken
    · exact (he₂.drains i j hjoined₂ hjoined' hholds₂).imp_right (·.append_right _)
    · exact .inr (hspoken.append_left _)

theorem Lasts.trans {st₂ : Sockets} (h₁ : Lasts t st st₂) (h₂ : Lasts t st₂ st') :
    Lasts t st st' where
  before := h₁.before
  after := h₂.after
  next := Nat.le_trans h₁.next h₂.next
  kinds p b' hp hb' := by
    obtain ⟨b, hb, hkind⟩ := h₂.kinds p b' (Nat.lt_of_lt_of_le hp h₁.next) hb'
    obtain ⟨b₀, hb₀, hkind₀⟩ := h₁.kinds p b hp hb
    exact ⟨b₀, hb₀, hkind₀.trans hkind⟩
  ids := h₁.ids.trans h₂.ids
  ended s hs hover := h₂.ended s (Nat.lt_of_lt_of_le hs h₁.next) (h₁.ended s hs hover)
  stays s i j hjoined := by
    rcases h₁.stays s i j hjoined with hjoined₂ | hover
    · exact h₂.stays s i j hjoined₂
    · exact .inr (h₂.ended s (Nat.lt_of_lt_of_le (hjoined.fresh h₁.before) h₁.next) hover)
  tidy htidy := h₂.tidy (h₁.tidy htidy)

theorem Ledger.trans {st₂ : Sockets} (h₁ : Ledger t st st₂) (h₂ : Ledger t st₂ st') :
    Ledger t st st' where
  toLasts := h₁.toLasts.trans h₂.toLasts
  books := by
    obtain ⟨events₁, htrace₁, hbooks₁, hretired₁⟩ := h₁.books
    obtain ⟨events₂, htrace₂, hbooks₂, hretired₂⟩ := h₂.books
    refine ⟨events₁ ++ events₂, by rw [htrace₂, htrace₁, List.append_assoc],
      fun s hs hbooked => ?_, fun i j hi => ?_⟩
    · exact (hbooks₁ s hs hbooked).trans h₁.toLasts h₂.toLasts hs
        (hbooks₂ s (Nat.lt_of_lt_of_le hs h₁.next) (h₁.booked hs hbooked)) hretired₂
    · rw [bytesSent_append, hretired₁ i j hi, hretired₂ i j (hi.later h₁.ids), List.nil_append]

theorem Lasts.of_kept (hkept : Kept t st st') (htidy : Tidy st → Tidy st') : Lasts t st st' :=
  ⟨hkept.before, hkept.after, hkept.next, hkept.kinds, hkept.ids, hkept.ended, hkept.stays, htidy⟩

theorem Lasts.of_heap (h : WellFormed st) (hheap : st'.heap = st.heap)
    (hlist : st'.localSocketList = st.localSocketList)
    (hclosing : st'.localSocketClosingList = st.localSocketClosingList)
    (hcounters : SameCounters st st') : Lasts t st st' := by
  have hkept : Kept t st { st' with trace := st.trace } :=
    .of_heap h hheap hlist hclosing ⟨hcounters.nextRef, hcounters.nextId⟩ (.refl rfl)
  exact ⟨h, h.congr hheap hlist hclosing hcounters, hkept.next, hkept.kinds,
    .of_heap hheap hcounters, hkept.ended, hkept.stays, fun htidy => htidy.of_heap hheap⟩

theorem Ledger.of_kept (hkept : Kept t st st') (htidy : Tidy st → Tidy st')
    (htrace : st'.trace = st.trace ++ events)
    (hbooks : ∀ s, s < st.nextRef → Booked t st s → bytesFed s events = [] →
      Entry t st st' events s) : Ledger t st st' where
  toLasts := .of_kept hkept htidy
  books := ⟨events, htrace,
    fun s hs hbooked => hbooks s hs hbooked (bytesFed_of_kept hkept htrace hs hbooked),
    fun _ _ hi => bytesSent_of_silent (silent_of_kept hkept htrace hi)⟩

/-- What leaves the ends of streams alone leaves their accounts alone. -/
theorem Ledger.of_still (hkept : Kept t st st') (hstill : Still st st') : Ledger t st st' := by
  obtain ⟨events, htrace, hapart⟩ := hstill.emits
  refine .of_kept hkept hstill.tidy htrace fun s hs hbooked hfed => ?_
  have hbound : Bound st s := hbooked.imp_left fun ⟨i, j, hjoined⟩ => hjoined.attached
  have hspares : ∀ e ∈ events, Spares s e := by
    intro e he
    have hapart := hapart e he
    cases e with
    | fdRead p | fdWrote p =>
        rintro rfl
        exact hapart hs hbound
    | _ => trivial
  have hsilent : ∀ i j, ¬ Says t .aWrte i j events := by
    rintro i j ⟨p, hp, hc, -⟩
    exact hapart _ hp hc
  have hcells := hstill.cells s
  have hsame : ∀ {i j}, Joined t st' s i j → st'.heap s = st.heap s := by
    intro i j hjoined
    obtain ⟨a', ha', -, hactive, -⟩ := hjoined.listed hkept.after
    obtain ⟨a, ha, -, hsame⟩ := hcells a' hs hbound ha'
    rw [ha', ha, hsame hactive]
  refine ⟨fun _ => hfed, ?_, fun i j _ => ?_, fun i j _ hjoined' hreads => .inl ?_,
    fun i j _ hjoined' hholds => .inl ?_⟩
  · rw [bytesWritten_of_spares hspares, hfed]
    cases hcell : st'.heap s with
    | none => exact ⟨queued st s, by simp [queued, hcell], by simp [hcell]⟩
    | some a' =>
        obtain ⟨a, ha, hpkts, -⟩ := hcells a' hs hbound hcell
        exact ⟨[], by simp [queued, hcell, ha, hpkts], fun _ => rfl⟩
  · refine ⟨[], ?_, fun _ => rfl⟩
    rw [bytesSent_of_silent (hsilent i j), bytesRead_of_spares hspares, List.append_nil]
  · rwa [Reads, hsame hjoined']
  · rwa [Holds, hsame hjoined']

theorem Ledger.refl (h : WellFormed st) : Ledger t st st := .of_still (.refl h) (.refl h)

/-- Only one socket does something. -/
theorem Ledger.of_own (s : SocketRef) (events : List Event) (hkept : Kept t st st')
    (htidy : Tidy st → Tidy st') (htrace : st'.trace = st.trace ++ events)
    (hother : ∀ p, p ≠ s → st'.heap p = st.heap p)
    (hspares : ∀ p, p ≠ s → ∀ e ∈ events, Spares p e)
    (hspeaks : ∀ i j, Says t .aWrte i j events → i ≠ 0 → Joined t st s i j)
    (hentry : s < st.nextRef → Booked t st s → bytesFed s events = [] →
      Entry t st st' events s) : Ledger t st st' := by
  refine .of_kept hkept htidy htrace fun p hp hbooked hfed => ?_
  by_cases hps : p = s
  · subst hps
    exact hentry hp hbooked hfed
  · refine entry_untouched (hother p hps) (hspares p hps) hfed fun i j hjoined hspoken => hps ?_
    obtain ⟨a, ha, hlisted, hclosing, rfl⟩ := hjoined.listed hkept.before
    have hpositive := ((hkept.before.socket p a ha).id hlisted hclosing).1
    exact joined_unique hkept.before (hspeaks _ j hspoken (Nat.ne_of_gt hpositive)) hjoined

end Accounts

end Adb.StreamLedger
