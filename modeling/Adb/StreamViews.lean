import Adb.StreamCallbacks
import Adb.StreamProtocol
import Adb.StreamSends

/-!
A process and one of its transports as an endpoint of the stream protocol: where
each stream stands, what has been handed to its socket, and that the callbacks
do to it what an endpoint may do.
-/

namespace Adb.StreamViews

open Adb.DescriptorIo
open Adb.WirePackets
open Adb.SocketTable
open Adb.SocketOperations
open Adb.SmartSockets
open Adb.SocketClosing
open Adb.SocketGraph
open Adb.SocketEffects
open Adb.OperationEffects
open Adb.StreamEffects
open Adb.GraphInvariants
open Adb.ServerState
open Adb.ServerRuns
open Adb.ServerEffects
open Adb.TransportIsolation
open Adb.StreamSends
open Adb.StreamProtocol (Stage Endpoint Message Moves Takes)
open Adb.StreamLinks
open Adb.StreamCallbacks

/-- Where the stream of a listed socket stands. -/
def standing (t : TransportRef) (st : Sockets) (a : Asocket) : Stage :=
  match a.peer with
  | none => if a.transport = some t then .opening else .idle
  | some q => (st.heap q).elim .idle fun b =>
      if b.kind = .remote ∧ b.transport = some t then .joined b.id else .idle

/-- Where the stream with a local id stands. -/
def stage (t : TransportRef) (st : Sockets) (i : Nat) : Stage :=
  if st.localSocketNextId ≤ i then .fresh
  else ((st.localSocketList.find? fun s => (st.heap s).any fun a => a.id = i).bind st.heap).elim
    .gone (standing t st)

/-- The message about a stream that a packet is. -/
def message (p : Apacket) : Option (Message Bytes) :=
  match p.command with
  | .aOpen => if p.arg0 ≠ 0 ∧ p.arg1 = 0 then some (.opens p.arg0) else none
  | .aOkay => if p.arg0 ≠ 0 ∧ p.arg1 ≠ 0 then some (.okay p.arg0 p.arg1) else none
  | .aWrte => if p.arg0 ≠ 0 ∧ p.arg1 ≠ 0 then some (.write p.arg0 p.arg1 p.data) else none
  | .aClse => if p.arg1 ≠ 0 then some (.close p.arg0 p.arg1) else none
  | _ => none

/-- The messages about streams that were sent on a transport. -/
def messagesOn (t : TransportRef) (trace : List Event) : List (Message Bytes) :=
  (sentOn t trace).filterMap message

/-- The socket that an event joins, under the id `j`, to the stream `i` of the other
side. -/
def joins (t : TransportRef) (i j : Nat) : Event → Option SocketRef
  | .connected s j' i' t' => if j' = j ∧ i' = i ∧ t' = t then some s else none
  | _ => none

/-- What an event hands to the socket `s`. -/
def handed (s : SocketRef) : Event → List Bytes
  | .enqueueCalled p data => if p = s then [data] else []
  | _ => []

/-- What has been handed to the socket with the id `j` since it was joined to the
stream `i` of the other side. -/
def delivered (t : TransportRef) (i j : Nat) : List Event → List Bytes
  | [] => []
  | e :: trace => (joins t i j e).elim (delivered t i j trace) fun s => trace.flatMap (handed s)

/-- A transport of a process as an endpoint. -/
def view (t : TransportRef) (st : Sockets) : Endpoint Bytes where
  stage := stage t st
  accepted i j := delivered t i j st.trace

section Histories

variable {t : TransportRef} {i j : Nat} {trace events : List Event}

theorem messagesOn_append (trace events : List Event) :
    messagesOn t (trace ++ events) = messagesOn t trace ++ messagesOn t events := by
  rw [messagesOn, sentOn_append, List.filterMap_append, messagesOn, messagesOn]

theorem mem_messagesOn {m : Message Bytes} :
    m ∈ messagesOn t trace ↔ ∃ p, .sent t p ∈ trace ∧ message p = some m := by
  simp [messagesOn, mem_sentOn]

theorem joins_eq_some {e : Event} {s : SocketRef} :
    joins t i j e = some s ↔ e = .connected s j i t := by
  cases e with
  | connected p j' i' t' =>
      rw [joins]
      constructor
      · intro h
        split at h
        · rename_i heq
          obtain ⟨rfl, rfl, rfl⟩ := heq
          obtain rfl := Option.some.inj h
          rfl
        · cases h
      · rintro ⟨⟩
        exact if_pos ⟨rfl, rfl, rfl⟩
  | _ => simp [joins]

theorem delivered_concat (trace : List Event) (e : Event) :
    delivered t i j (trace ++ [e]) = delivered t i j trace ++
      (trace.findSome? (joins t i j)).elim [] fun s => handed s e := by
  induction trace with
  | nil =>
      cases hjoins : joins t i j e with
      | none => simp [delivered, hjoins]
      | some s => simp [delivered, hjoins]
  | cons x trace ih =>
      cases hjoins : joins t i j x with
      | none => simp [delivered, hjoins, ih]
      | some s => simp [delivered, hjoins]

theorem delivered_append (hjoins : ∀ e ∈ events, joins t i j e = none)
    (hhanded : ∀ e ∈ events, ∀ s, .connected s j i t ∈ trace → handed s e = []) :
    delivered t i j (trace ++ events) = delivered t i j trace := by
  induction events generalizing trace with
  | nil => rw [List.append_nil]
  | cons e events ih =>
      have hnothing : (trace.findSome? (joins t i j)).elim [] (fun s => handed s e) = [] := by
        cases hs : trace.findSome? (joins t i j) with
        | none => rfl
        | some s =>
            obtain ⟨x, hx, hxs⟩ := List.exists_of_findSome?_eq_some hs
            exact hhanded e List.mem_cons_self s (joins_eq_some.mp hxs ▸ hx)
      rw [List.append_cons, ih, delivered_concat, hnothing, List.append_nil]
      · exact fun e' he' => hjoins e' (List.mem_cons_of_mem _ he')
      · intro e' he' s hs
        refine hhanded e' (List.mem_cons_of_mem _ he') s ?_
        rcases List.mem_append.mp hs with hs | hs
        · exact hs
        · have hnone := hjoins e List.mem_cons_self
          rw [← List.mem_singleton.mp hs, joins_eq_some.mpr rfl] at hnone
          cases hnone

end Histories

section Stages

variable {t : TransportRef} {st st' : Sockets} {s : SocketRef} {a : Asocket} {i j : Nat}

theorem standing_joined : standing t st a = .joined j ↔ ∃ q b, a.peer = some q ∧
    st.heap q = some b ∧ b.kind = .remote ∧ b.id = j ∧ b.transport = some t := by
  unfold standing
  constructor
  · intro h
    split at h
    · split at h <;> cases h
    · rename_i q hq
      cases hb : st.heap q with
      | none =>
          rw [hb] at h
          cases h
      | some b =>
          rw [hb, Option.elim_some] at h
          split at h
          · rename_i hremote
            obtain rfl := Stage.joined.inj h
            exact ⟨q, b, hq, hb, hremote.1, rfl, hremote.2⟩
          · cases h
  · rintro ⟨q, b, hq, hb, hk, rfl, ht⟩
    simp [hq, hb, hk, ht]

theorem standing_opening :
    standing t st a = .opening ↔ a.peer = none ∧ a.transport = some t := by
  unfold standing
  cases hq : a.peer with
  | none =>
      by_cases ht : a.transport = some t
      · simp [ht]
      · simp [ht]
  | some q =>
      cases hb : st.heap q with
      | none => simp [hb]
      | some b =>
          by_cases hremote : b.kind = .remote ∧ b.transport = some t
          · simp [hb, hremote]
          · simp [hb, hremote]

theorem standing_cases (t : TransportRef) (st : Sockets) (a : Asocket) :
    standing t st a = .idle ∨ standing t st a = .opening ∨ ∃ j, standing t st a = .joined j := by
  unfold standing
  split
  · split <;> simp
  · rename_i q hq
    cases hb : st.heap q with
    | none => exact .inl rfl
    | some b =>
        rw [Option.elim_some]
        split <;> simp

/-- A socket that is on the list. -/
structure Listed (st : Sockets) (s : SocketRef) (a : Asocket) : Prop where
  cell : st.heap s = some a
  listed : SocketKind.isListed a.kind = true
  active : a.closing = false

theorem Listed.mem (h : Listed st s a) (hwf : WellFormed st) : s ∈ st.localSocketList :=
  (hwf.listed s).mpr ⟨a, h.cell, h.listed, h.active⟩

theorem Listed.id_lt (h : Listed st s a) (hwf : WellFormed st) : a.id < st.localSocketNextId :=
  ((hwf.socket s a h.cell).id h.listed h.active).2

/-- The list is searched by the id alone. -/
theorem find_of_listed (hwf : WellFormed st) (hs : Listed st s a) :
    st.localSocketList.find? (fun p => (st.heap p).any fun b => b.id = a.id) = some s := by
  cases hfind : st.localSocketList.find? fun p => (st.heap p).any fun b => b.id = a.id with
  | none =>
      have hnone := List.find?_eq_none.mp hfind s (hs.mem hwf)
      simp [hs.cell] at hnone
  | some p =>
      have hmem := List.mem_of_find?_eq_some hfind
      obtain ⟨b, hb, -⟩ := (hwf.listed p).mp hmem
      have hid : b.id = a.id := by simpa [hb] using List.find?_some hfind
      rw [hwf.idInj p s b a hb hs.cell hmem (hs.mem hwf) hid]

theorem stage_of_listed (hwf : WellFormed st) (hs : Listed st s a) :
    stage t st a.id = standing t st a := by
  rw [stage, if_neg (Nat.not_le.mpr (hs.id_lt hwf)), find_of_listed hwf hs, Option.bind_some,
    hs.cell, Option.elim_some]

theorem stage_of_unlisted (hwf : WellFormed st) (hi : i < st.localSocketNextId)
    (hnone : ∀ s a, Listed st s a → a.id ≠ i) : stage t st i = .gone := by
  have hfind : (st.localSocketList.find? fun p => (st.heap p).any fun b => b.id = i) = none := by
    refine List.find?_eq_none.mpr fun p hp => ?_
    obtain ⟨b, hb, hlisted, hclosing⟩ := (hwf.listed p).mp hp
    simpa [hb] using hnone p b ⟨hb, hlisted, hclosing⟩
  rw [stage, if_neg (Nat.not_le.mpr hi), hfind]
  rfl

theorem stage_cases (t : TransportRef) (hwf : WellFormed st) (i : Nat) :
    (st.localSocketNextId ≤ i ∧ stage t st i = .fresh) ∨
      (∃ s a, Listed st s a ∧ a.id = i ∧ stage t st i = standing t st a) ∨
        (i < st.localSocketNextId ∧ (∀ s a, Listed st s a → a.id ≠ i) ∧
          stage t st i = .gone) := by
  by_cases hi : st.localSocketNextId ≤ i
  · exact .inl ⟨hi, if_pos hi⟩
  · by_cases hlisted : ∃ s a, Listed st s a ∧ a.id = i
    · obtain ⟨s, a, hs, rfl⟩ := hlisted
      exact .inr (.inl ⟨s, a, hs, rfl, stage_of_listed hwf hs⟩)
    · have hnone : ∀ s a, Listed st s a → a.id ≠ i := fun s a hs hid => hlisted ⟨s, a, hs, hid⟩
      exact .inr (.inr ⟨Nat.not_le.mp hi, hnone, stage_of_unlisted hwf (Nat.not_le.mp hi) hnone⟩)

theorem stage_joined (hwf : WellFormed st) :
    stage t st i = .joined j ↔ ∃ s, Joined t st s i j := by
  constructor
  · intro h
    rcases stage_cases t hwf i with ⟨-, hfresh⟩ | ⟨s, a, hs, rfl, hstanding⟩ | ⟨-, -, hgone⟩
    · rw [hfresh] at h
      cases h
    · rw [hstanding] at h
      obtain ⟨q, b, hq, hb⟩ := standing_joined.mp h
      exact ⟨s, a, q, b, hs.cell, rfl, hq, hb⟩
    · rw [hgone] at h
      cases h
  · rintro ⟨s, hs⟩
    obtain ⟨a, ha, hlisted, hclosing, rfl⟩ := hs.listed hwf
    obtain ⟨a', q, b, ha', -, hq, hb⟩ := hs
    obtain rfl := Option.some.inj (ha.symm.trans ha')
    rw [stage_of_listed hwf ⟨ha, hlisted, hclosing⟩, standing_joined]
    exact ⟨q, b, hq, hb⟩

theorem stage_opening (hwf : WellFormed st) :
    stage t st i = .opening ↔ ∃ s, Waiting t st s i := by
  constructor
  · intro h
    rcases stage_cases t hwf i with ⟨-, hfresh⟩ | ⟨s, a, hs, rfl, hstanding⟩ | ⟨-, -, hgone⟩
    · rw [hfresh] at h
      cases h
    · rw [hstanding] at h
      obtain ⟨hq, ht⟩ := standing_opening.mp h
      exact ⟨s, a, hs.cell, hs.listed, hs.active, rfl, hq, ht⟩
    · rw [hgone] at h
      cases h
  · rintro ⟨s, a, ha, hlisted, hclosing, rfl, hq, ht⟩
    rw [stage_of_listed hwf ⟨ha, hlisted, hclosing⟩, standing_opening]
    exact ⟨hq, ht⟩

theorem opened_of_asked (hwf : WellFormed st) (h : Asked t st i) : (stage t st i).Opened := by
  rcases stage_cases t hwf i with ⟨hle, -⟩ | ⟨s, a, hs, rfl, -⟩ | ⟨-, -, hgone⟩
  · exact absurd h.1 (Nat.not_lt.mpr hle)
  · rcases h.2 s a hs.cell hs.listed hs.active rfl with hwaiting | ⟨j, hjoined⟩
    · rw [(stage_opening hwf).mpr ⟨s, hwaiting⟩]
      trivial
    · rw [(stage_joined hwf).mpr ⟨s, hjoined⟩]
      trivial
  · rw [hgone]
    trivial

theorem gone_of_over (hkept : Kept t st st') (hs : Listed st s a) (hover : Over st' s) :
    stage t st' a.id = .gone := by
  refine stage_of_unlisted hkept.after
    (Nat.lt_of_lt_of_le (hs.id_lt hkept.before) hkept.ids.counter) fun p b hp hid => ?_
  rcases hkept.ids.ids p b hp.cell hp.listed hp.active with ⟨c, hc, hl, hcl, hcid⟩ | hnew
  · have hps : p = s := hkept.before.idInj p s c a hc hs.cell
      (Listed.mem ⟨hc, hl, hcl⟩ hkept.before) (hs.mem hkept.before) (hcid.trans hid)
    subst hps
    have hactive := hp.active
    rw [hover b hp.cell] at hactive
    cases hactive
  · rw [hid] at hnew
    exact absurd (hs.id_lt hkept.before) (Nat.not_lt.mpr hnew)

theorem advances_of_kept (hkept : Kept t st st') (i : Nat) :
    (stage t st i).Advances (stage t st' i) := by
  have hjoined : ∀ {j}, stage t st' i = .joined j → stage t st i = .joined j := by
    intro j h
    obtain ⟨s, hs⟩ := (stage_joined hkept.after).mp h
    exact (stage_joined hkept.before).mpr ⟨s, hkept.joined s i j hs⟩
  rcases stage_cases t hkept.before i with ⟨-, hfresh⟩ | ⟨s, a, hs, rfl, hstanding⟩ | ⟨hi, hnone, hgone⟩
  · rw [hfresh] at hjoined ⊢
    cases h : stage t st' i with
    | joined j => cases hjoined h
    | _ => trivial
  · rcases standing_cases t st a with hidle | hopening | ⟨j, hj⟩
    · rw [hstanding, hidle] at hjoined ⊢
      rcases stage_cases t hkept.after a.id with ⟨hle, -⟩ | ⟨p, b, -, -, hstanding'⟩ | ⟨-, -, hgone⟩
      · exact absurd (Nat.lt_of_lt_of_le (hs.id_lt hkept.before) hkept.ids.counter)
          (Nat.not_lt.mpr hle)
      · rcases standing_cases t st' b with h | h | ⟨j, h⟩
        · exact .inl (hstanding'.trans h)
        · exact .inr (.inl (hstanding'.trans h))
        · cases hjoined (hstanding'.trans h)
      · exact .inr (.inr hgone)
    · rw [hstanding, hopening]
      obtain ⟨hq, ht⟩ := standing_opening.mp hopening
      rcases hkept.waits s a.id ⟨a, hs.cell, hs.listed, hs.active, rfl, hq, ht⟩ with h | hover
      · exact .inl ((stage_opening hkept.after).mpr ⟨s, h⟩)
      · exact .inr (gone_of_over hkept hs hover)
    · rw [hstanding, hj]
      obtain ⟨q, b, hq, hb⟩ := standing_joined.mp hj
      rcases hkept.stays s a.id j ⟨a, q, b, hs.cell, rfl, hq, hb⟩ with h | hover
      · exact .inl ((stage_joined hkept.after).mpr ⟨s, h⟩)
      · exact .inr (gone_of_over hkept hs hover)
  · rw [hgone]
    refine stage_of_unlisted hkept.after (Nat.lt_of_lt_of_le hi hkept.ids.counter)
      fun p b hp hid => ?_
    rcases hkept.ids.ids p b hp.cell hp.listed hp.active with ⟨c, hc, hl, hcl, hcid⟩ | hnew
    · exact hnone p c ⟨hc, hl, hcl⟩ (hcid.trans hid)
    · rw [hid] at hnew
      exact absurd hi (Nat.not_lt.mpr hnew)

end Stages

end Adb.StreamViews
