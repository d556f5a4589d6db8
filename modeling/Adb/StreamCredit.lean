import Adb.CreditFlow
import Adb.StreamAccounts

/-!
A pair of processes on one link, and the flow of their streams: what a sink has written
was read from its source in this order, and a stream that is joined at both ends is not
stuck.
-/

namespace Adb.StreamCredit

open Adb.DescriptorIo
open Adb.WirePackets
open Adb.SocketTable
open Adb.SocketGraph
open Adb.ClosingDrain (bytesWritten)
open Adb.ReadAccounting (bytesRead)
open Adb.ServerState
open Adb.ServerRuns
open Adb.TransportIsolation
open Adb.TransitionSystems
open Adb.StreamSends
open Adb.StreamProtocol (Stage Message Linked Coherent)
open Adb.CreditFlow
open Adb.StreamLinks
open Adb.StreamCallbacks
open Adb.StreamViews
open Adb.StreamMessages
open Adb.LinkedEndpoints
open Adb.StreamRests
open Adb.StreamLedger
open Adb.StreamAccounts

/-- The streams of a process that may read their descriptors, and those whose sockets
have packets in their queues. -/
def gauge (st : Sockets) : Gauge where
  ready i := ∃ s a, Listed st s a ∧ a.id = i ∧ a.fde.state.read = true
  holds j := ∃ s a, Listed st s a ∧ a.id = j ∧ a.pkts ≠ []

section Gauges

variable {t : TransportRef} {st st' : Sockets} {s : SocketRef} {i j : Nat}

theorem ready_joined (hwf : WellFormed st) (hs : Joined t st s i j) :
    (gauge st).ready i ↔ Reads st s := by
  obtain ⟨a, ha, hlisted, hclosing, hid⟩ := hs.listed hwf
  constructor
  · rintro ⟨p, b, hp, hpid, hreads⟩
    obtain rfl := listed_eq hwf hp ⟨ha, hlisted, hclosing⟩ (hpid.trans hid.symm)
    exact ⟨b, hp.cell, hreads⟩
  · rintro ⟨b, hb, hreads⟩
    obtain rfl := Option.some.inj (ha.symm.trans hb)
    exact ⟨s, a, ⟨ha, hlisted, hclosing⟩, hid, hreads⟩

theorem holds_joined (hwf : WellFormed st) (hs : Joined t st s i j) :
    (gauge st).holds i ↔ Holds st s := by
  obtain ⟨a, ha, hlisted, hclosing, hid⟩ := hs.listed hwf
  constructor
  · rintro ⟨p, b, hp, hpid, hholds⟩
    obtain rfl := listed_eq hwf hp ⟨ha, hlisted, hclosing⟩ (hpid.trans hid.symm)
    exact ⟨b, hp.cell, hholds⟩
  · rintro ⟨b, hb, hholds⟩
    obtain rfl := Option.some.inj (ha.symm.trans hb)
    exact ⟨s, a, ⟨ha, hlisted, hclosing⟩, hid, hholds⟩

theorem gone_iff (hwf : WellFormed st) : stage t st i = .gone ↔
    i < st.localSocketNextId ∧ ∀ s a, Listed st s a → a.id ≠ i := by
  constructor
  · intro hgone
    rcases stage_cases t hwf i with ⟨-, hfresh⟩ | ⟨s, a, -, -, hstanding⟩ | ⟨hi, hnone, -⟩
    · simp [hfresh] at hgone
    · rw [hstanding] at hgone
      rcases standing_cases t st a with h | h | ⟨j, h⟩ <;> simp [h] at hgone
    · exact ⟨hi, hnone⟩
  · exact fun h => stage_of_unlisted hwf h.1 h.2

theorem write_of_spoken {events : List Event} (hi : i ≠ 0) (hj : j ≠ 0)
    (h : Says t .aWrte i j events) : ∃ data, .write i j data ∈ messagesOn t events := by
  obtain ⟨p, hp, hc, rfl, rfl⟩ := h
  exact ⟨p.data, mem_messagesOn.mpr ⟨p, hp, by simp [message, hc, hi, hj]⟩⟩

theorem okay_of_spoken {events : List Event} (hi : i ≠ 0) (hj : j ≠ 0)
    (h : Says t .aOkay i j events) : .okay i j ∈ messagesOn t events := by
  obtain ⟨p, hp, hc, rfl, rfl⟩ := h
  exact mem_messagesOn.mpr ⟨p, hp, by simp [message, hc, hi, hj]⟩

theorem proper_of_joined (hwf : WellFormed st) (hrec : Recorded t st) (hs : Joined t st s i j) :
    i ≠ 0 ∧ j ≠ 0 := by
  refine ⟨?_, hrec.proper s j i (hrec.joined s j i hs)⟩
  obtain ⟨a, ha, hlisted, hclosing, rfl⟩ := hs.listed hwf
  exact Nat.ne_of_gt ((hwf.socket s a ha).id hlisted hclosing).1

/-- A callback is a turn of the endpoint. -/
theorem turn_of_ledger (hledger : Ledger t st st') (hrec : Recorded t st)
    {m : Option (Message Bytes)}
    (hbegins : ∀ s i j, Joined t st' s i j → Joined t st s i j ∨ Reads st' s)
    (htold : ∀ s i j, m = some (.okay j i) → Joined t st s i j → Reads st' s)
    (hfed : ∀ s i j data, m = some (.write i j data) → Joined t st s j i →
      Holds st' s ∨ Said t .aOkay j i st st' ∨ Over st' s) :
    ∃ events, st'.trace = st.trace ++ events ∧
      Turn (view t st) (view t st') (gauge st) (gauge st') m (messagesOn t events) := by
  obtain ⟨events, htrace, hbooks, -⟩ := hledger.books
  have hwf := hledger.before
  have hwf' := hledger.after
  have hjoined : ∀ {st} (h : WellFormed st) {i j}, (view t st).stage i = .joined j →
      ∃ s, Joined t st s i j := fun h _ _ hstage => (stage_joined h).mp hstage
  -- A stream that is joined before and after has the same socket all the while.
  have hboth : ∀ {i j}, (view t st).stage i = .joined j → (view t st').stage i = .joined j →
      ∃ s, Joined t st s i j ∧ Joined t st' s i j := by
    intro i j hstage hstage'
    obtain ⟨s, hs⟩ := hjoined hwf hstage
    obtain ⟨p, hp⟩ := hjoined hwf' hstage'
    refine ⟨s, hs, (hledger.stays s i j hs).resolve_right fun hover => ?_⟩
    obtain ⟨a, ha, hlisted, hclosing, hid⟩ := hp.listed hwf'
    exact (retired_of_over hwf hledger.ids hs hover).2.2 p a ⟨ha, hlisted, hclosing⟩ hid
  have hentry : ∀ {s i j}, Joined t st s i j → Entry t st st' events s := fun hs =>
    hbooks _ (hs.fresh hwf) (.inl ⟨_, _, hs⟩)
  refine ⟨events, htrace, ?_, ?_, ?_, ?_, ?_, ?_, ?_⟩
  · intro i j hstage
    obtain ⟨s, hs⟩ := hjoined hwf hstage
    rcases hledger.stays s i j hs with hs' | hover
    · exact .inl ((stage_joined hwf').mpr ⟨s, hs'⟩)
    · exact .inr ((gone_iff hwf').mpr (retired_of_over hwf hledger.ids hs hover).2)
  · intro i hgone
    obtain ⟨hi, hnone⟩ := (gone_iff hwf).mp hgone
    refine (gone_iff hwf').mpr ⟨Nat.lt_of_lt_of_le hi hledger.ids.counter, fun s a hs hid => ?_⟩
    obtain ⟨c, hc, hcid⟩ := listed_earlier hledger.ids hs (hid ▸ hi)
    exact hnone s c hc (hcid.trans hid)
  · intro i j hstage' hstage
    obtain ⟨s, hs'⟩ := hjoined hwf' hstage'
    rcases hbegins s i j hs' with hs | hreads
    · exact absurd ((stage_joined hwf).mpr ⟨s, hs⟩) hstage
    · exact (ready_joined hwf' hs').mpr hreads
  · intro i j hstage hstage' hready
    obtain ⟨s, hs, hs'⟩ := hboth hstage hstage'
    obtain ⟨hi, hj⟩ := proper_of_joined hwf hrec hs
    rcases (hentry hs).resumes i j hs hs' ((ready_joined hwf hs).mp hready) with hreads | hspoken
    · exact .inl ((ready_joined hwf' hs').mpr hreads)
    · exact .inr (write_of_spoken hi hj hspoken)
  · intro i j hm hstage hstage'
    obtain ⟨s, hs, hs'⟩ := hboth hstage hstage'
    exact (ready_joined hwf' hs').mpr (htold s i j hm hs)
  · intro i j hstage hstage' hholds
    obtain ⟨s, hs, hs'⟩ := hboth hstage hstage'
    obtain ⟨hj, hi⟩ := proper_of_joined hwf hrec hs
    rcases (hentry hs).drains j i hs hs' ((holds_joined hwf hs).mp hholds) with hholds | hspoken
    · exact .inl ((holds_joined hwf' hs').mpr hholds)
    · exact .inr (okay_of_spoken hj hi hspoken)
  · intro i j data hm hstage hstage'
    obtain ⟨s, hs, hs'⟩ := hboth hstage hstage'
    obtain ⟨hj, hi⟩ := proper_of_joined hwf hrec hs
    rcases hfed s i j data hm hs with hholds | ⟨events', htrace', hspoken⟩ | hover
    · exact .inl ((holds_joined hwf' hs').mpr hholds)
    · obtain rfl := List.append_cancel_left (htrace.symm.trans htrace')
      exact .inr (okay_of_spoken hj hi hspoken)
    · exact absurd hover (hs'.not_over hwf')

end Gauges

/-- The socket that was joined under the id `i` to the stream `j` of the other side, and
what has happened since. -/
def sinceJoined (t : TransportRef) (i j : Nat) : List Event → Option (SocketRef × List Event)
  | [] => none
  | e :: trace => (joins t j i e).elim (sinceJoined t i j trace) fun s => some (s, trace)

/-- The bytes that were read from the descriptor of the socket since it was joined. -/
def streamRead (t : TransportRef) (i j : Nat) (trace : List Event) : Bytes :=
  (sinceJoined t i j trace).elim [] fun x => bytesRead x.1 x.2

/-- The bytes that were written to the descriptor of the socket since it was joined. -/
def streamWritten (t : TransportRef) (i j : Nat) (trace : List Event) : Bytes :=
  (sinceJoined t i j trace).elim [] fun x => bytesWritten x.1 x.2

section Since

variable {t : TransportRef} {st : Sockets} {trace : List Event} {i j : Nat}

theorem sinceJoined_eq_some {x : SocketRef × List Event} (h : sinceJoined t i j trace = some x) :
    ∃ before, trace = before ++ .connected x.1 i j t :: x.2 := by
  induction trace with
  | nil => cases h
  | cons e trace ih =>
      rw [sinceJoined] at h
      cases hjoins : joins t j i e with
      | none =>
          rw [hjoins] at h
          obtain ⟨before, rfl⟩ := ih h
          exact ⟨e :: before, rfl⟩
      | some s =>
          rw [hjoins] at h
          obtain rfl := Option.some.inj h
          exact ⟨[], by rw [joins_eq_some.mp hjoins, List.nil_append]⟩

theorem sinceJoined_eq_none (h : sinceJoined t i j trace = none) (s : SocketRef) :
    .connected s i j t ∉ trace := by
  induction trace with
  | nil => exact List.not_mem_nil
  | cons e trace ih =>
      rw [sinceJoined] at h
      cases hjoins : joins t j i e with
      | none =>
          rw [hjoins] at h
          rw [List.mem_cons, not_or]
          refine ⟨?_, ih h⟩
          rintro rfl
          rw [joins_eq_some.mpr rfl] at hjoins
          cases hjoins
      | some s =>
          rw [hjoins] at h
          cases h

theorem delivered_eq : delivered t j i trace =
    (sinceJoined t i j trace).elim [] fun x => x.2.flatMap (handed x.1) := by
  induction trace with
  | nil => rfl
  | cons e trace ih =>
      rw [delivered, sinceJoined]
      cases hjoins : joins t j i e with
      | none => exact ih
      | some s => rfl

/-- What was written since a socket was joined has come out of what was handed to it. -/
theorem written_of_delivered (h : Account t st) :
    streamWritten t i j st.trace <+: (delivered t j i st.trace).flatten := by
  rw [streamWritten, delivered_eq]
  cases hsince : sinceJoined t i j st.trace with
  | none => exact List.nil_prefix
  | some x =>
      obtain ⟨before, hsplit⟩ := sinceJoined_eq_some hsince
      obtain ⟨-, ⟨lost, hpoured, -⟩, -⟩ := h.stream before x.2 x.1 i j hsplit
      exact ⟨_, hpoured⟩

/-- What was sent on a stream has come out of what was read since its socket was joined. -/
theorem sent_of_read (h : Account t st) (hi : 0 < i) :
    bytesSent t i j st.trace <+: streamRead t i j st.trace := by
  rw [streamRead]
  cases hsince : sinceJoined t i j st.trace with
  | none =>
      rw [h.silent i j hi (sinceJoined_eq_none hsince)]
      exact List.nil_prefix
  | some x =>
      obtain ⟨before, hsplit⟩ := sinceJoined_eq_some hsince
      obtain ⟨hbefore, -, unsent, hsent, -⟩ := h.stream before x.2 x.1 i j hsplit
      have hconnected : bytesSent t i j (.connected x.1 i j t :: x.2) = bytesSent t i j x.2 := rfl
      rw [hsplit, bytesSent_append, hbefore, List.nil_append, hconnected]
      exact ⟨unsent, hsent⟩

end Since

/-- The messages about streams come while the transport is online, those of other
transports name no socket of this one, and no `OPEN` asks for the debugger's sockets. -/
def Plain (cfg : Bool → Config) (t : Bool → TransportRef) (st : Pair)
    (l : Bool × Action × Oracle) : Prop :=
  Undisturbed t st l ∧ OpensPlainly (cfg l.1) l.2.1

/-- What is known of a pair while its streams flow. -/
structure Flows (t : Bool → TransportRef) (st : Pair) : Prop where
  sound : Sound t st
  tidy : ∀ c, Tidy (st.ends c).sockets
  account : ∀ c, Account (t c) (st.ends c).sockets
  order : ∀ c, st.heard c <+: carried (t !c) (st.ends !c)
  credited : ∀ c, Credited (linked t st) (fun b => gauge (st.ends b).sockets) c

section Pairs

variable {cfg : Bool → Config} {t : Bool → TransportRef} {st : Pair} {b : Bool}

theorem message_okay {p : Apacket} {i j : Nat} (hm : message p = some (.okay i j)) :
    p.command = .aOkay ∧ p.arg0 = i ∧ p.arg1 = j := by
  have hspeaks : (Message.okay i j : Message Bytes).Speaks i j := ⟨rfl, rfl⟩
  obtain ⟨hi, hj, -, hc | hc⟩ := message_speaks hm hspeaks
  · exact ⟨hc, hi, hj⟩
  · simp [message, hc] at hm

theorem message_write {p : Apacket} {i j : Nat} {data : Bytes}
    (hm : message p = some (.write i j data)) :
    p.command = .aWrte ∧ p.arg0 = i ∧ p.arg1 = j := by
  have hspeaks : (Message.write i j data).Speaks i j := ⟨rfl, rfl⟩
  obtain ⟨hi, hj, -, hc | hc⟩ := message_speaks hm hspeaks
  · simp [message, hc] at hm
  · exact ⟨hc, hi, hj⟩

/-- A callback leaves the streams of the link as they are, or it is a message about them. -/
theorem kept_or_message {action : Action} {env : Oracle} (h : Sound t st)
    (henabled : Pair.Enabled cfg t st (b, action, env))
    (hcondition : Undisturbed t st (b, action, env)) :
    (Kept (t b) (st.ends b).sockets (step (cfg b) env (st.ends b) action).sockets ∧
      (arrival (t b) action).bind message = none) ∨
      ∃ p, action = .packet (t b) p ∧ arrival (t b) action = some p ∧
        actsOn ((st.ends b).transports (t b)).online p = true := by
  obtain ⟨hapart, honline⟩ := hcondition
  dsimp only at hapart honline
  by_cases hmessage : IsMessage (t b) action
  · cases action with
    | packet t' p =>
        obtain ⟨rfl, hstream⟩ := hmessage
        have hsync : p.command ≠ .aSync := by
          intro hsync
          simp [hsync, Command.isStream] at hstream
        have harrival : arrival (t b) (.packet (t b) p) = some p := arrival_eq_some.mpr ⟨rfl, hsync⟩
        cases hacts : actsOn ((st.ends b).transports (t b)).online p with
        | true => exact .inr ⟨p, rfl, harrival, hacts⟩
        | false =>
            obtain ⟨ctx, -, hstep⟩ := @step_packet_sockets (cfg b) env (st.ends b) (t b) p hstream
            refine .inl ⟨?_, ?_⟩
            · rw [hstep, hacts, if_neg (by simp)]
              exact (@noted_packet (t b) env (st.ends b) (h.settled b).wellFormed (t b) p).1
            · rw [honline p harrival hstream, ← isSome_message] at hacts
              simpa [harrival] using hacts
    | _ => exact hmessage.elim
  · refine .inl ⟨kept_step (l := (action, env)) (h.settled b) henabled.1.2 hmessage hapart, ?_⟩
    cases harrival : arrival (t b) action with
    | none => rfl
    | some p =>
        obtain ⟨rfl, -⟩ := arrival_eq_some.mp harrival
        exact message_of_not_stream (Bool.eq_false_iff.mpr fun hstream => hmessage ⟨rfl, hstream⟩)

/-- What a callback does to the side that runs it. -/
theorem turn_step {action : Action} {env : Oracle} (h : Flows t st)
    (henabled : Pair.Enabled cfg t st (b, action, env))
    (hcondition : Plain cfg t st (b, action, env)) :
    Tidy (step (cfg b) env (st.ends b) action).sockets ∧
      Account (t b) (step (cfg b) env (st.ends b) action).sockets ∧
      ∃ events, (step (cfg b) env (st.ends b) action).sockets.trace =
          (st.ends b).sockets.trace ++ events ∧
        Turn (view (t b) (st.ends b).sockets)
          (view (t b) (step (cfg b) env (st.ends b) action).sockets) (gauge (st.ends b).sockets)
          (gauge (step (cfg b) env (st.ends b) action).sockets)
          ((arrival (t b) action).bind message) (messagesOn (t b) events) := by
  obtain ⟨hundisturbed, hplain⟩ := hcondition
  have hledger : Ledger (t b) (st.ends b).sockets (step (cfg b) env (st.ends b) action).sockets :=
    ledger_step (l := (action, env)) (h.sound.settled b) (h.tidy b) henabled.1.2 hplain
  have hrec := h.sound.recorded b
  rcases kept_or_message h.sound henabled hundisturbed with
    ⟨hkept, hnone⟩ | ⟨p, rfl, harrival, hacts⟩
  · refine ⟨hledger.tidy (h.tidy b), account_of_kept hrec (h.account b) hledger hkept, ?_⟩
    refine turn_of_ledger hledger hrec (fun s i j hs => .inl (hkept.joined s i j hs)) ?_ ?_
    · intro s i j hm
      simp [hnone] at hm
    · intro s i j data hm
      simp [hnone] at hm
  · have hplays := @plays_step (t b) (cfg b) env (st.ends b) p (h.sound.settled b) (h.tidy b) hacts
      hplain
    refine ⟨hledger.tidy (h.tidy b), hplays.account rfl hrec (h.account b), ?_⟩
    rw [harrival]
    refine turn_of_ledger hledger hrec hplays.begins ?_ ?_
    · intro s i j hm hs
      obtain ⟨hc, rfl, rfl⟩ := message_okay hm
      exact hplays.told hc s hs
    · intro s i j data hm hs
      obtain ⟨hc, rfl, rfl⟩ := message_write hm
      exact hplays.fed hc s hs

theorem carried_append {server server' : Server} {events : List Event} {t : TransportRef}
    (htrace : server'.sockets.trace = server.sockets.trace ++ events) :
    carried t server <+: carried t server' := by
  rw [carried, carried, htrace, sentOn_append, List.filter_append]
  exact List.prefix_append _ _

theorem flows_initial : Flows t .initial where
  sound := sound_initial
  tidy _ := tidy_initial
  account _ := account_initial
  order _ := List.nil_prefix
  credited c i j hjoined := by
    obtain ⟨s, a, q, d, ha, -⟩ := (stage_joined wellFormed_initial).mp hjoined
    cases ha

theorem flows_next {l : Bool × Action × Oracle} (h : Flows t st)
    (henabled : Pair.Enabled cfg t st l) (hcondition : Plain cfg t st l) :
    Flows t (Pair.next cfg t st l) := by
  obtain ⟨b, action, env⟩ := l
  have hsound := sound_next h.sound henabled hcondition.1
  obtain ⟨htidy, haccount, events, htrace, hturn⟩ := turn_step h henabled hcondition
  obtain ⟨-, harrives⟩ := henabled
  dsimp only at harrives
  have hmessages : (arrival (t b) action).toList.filterMap message =
      ((arrival (t b) action).bind message).toList := by
    cases arrival (t b) action with
    | none => rfl
    | some p => cases hm : message p <;> simp [hm]
  have hgauge : (fun c => gauge ((Pair.next cfg t st (b, action, env)).ends c).sockets) =
      Function.update (fun c => gauge (st.ends c).sockets) b
        (gauge (step (cfg b) env (st.ends b) action).sockets) := by
    funext c
    rcases StreamProtocol.side_cases b c with rfl | rfl
    · simp [Pair.next, Pair.act]
    · simp [Pair.next, Pair.act]
  refine ⟨hsound, fun c => ?_, fun c => ?_, fun c => ?_, fun c => ?_⟩
  · rcases StreamProtocol.side_cases b c with rfl | rfl
    · simpa [Pair.next, Pair.act] using htidy
    · simpa [Pair.next, Pair.act] using h.tidy (!b)
  · rcases StreamProtocol.side_cases b c with rfl | rfl
    · simpa [Pair.next, Pair.act] using haccount
    · simpa [Pair.next, Pair.act] using h.account (!b)
  · rcases StreamProtocol.side_cases b c with rfl | rfl
    · cases harrival : arrival (t c) action with
      | none => simpa [Pair.next, Pair.act, harrival] using h.order c
      | some p => simpa [Pair.next, Pair.act, harrival] using harrives p harrival
    · have horder := h.order (!b)
      rw [Bool.not_not] at horder
      simpa [Pair.next, Pair.act] using horder.trans (carried_append (t := t b) htrace)
  · rw [hgauge]
    change Credited (linked t (st.act b (step (cfg b) env (st.ends b) action)
      (arrival (t b) action).toList)) _ c
    rw [linked_act htrace, hmessages]
    refine credited_turn h.sound.coherent h.credited hturn (fun m hm => ?_) c
    obtain ⟨p, hp, hm⟩ := Option.bind_eq_some_iff.mp hm
    exact sent_of_arrival hm (harrives p hp)

theorem flows_of_reachable (h : (pairSystem cfg t).ReachableWhen (Plain cfg t) st) :
    Flows t st := by
  refine h.invariant (I := Flows t) ?_ ?_
  · rintro st rfl
    exact flows_initial
  · exact fun st l hflows henabled hcondition => flows_next hflows henabled hcondition

/-- The packets that are on their way to a side. -/
def underway (t : Bool → TransportRef) (st : Pair) (b : Bool) : List Apacket :=
  (carried (t !b) (st.ends !b)).drop (st.heard b).length

theorem mem_inFlight (h : Flows t st) {m : Message Bytes} :
    m ∈ inFlight (linked t st) b ↔ ∃ p ∈ underway t st b, message p = some m := by
  obtain ⟨later, hlater⟩ := h.order b
  have hsent : (linked t st).sent (!b) = (linked t st).heard b ++ later.filterMap message := by
    change messagesOn (t !b) (st.ends !b).sockets.trace = _
    rw [← messages_carried, ← hlater, List.filterMap_append]
    rfl
  rw [inFlight, hsent, List.drop_left, underway, ← hlater, List.drop_left, List.mem_filterMap]

theorem payloads_carried (t : TransportRef) (st : Server) (i j : Nat) :
    payloads i j (carried t st) = payloads i j (sentOn t st.sockets.trace) := by
  rw [carried, payloads, List.filterMap_filter, payloads]
  congr 1
  funext p
  by_cases hc : p.command = .aWrte
  · simp [hc]
  · simp [hc]

theorem Flows.written_of_read (h : Flows t st) (b : Bool) (i j : Nat) :
    streamWritten (t b) j i (st.ends b).sockets.trace <+:
      streamRead (t !b) i j (st.ends !b).sockets.trace := by
  cases hsince : sinceJoined (t b) j i (st.ends b).sockets.trace with
  | none =>
      rw [streamWritten, hsince]
      exact List.nil_prefix
  | some x =>
      obtain ⟨before, hsplit⟩ := sinceJoined_eq_some hsince
      have hi : i ≠ 0 := (h.sound.recorded b).proper x.1 i j (by simp [hsplit])
      obtain ⟨more, hmore⟩ := delivered_of_sent h.sound b i j
      have hsent : (delivered (t b) i j (st.ends b).sockets.trace).flatten <+:
          bytesSent (t !b) i j (st.ends !b).sockets.trace := by
        rw [bytesSent, ← payloads_carried, ← hmore, List.flatten_append]
        exact List.prefix_append _ _
      exact ((written_of_delivered (h.account b)).trans hsent).trans
        (sent_of_read (h.account !b) (Nat.pos_of_ne_zero hi))

/-- For the direction from the stream `i` of one side to the stream `j` of the other: the
bytes that were written to the sink's descriptor are the first of those that were read
from the source's since they were joined, and while both ends are joined the source may
read, or its data is on the way, or waits to be written, or is being answered. -/
theorem streams_flow (h : (pairSystem cfg t).ReachableWhen (Plain cfg t) st) (b : Bool)
    (i j : Nat) :
    streamWritten (t b) j i (st.ends b).sockets.trace <+:
        streamRead (t !b) i j (st.ends !b).sockets.trace ∧
      ∀ s q, Joined (t !b) (st.ends !b).sockets s i j → Joined (t b) (st.ends b).sockets q j i →
        Reads (st.ends !b).sockets s ∨
          (∃ p ∈ underway t st b, p.command = .aWrte ∧ p.arg0 = i ∧ p.arg1 = j) ∨
          (∃ a, (st.ends b).sockets.heap q = some a ∧ a.pkts ≠ [] ∧ a.fde.state.write = true) ∨
          ∃ p ∈ underway t st (!b), p.command = .aOkay ∧ p.arg0 = j ∧ p.arg1 = i := by
  have hflows := flows_of_reachable h
  refine ⟨hflows.written_of_read b i j, fun s q hs hq => ?_⟩
  have hwf := fun c => (hflows.sound.settled c).wellFormed
  have hstage : (view (t b) (st.ends b).sockets).stage j = .joined i :=
    (stage_joined (hwf b)).mpr ⟨q, hq⟩
  have hcredit := hflows.credited (!b) i j ((stage_joined (hwf !b)).mpr ⟨s, hs⟩)
  rw [Bool.not_not] at hcredit
  rcases hcredit with hrefuses | hready | ⟨data, hdata⟩ | ⟨-, hholds⟩ | hokay
  · exact absurd hstage hrefuses.2
  · exact .inl ((ready_joined (hwf !b) hs).mp hready)
  · obtain ⟨p, hp, hm⟩ := (mem_inFlight hflows).mp hdata
    exact .inr (.inl ⟨p, hp, message_write hm⟩)
  · obtain ⟨a, ha, hpkts⟩ := (holds_joined (hwf b) hq).mp hholds
    obtain ⟨a', ha', hlisted, -⟩ := hq.listed (hwf b)
    obtain rfl := Option.some.inj (ha.symm.trans ha')
    exact .inr (.inr (.inl ⟨a, ha, hpkts, ((hwf b).socket q a ha).queue
      (isLocal_of_listed (hflows.tidy b) ha hlisted) hpkts⟩))
  · obtain ⟨p, hp, hm⟩ := (mem_inFlight hflows).mp hokay
    exact .inr (.inr (.inr ⟨p, hp, message_okay hm⟩))

end Pairs

instance (host : Bool) (p : Apacket) : Decidable (AsksPlainly host p) :=
  inferInstanceAs (Decidable (p.command = .aOpen → host = false → _ ∧ _))

instance (cfg : Config) : (action : Action) → Decidable (OpensPlainly cfg action)
  | .packet _ p => inferInstanceAs (Decidable (AsksPlainly cfg.host p))
  | .poll _ _ | .dispatch _ | .subprocExited _ _ | .accept _ | .acceptSmart | .jdwpUpdated
  | .register _ _ _ | .remove _ | .reverseRequest _ | .frameworkConnect | .frameworkRead _ _ =>
      inferInstanceAs (Decidable True)

instance (cfg : Bool → Config) (t : Bool → TransportRef) (st : Pair)
    (l : Bool × Action × Oracle) : Decidable (Plain cfg t st l) :=
  inferInstanceAs (Decidable (_ ∧ _))

/-- The server's socket has taken one of the two bytes that its client sent. -/
def writePartly : List (Bool × Action × Oracle) :=
  sendForwarded.append
    [(true, .poll 0 .writable, {}), (true, .dispatch 0, { writes := [.wrote 1] })]

def partly : Pair :=
  (pairSystem (plainConfig · false) fun _ => 0).execute .initial writePartly

theorem reachable_partly :
    (pairSystem (plainConfig · false) fun _ => 0).ReachableWhen
      (Plain (plainConfig · false) fun _ => 0) partly :=
  System.reachableWhen_execute ⟨.initial, rfl, .refl⟩ (by decide)

theorem streams_flow_partly :
    streamWritten 0 1 1 (partly.ends true).sockets.trace = ascii "h" ∧
      streamRead 0 1 1 (partly.ends false).sockets.trace = ascii "hi" ∧
      Joined 0 (partly.ends false).sockets 0 1 1 ∧ Joined 0 (partly.ends true).sockets 0 1 1 ∧
      streamWritten 0 1 1 (partly.ends true).sockets.trace <+:
        streamRead 0 1 1 (partly.ends false).sockets.trace ∧
      ∀ s q, Joined 0 (partly.ends false).sockets s 1 1 →
        Joined 0 (partly.ends true).sockets q 1 1 →
        Reads (partly.ends false).sockets s ∨
          (∃ p ∈ underway (fun _ => 0) partly true,
            p.command = .aWrte ∧ p.arg0 = 1 ∧ p.arg1 = 1) ∨
          (∃ a, (partly.ends true).sockets.heap q = some a ∧ a.pkts ≠ [] ∧
            a.fde.state.write = true) ∨
          ∃ p ∈ underway (fun _ => 0) partly false,
            p.command = .aOkay ∧ p.arg0 = 1 ∧ p.arg1 = 1 :=
  ⟨by decide, by decide, ⟨_, 1, _, rfl, rfl, rfl, rfl, rfl, rfl, rfl⟩,
    ⟨_, 1, _, rfl, rfl, rfl, rfl, rfl, rfl, rfl⟩, streams_flow reachable_partly true 1 1⟩

end Adb.StreamCredit
