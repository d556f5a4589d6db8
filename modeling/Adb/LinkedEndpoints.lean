import Adb.StreamMessages

/-!
A server and a daemon that are connected by one transport, or any two such
processes: their runs in any order, over a link that loses and reorders nothing.
The pair is two endpoints of the stream protocol, so what is handed to a joined
socket is what the other side has written to its stream.
-/

namespace Adb.LinkedEndpoints

open Adb.DescriptorIo
open Adb.WirePackets
open Adb.SocketTable
open Adb.SocketGraph
open Adb.GraphInvariants
open Adb.ServerState
open Adb.ServerRuns
open Adb.ServerEffects
open Adb.TransportIsolation
open Adb.TransitionSystems
open Adb.StreamSends
open Adb.StreamProtocol (Message Linked Coherent Moves Takes writes)
open Adb.StreamLinks
open Adb.StreamCallbacks
open Adb.StreamViews
open Adb.StreamMessages

/-- The packets of a transport that reach the other side: the SYNC packets are for
the threads of the transport. -/
def carried (t : TransportRef) (st : Server) : List Apacket :=
  (sentOn t st.sockets.trace).filter (·.command ≠ .aSync)

/-- The packet of the other side that a callback is about. -/
def arrival (t : TransportRef) : Action → Option Apacket
  | .packet t' p => if t' = t ∧ p.command ≠ .aSync then some p else none
  | _ => none

/-- Two processes, and what each has read from the link. -/
structure Pair where
  ends : Bool → Server
  heard : Bool → List Apacket

namespace Pair

def initial : Pair where
  ends _ := .initial
  heard _ := []

/-- One side has run, and has read these packets. -/
def act (st : Pair) (b : Bool) (server : Server) (packets : List Apacket) : Pair where
  ends := Function.update st.ends b server
  heard := Function.update st.heard b (st.heard b ++ packets)

def next (cfg : Bool → Config) (t : Bool → TransportRef) (st : Pair)
    (l : Bool × Action × Oracle) : Pair :=
  st.act l.1 (step (cfg l.1) l.2.2 (st.ends l.1) l.2.1) (arrival (t l.1) l.2.1).toList

/-- The packets arrive in the order in which they were sent. -/
def Enabled (cfg : Bool → Config) (t : Bool → TransportRef) (st : Pair)
    (l : Bool × Action × Oracle) : Prop :=
  (serverSystem (cfg l.1)).enabled (st.ends l.1) l.2 ∧
    ∀ p ∈ arrival (t l.1) l.2.1, st.heard l.1 ++ [p] <+: carried (t !l.1) (st.ends !l.1)

end Pair

def pairSystem (cfg : Bool → Config) (t : Bool → TransportRef) :
    System Pair (Bool × Action × Oracle) where
  initial st := st = .initial
  enabled := Pair.Enabled cfg t
  next := Pair.next cfg t

/-- The messages about streams come while the transport is online, and those of
other transports name no socket of this one. -/
def Undisturbed (t : Bool → TransportRef) (st : Pair) (l : Bool × Action × Oracle) : Prop :=
  Apart (t l.1) (st.ends l.1) l.2.1 ∧
    ∀ p ∈ arrival (t l.1) l.2.1, Command.isStream p.command = true →
      ((st.ends l.1).transports (t l.1)).online = true

instance (t : TransportRef) (st : Server) : (action : Action) → Decidable (Apart t st action)
  | .packet t' p => inferInstanceAs (Decidable (t' ≠ t → actsOn (st.transports t').online p = true →
      ∀ s ∈ addressed st.sockets t' p, ¬ Belongs st.sockets s t))
  | .poll _ _ | .dispatch _ | .subprocExited _ _ | .accept _ | .acceptSmart | .jdwpUpdated
  | .register _ _ _ | .remove _ | .reverseRequest _ | .frameworkConnect | .frameworkRead _ _ =>
      inferInstanceAs (Decidable True)

instance (cfg : Bool → Config) (t : Bool → TransportRef) (st : Pair)
    (l : Bool × Action × Oracle) : Decidable ((pairSystem cfg t).enabled st l) :=
  inferInstanceAs (Decidable (_ ∧ _))

instance (t : Bool → TransportRef) (st : Pair) (l : Bool × Action × Oracle) :
    Decidable (Undisturbed t st l) :=
  inferInstanceAs (Decidable (_ ∧ _))

/-- What `WRTE` packets carry from the stream `i` to the stream `j`. -/
def payloads (i j : Nat) (packets : List Apacket) : List Bytes :=
  packets.filterMap fun p =>
    if p.command = .aWrte ∧ p.arg0 = i ∧ p.arg1 = j then some p.data else none

/-- The pair as two endpoints of the stream protocol. -/
def linked (t : Bool → TransportRef) (st : Pair) : Linked Bytes where
  ends c := view (t c) (st.ends c).sockets
  sent c := messagesOn (t c) (st.ends c).sockets.trace
  heard c := (st.heard c).filterMap message

structure Sound (t : Bool → TransportRef) (st : Pair) : Prop where
  settled : ∀ c, Settled (st.ends c).sockets
  recorded : ∀ c, Recorded (t c) (st.ends c).sockets
  coherent : ∀ c, Coherent (linked t st) c

section Packets

theorem messages_carried (t : TransportRef) (st : Server) :
    (carried t st).filterMap message = messagesOn t st.sockets.trace := by
  rw [carried, List.filterMap_filter, messagesOn]
  congr 1
  funext p
  by_cases hsync : p.command = .aSync
  · simp [message, hsync]
  · simp [hsync]

theorem writes_messages {i j : Nat} (hi : i ≠ 0) (hj : j ≠ 0) (packets : List Apacket) :
    writes i j (packets.filterMap message) = payloads i j packets := by
  rw [writes, List.filterMap_filterMap, payloads]
  congr 1
  funext p
  cases hc : p.command with
  | aWrte =>
      by_cases hpair : p.arg0 = i ∧ p.arg1 = j
      · simp [message, hc, hpair, hi, hj]
      · by_cases hproper : p.arg0 ≠ 0 ∧ p.arg1 ≠ 0
        · simp [message, hc, hpair, hproper]
        · simp [message, hc, hpair, hproper]
  | aOpen | aOkay | aClse =>
      simp only [message, hc]
      split <;> simp
  | _ => simp [message, hc]

theorem writes_messages_eq_nil {i j : Nat} (h : i = 0 ∨ j = 0) (packets : List Apacket) :
    writes i j (packets.filterMap message) = [] := by
  refine StreamProtocol.writes_eq_nil fun m hm hspeaks => ?_
  obtain ⟨p, -, hp⟩ := List.mem_filterMap.mp hm
  obtain ⟨rfl, rfl, hids, -⟩ := message_speaks hp hspeaks
  exact h.elim hids.1 hids.2

theorem arrival_eq_some {t : TransportRef} {action : Action} {p : Apacket} :
    arrival t action = some p ↔ action = .packet t p ∧ p.command ≠ .aSync := by
  cases action with
  | packet t' p' =>
      rw [arrival]
      constructor
      · intro h
        split at h
        · rename_i hp
          obtain rfl := Option.some.inj h
          exact ⟨by rw [hp.1], hp.2⟩
        · cases h
      · rintro ⟨⟨⟩, hp⟩
        exact if_pos ⟨rfl, hp⟩
  | _ => simp [arrival]

theorem message_of_not_stream {p : Apacket} (hp : Command.isStream p.command = false) :
    message p = none := by
  cases hc : p.command <;> simp_all [message, Command.isStream]

theorem isSome_message (p : Apacket) : (message p).isSome = actsOn true p := by
  unfold message actsOn
  cases p.command with
  | aOpen | aOkay | aWrte | aClse =>
      dsimp only
      split <;> simp_all
  | _ => rfl

end Packets

section Pairs

variable {cfg : Bool → Config} {t : Bool → TransportRef} {st : Pair} {b : Bool} {server : Server}
  {packets : List Apacket} {events : List Event}

theorem linked_act (htrace : server.sockets.trace = (st.ends b).sockets.trace ++ events) :
    linked t (st.act b server packets) = (linked t st).act b (view (t b) server.sockets)
      (messagesOn (t b) events) (packets.filterMap message) := by
  refine Linked.ext (funext fun c => ?_) (funext fun c => ?_) (funext fun c => ?_)
  · rcases StreamProtocol.side_cases b c with rfl | rfl
    · simp [linked, Pair.act]
    · simp [linked, Pair.act]
  · rcases StreamProtocol.side_cases b c with rfl | rfl
    · simp [linked, Pair.act, htrace, messagesOn_append]
    · simp [linked, Pair.act]
  · rcases StreamProtocol.side_cases b c with rfl | rfl
    · simp [linked, Pair.act]
    · simp [linked, Pair.act]

theorem sent_of_arrival {p : Apacket} {m : Message Bytes} (hm : message p = some m)
    (hnext : st.heard b ++ [p] <+: carried (t !b) (st.ends !b)) :
    ∃ rest, (linked t st).sent (!b) = (linked t st).heard b ++ m :: rest := by
  obtain ⟨later, hlater⟩ := hnext
  refine ⟨later.filterMap message, ?_⟩
  change messagesOn (t !b) (st.ends !b).sockets.trace = _
  rw [← messages_carried, ← hlater]
  simp [linked, hm]

theorem coherent_kept (h : Sound t st)
    (hkept : Kept (t b) (st.ends b).sockets server.sockets)
    (hpackets : packets.filterMap message = []) (c : Bool) :
    Coherent (linked t (st.act b server packets)) c := by
  obtain ⟨events, htrace, hmoves⟩ := moves_of_kept (h.recorded b) hkept
  rw [linked_act htrace, hpackets]
  exact StreamProtocol.coherent_move h.coherent hmoves c

theorem coherent_heard (h : Sound t st) {p : Apacket} {m : Message Bytes} {st₀ : Sockets}
    (hm : message p = some m) (hnext : st.heard b ++ [p] <+: carried (t !b) (st.ends !b))
    (hkept : Kept (t b) (st.ends b).sockets st₀)
    (hhears : Hears (t b) st₀ m server.sockets) (c : Bool) :
    Coherent (linked t (st.act b server [p])) c := by
  obtain ⟨st₁, st₂, events, hbefore, htrace, htakes, hrecorded, hafter⟩ := hhears
  obtain ⟨before, htrace₁, hmoves₁⟩ := moves_of_kept (h.recorded b) (hkept.trans hbefore)
  obtain ⟨after, htrace₃, hmoves₃⟩ := moves_of_kept hrecorded hafter
  obtain ⟨rest, hsent⟩ := sent_of_arrival hm hnext
  have htotal : server.sockets.trace =
      (st.ends b).sockets.trace ++ (before ++ (events ++ after)) := by
    rw [htrace₃, htrace, htrace₁]
    simp
  rw [linked_act htotal, messagesOn_append, messagesOn_append]
  have hheard : [p].filterMap message = [m] := by simp [hm]
  rw [hheard]
  exact StreamProtocol.coherent_hears h.coherent hsent hmoves₁ htakes hmoves₃ c

/-- A stream is joined or gone when data for it arrives. -/
theorem settled_of_write (h : Sound t st) {p : Apacket} {i j : Nat} {data : Bytes}
    (hm : message p = some (.write i j data))
    (hnext : st.heard b ++ [p] <+: carried (t !b) (st.ends !b)) :
    (stage (t b) (st.ends b).sockets j).Settled := by
  obtain ⟨rest, hsent⟩ := sent_of_arrival hm hnext
  rcases StreamProtocol.settled_of_arrival h.coherent hsent ⟨rfl, rfl⟩ with hsettled | ⟨hokay, -⟩
  · exact hsettled
  · cases hokay

theorem sound_initial : Sound t .initial where
  settled c := @settled_of_reachable (plainConfig c false) .initial ⟨.initial, rfl, .refl⟩
  recorded c := recorded_initial
  coherent := by
    refine StreamProtocol.coherent_silent (fun _ => rfl) (fun _ => rfl) (fun _ _ _ => rfl) ?_
    intro c i j hjoined
    have hstage : stage (t c) Sockets.initial i = .joined j := hjoined
    obtain ⟨s, a, q, d, ha, -⟩ := (stage_joined wellFormed_initial).mp hstage
    cases ha

theorem sound_next {l : Bool × Action × Oracle} (h : Sound t st)
    (henabled : Pair.Enabled cfg t st l) (hcondition : Undisturbed t st l) :
    Sound t (Pair.next cfg t st l) := by
  obtain ⟨b, action, env⟩ := l
  obtain ⟨⟨-, henabled⟩, harrives⟩ := henabled
  obtain ⟨hapart, honline⟩ := hcondition
  dsimp only at henabled harrives hapart honline
  have hsettled : Settled (step (cfg b) env (st.ends b) action).sockets :=
    (h.settled b).next (l := (action, env)) henabled
  suffices hb : Recorded (t b) (step (cfg b) env (st.ends b) action).sockets ∧
      ∀ c, Coherent (linked t (st.act b (step (cfg b) env (st.ends b) action)
        (arrival (t b) action).toList)) c by
    refine ⟨fun c => ?_, fun c => ?_, hb.2⟩
    · rcases StreamProtocol.side_cases b c with rfl | rfl
      · simpa [Pair.next, Pair.act] using hsettled
      · simpa [Pair.next, Pair.act] using h.settled (!b)
    · rcases StreamProtocol.side_cases b c with rfl | rfl
      · simpa [Pair.next, Pair.act] using hb.1
      · simpa [Pair.next, Pair.act] using h.recorded (!b)
  have hquiet : ∀ {p}, message p = none → [p].filterMap message = [] := fun hp => by simp [hp]
  by_cases hmessage : IsMessage (t b) action
  · cases action with
    | packet t' p =>
        obtain ⟨rfl, hstream⟩ := hmessage
        have hsync : p.command ≠ .aSync := by
          intro hsync
          simp [hsync, Command.isStream] at hstream
        have harrival : arrival (t b) (.packet (t b) p) = some p := arrival_eq_some.mpr ⟨rfl, hsync⟩
        have hnext := harrives p harrival
        have hacts := isSome_message p
        rw [← honline p harrival hstream] at hacts
        obtain ⟨ctx, -, hstep⟩ := @step_packet_sockets (cfg b) env (st.ends b) (t b) p hstream
        have hnoted : Kept (t b) (st.ends b).sockets
            ((scripted env (st.ends b)).record (.received (t b) p)) :=
          .of_heap (h.settled b).wellFormed rfl rfl rfl ⟨rfl, rfl⟩ (.single rfl trivial)
        rw [harrival, Option.toList_some]
        rw [← hacts] at hstep
        cases hm : message p with
        | none =>
            rw [hm, Option.isSome_none, if_neg (by simp)] at hstep
            rw [← hstep] at hnoted
            exact ⟨recorded_of_kept (h.recorded b) hnoted, coherent_kept h hnoted (hquiet hm)⟩
        | some m =>
            rw [hm, Option.isSome_some, if_pos rfl] at hstep
            have hhears : Hears (t b) ((scripted env (st.ends b)).record (.received (t b) p)) m
                (step (cfg b) env (st.ends b) (.packet (t b) p)).sockets := by
              rw [hstep]
              refine hears_handleStream hnoted.after (recorded_of_kept (h.recorded b) hnoted) hm ?_
              rintro i j data rfl
              exact settled_of_write h hm hnext
            exact ⟨recorded_of_hears hhears, coherent_heard h hm hnext hnoted hhears⟩
    | _ => exact hmessage.elim
  · have hkept : Kept (t b) (st.ends b).sockets (step (cfg b) env (st.ends b) action).sockets :=
      kept_step (l := (action, env)) (h.settled b) henabled hmessage hapart
    refine ⟨recorded_of_kept (h.recorded b) hkept, coherent_kept h hkept ?_⟩
    cases harrival : arrival (t b) action with
    | none => rfl
    | some p =>
        obtain ⟨rfl, -⟩ := arrival_eq_some.mp harrival
        refine hquiet (message_of_not_stream ?_)
        exact Bool.eq_false_iff.mpr fun hstream => hmessage ⟨rfl, hstream⟩

theorem sound_of_reachable (h : (pairSystem cfg t).ReachableWhen (Undisturbed t) st) :
    Sound t st := by
  refine h.invariant (I := Sound t) ?_ ?_
  · rintro st rfl
    exact sound_initial
  · exact fun st l hsound henabled hcondition => sound_next hsound henabled hcondition

theorem delivered_of_sent (h : Sound t st) (b : Bool) (i j : Nat) :
    delivered (t b) i j (st.ends b).sockets.trace <+:
      payloads i j (carried (t !b) (st.ends !b)) := by
  have haccepted : delivered (t b) i j (st.ends b).sockets.trace <+:
      writes i j (messagesOn (t !b) (st.ends !b).sockets.trace) := (h.coherent b).accepted_sent i j
  rw [← messages_carried] at haccepted
  by_cases hids : i ≠ 0 ∧ j ≠ 0
  · rwa [writes_messages hids.1 hids.2] at haccepted
  · rw [writes_messages_eq_nil (by tauto)] at haccepted
    rw [List.prefix_nil.mp haccepted]
    exact List.nil_prefix

/-- Whatever the two sides do, what has been handed to the socket of a stream is what
the other side has written to it, from the start and in this order; while the
stream is joined nothing that has arrived is missing. -/
theorem streams_in_order (h : (pairSystem cfg t).ReachableWhen (Undisturbed t) st) (b : Bool)
    (i j : Nat) :
    delivered (t b) i j (st.ends b).sockets.trace <+:
        payloads i j (carried (t !b) (st.ends !b)) ∧
      ∀ s, Joined (t b) (st.ends b).sockets s j i →
        delivered (t b) i j (st.ends b).sockets.trace = payloads i j (st.heard b) := by
  have hsound := sound_of_reachable h
  refine ⟨delivered_of_sent hsound b i j, fun s hs => ?_⟩
  have hwf := (hsound.settled b).wellFormed
  have hi : i ≠ 0 := (hsound.recorded b).proper s i j ((hsound.recorded b).joined s i j hs)
  have hj : j ≠ 0 := by
    obtain ⟨a, ha, hlisted, hclosing, rfl⟩ := hs.listed hwf
    exact Nat.ne_of_gt ((hwf.socket s a ha).id hlisted hclosing).1
  rw [← writes_messages hi hj]
  exact (hsound.coherent b).joined i j ((stage_joined hwf).mpr ⟨s, hs⟩)

end Pairs

/-- A device and a server on one link: the device is connected, a client of a listener
there opens a stream to a service of the server, and sends two bytes. -/
def sendForwarded : List (Bool × Action × Oracle) :=
  let greeting : Apacket := { command := .aCnxn, arg0 := 0x01000000, arg1 := 262144, data := [] }
  [(false, .register 0 .offline .usb, {}), (true, .register 0 .offline .usb, {}),
    (true, .packet 0 { command := .aSync, arg0 := 1, arg1 := 1, data := [] }, {}),
    (false, .packet 0 { command := .other 0, arg0 := 0, arg1 := 0, data := [] }, {}),
    (false, .packet 0 greeting, {}), (true, .packet 0 greeting, {}),
    (false, .reverseRequest (ascii "forward:tcp:1;tcp:2"), { listen := some 0 }),
    (false, .accept 0, {}),
    (true, .packet 0 { command := .aOpen, arg0 := 1, arg1 := 0, data := ascii "tcp:2" ++ [0] }, {}),
    (false, .packet 0 { command := .aOkay, arg0 := 1, arg1 := 1, data := [] }, {}),
    (false, .poll 0 .readable, {}),
    (false, .dispatch 0, { reads := [.data (ascii "hi")] }),
    (true, .packet 0 { command := .aWrte, arg0 := 1, arg1 := 1, data := ascii "hi" }, {})]

def forwarded : Pair :=
  (pairSystem (plainConfig · false) fun _ => 0).execute .initial sendForwarded

theorem reachable_forwarded :
    (pairSystem (plainConfig · false) fun _ => 0).ReachableWhen (Undisturbed fun _ => 0)
      forwarded :=
  System.reachableWhen_execute ⟨.initial, rfl, .refl⟩ (by decide)

theorem streams_in_order_forwarded :
    delivered 0 1 1 (forwarded.ends true).sockets.trace = [ascii "hi"] ∧
      delivered 0 1 1 (forwarded.ends true).sockets.trace <+:
        payloads 1 1 (carried 0 (forwarded.ends false)) ∧
      ∀ s, Joined 0 (forwarded.ends true).sockets s 1 1 →
        delivered 0 1 1 (forwarded.ends true).sockets.trace = payloads 1 1 (forwarded.heard true) :=
  ⟨by decide, streams_in_order reachable_forwarded true 1 1⟩

end Adb.LinkedEndpoints
