import Adb.HostReplies

/-!
A request to the server gets one reply.  An `emulator:` request gets none, and
the text of a reply is left out when it is too long for `SendProtocolString`.
-/

namespace Adb.SingleReplies

open Adb.DescriptorIo
open Adb.EventInterest
open Adb.HostReplies
open Adb.ProtocolStrings
open Adb.ServerState
open Adb.SmartSockets (HostService)
open Adb.SocketTable
open Adb.WirePackets

/-- One or more `OKAY`, and a text with its length if there is one; or `FAIL` and
a text with its length. -/
inductive OneReply : Bytes → Prop where
  | okays (n : Nat) : OneReply (List.replicate (n + 1) okay).flatten
  | okaysText (n : Nat) {s text : Bytes} (h : sendProtocolString s = some text) :
      OneReply ((List.replicate (n + 1) okay).flatten ++ text)
  | fail {message text : Bytes} (h : sendProtocolString message = some text) :
      OneReply (ascii "FAIL" ++ text)

/-- One reply, or `FAIL` with a message that is too long to be written. -/
def Answered (bytes : Bytes) : Prop :=
  OneReply bytes ∨
    ∃ message, sendProtocolString message = none ∧ bytes = (sendFail message).2

/-- A request fails with a number that stands for a request without a reply: the
ones that return what `SendFail` or `SendProtocolString` return. -/
def RepliesTwice (host : Surroundings) (request : HostService) : Prop :=
  ((request.command = ascii "get-serialno" ∨ request.command = ascii "get-devpath" ∨
      request.command = ascii "get-state") ∧
    ∃ message, acquireOneTransport host.cfg host.server request.type request.serial false =
      .error message) ∨
  ((ascii "disconnect:").isPrefixOf request.command = true ∧
    request.command.drop 11 ≠ [] ∧
    ∃ message, disconnectTarget host (request.command.drop 11) = .error message) ∨
  (request.command = ascii "list-forward" ∧ sendProtocolString (formatListeners host) = none)

variable {host : Surroundings} {request : HostService}

theorem answered_okay : Answered okay := .inl (.okays 0)

theorem answered_okay_okay : Answered (okay ++ okay) := .inl (.okays 1)

theorem answered_okays_protocolText (n : Nat) (s : Bytes) :
    Answered ((List.replicate (n + 1) okay).flatten ++ protocolText s) := by
  cases h : sendProtocolString s with
  | none =>
      rw [protocolText, h, Option.getD_none, List.append_nil]
      exact .inl (.okays n)
  | some text =>
      rw [protocolText, h]
      exact .inl (.okaysText n h)

theorem answered_sendOkay (s : Bytes) : Answered (sendOkay s).2 :=
  answered_okays_protocolText 0 s

theorem answered_sendFail (message : Bytes) : Answered (sendFail message).2 := by
  cases h : sendProtocolString message with
  | none => exact .inr ⟨message, h, rfl⟩
  | some text =>
      rw [sendFail, protocolText, h]
      exact .inl (.fail h)

theorem answered_reportStatus (service : Bytes) (status : InstallStatus) :
    Answered (reportStatus service status) := by
  cases status with
  | ok resolved =>
      rw [reportStatus]
      split
      · exact answered_okays_protocolText 1 _
      · rw [List.append_nil]
        exact answered_okay_okay
  | internalError => exact answered_sendFail _
  | cannotBind error => exact answered_sendFail _
  | cannotRebind => exact answered_sendFail _
  | listenerNotFound => exact answered_sendFail _

theorem answered_withTransport {reply : TransportRef → Bytes} (h : ∀ t, Answered (reply t)) :
    Answered (withTransport host request reply) := by
  rw [withTransport]
  split
  · exact answered_sendFail _
  · next t _ => exact h t

theorem answered_killForward (service : Bytes) : Answered (killForward host request service) := by
  rw [killForward]
  split
  · split
    · exact answered_sendFail _
    · exact answered_withTransport fun _ => answered_reportStatus _ _
  · exact answered_sendFail _

theorem answered_forward (service : Bytes) (noRebind : Bool) :
    Answered (forward host request service noRebind) := by
  rw [forward]
  split
  · split
    · exact answered_sendFail _
    · exact answered_withTransport fun _ => answered_reportStatus _ _
  · exact answered_sendFail _

theorem handleForwardRequest_answers
    (hlist : request.command = ascii "list-forward" →
      sendProtocolString (formatListeners host) ≠ none) :
    ((handleForwardRequest host request).1 = 1 ∧
        Answered (handleForwardRequest host request).2) ∨
      ((handleForwardRequest host request).1 = 0 ∧
        (handleForwardRequest host request).2 = []) := by
  rw [handleForwardRequest]
  split
  · next hcommand =>
      refine .inl ⟨?_, answered_okays_protocolText 0 _⟩
      exact if_pos (Option.isSome_iff_ne_none.mpr (hlist hcommand))
  · split
    · exact .inl ⟨rfl, answered_okay_okay⟩
    · split
      · exact .inl ⟨rfl, answered_killForward _⟩
      · split
        · simp only
          split
          · exact .inl ⟨rfl, answered_forward _ _⟩
          · exact .inl ⟨rfl, answered_forward _ _⟩
        · exact .inr ⟨rfl, rfl⟩

theorem answered_answerAbout (text : TransportRef → Bytes) :
    Answered (answerAbout host request text).2 := by
  rw [answerAbout]
  split
  · exact answered_sendFail _
  · exact answered_sendOkay _

theorem answerAbout_of_ok (text : TransportRef → Bytes)
    (h : ¬ ∃ message, acquireOneTransport host.cfg host.server request.type request.serial false =
      .error message) :
    (answerAbout host request text).1 = 0 := by
  rw [answerAbout]
  split
  · next message hmessage => exact absurd ⟨message, hmessage⟩ h
  · rfl

/-- What `handle_host_request` returns and writes: zero after a reply, another
number without one, and one in any case for a `transport` request. -/
inductive Handled (request : HostService) : Int × Bytes → Prop where
  | replied {bytes : Bytes} (h : Answered bytes) : Handled request (0, bytes)
  | transport {bytes : Bytes} (hcommand : (ascii "transport").isPrefixOf request.command = true)
      (h : Answered bytes) : Handled request (1, bytes)
  | emulator (hcommand : (ascii "emulator:").isPrefixOf request.command = true) :
      Handled request (0, [])
  | notHandled {ret : Int} (hcommand : ¬ (ascii "transport").isPrefixOf request.command = true)
      (h : ret ≠ 0) : Handled request (ret, [])

theorem Handled.of_zero {out : Int × Bytes} (hret : out.1 = 0) (h : Answered out.2) :
    Handled request out := by
  obtain ⟨ret, bytes⟩ := out
  obtain rfl : ret = 0 := hret
  exact .replied h

theorem handled_ite {p : Prop} [Decidable p] {first second : Int × Bytes}
    (hfirst : p → Handled request first) (hsecond : ¬ p → Handled request second) :
    Handled request (if p then first else second) := by
  split
  · next h => exact hfirst h
  · next h => exact hsecond h

theorem handled_sendOkay (s : Bytes) : Handled request (sendOkay s) :=
  .of_zero rfl (answered_sendOkay s)

theorem handled_transport (hcommand : (ascii "transport").isPrefixOf request.command = true)
    (found : Except Bytes TransportRef) :
    Handled request
      (match found with
      | .ok _ => (1, okay)
      | .error message => (1, (sendFail message).2)) := by
  cases found with
  | ok => exact .transport hcommand answered_okay
  | error message => exact .transport hcommand (answered_sendFail message)

theorem handled_disconnect (found : Except Bytes TransportRef) (text : Bytes) :
    (¬ ∃ message, found = .error message) →
    Handled request
      (match found with
      | .error message => sendFail message
      | .ok _ => sendOkay text) := by
  intro h
  cases found with
  | ok => exact handled_sendOkay text
  | error message => exact absurd ⟨message, rfl⟩ h

theorem handled_forward
    (hcommand : ¬ (ascii "transport").isPrefixOf request.command = true)
    (hlist : request.command = ascii "list-forward" →
      sendProtocolString (formatListeners host) ≠ none) :
    Handled request ((handleForwardRequest host request).1 - 1,
      (handleForwardRequest host request).2) := by
  rcases handleForwardRequest_answers hlist with ⟨hret, hbytes⟩ | ⟨hret, hbytes⟩
  · exact .of_zero (by rw [hret]; rfl) hbytes
  · rw [hret, hbytes]
    exact .notHandled hcommand (by decide)

/-- `handle_host_request`, branch by branch in the order of the source. -/
theorem handled_handleHostRequest (honce : ¬ RepliesTwice host request) :
    Handled request (handleHostRequest host request) := by
  rw [RepliesTwice, not_or, not_or] at honce
  obtain ⟨hlookup, hdisconnect, hlist⟩ := honce
  have hanswer : ∀ text, (request.command = ascii "get-serialno" ∨
      request.command = ascii "get-devpath" ∨ request.command = ascii "get-state") →
      Handled request (answerAbout host request text) := fun text hcommand =>
    .of_zero (answerAbout_of_ok text fun h => hlookup ⟨hcommand, h⟩) (answered_answerAbout text)
  rw [handleHostRequest]
  refine handled_ite (fun _ => .replied answered_okay) fun _ => ?_
  refine handled_ite (fun hcommand => handled_transport hcommand _) fun hother => ?_
  refine handled_ite (fun _ => handled_ite (fun _ => handled_sendOkay _) fun _ =>
    .notHandled hother (by decide)) fun _ => ?_
  refine handled_ite (fun _ => handled_sendOkay _) fun _ => ?_
  refine handled_ite (fun _ => .replied (answered_answerAbout _)) fun _ => ?_
  refine handled_ite (fun _ => handled_sendOkay _) fun _ => ?_
  refine handled_ite (fun hcommand => handled_ite (fun _ => handled_sendOkay _) fun haddress =>
    handled_disconnect _ _ fun h => hdisconnect ⟨hcommand, haddress, h⟩) fun _ => ?_
  refine handled_ite (fun _ => handled_sendOkay _) fun _ => ?_
  refine handled_ite (fun hcommand => hanswer _ (.inl hcommand)) fun _ => ?_
  refine handled_ite (fun hcommand => hanswer _ (.inr (.inl hcommand))) fun _ => ?_
  refine handled_ite (fun hcommand => hanswer _ (.inr (.inr hcommand))) fun _ => ?_
  refine handled_ite (fun hcommand => .emulator hcommand) fun _ => ?_
  refine handled_ite (fun _ => handled_sendOkay _) fun _ => ?_
  exact handled_forward hother fun hcommand hnone => hlist ⟨hcommand, hnone⟩

theorem handleHostRequest_emulator
    (h : (ascii "emulator:").isPrefixOf request.command = true) :
    handleHostRequest host request = (0, []) := by
  obtain ⟨rest, hcommand⟩ := List.isPrefixOf_iff_prefix.mp h
  have hhead : request.command.head? = some 101 := by
    rw [← hcommand]
    rfl
  have hne : ∀ {name : Bytes}, name.head? ≠ some 101 → request.command ≠ name := by
    rintro name hname rfl
    exact hname hhead
  have hstart : ∀ {name : Bytes}, name.head? ≠ some 101 → name ≠ [] →
      ¬ name.isPrefixOf request.command = true := by
    intro name hname hnil hprefixed
    obtain ⟨rest, hcommand⟩ := List.isPrefixOf_iff_prefix.mp hprefixed
    rw [← hcommand, List.head?_append_of_ne_nil _ hnil] at hhead
    exact hname hhead
  rw [handleHostRequest, if_neg (hne (by decide)), if_neg (hstart (by decide) (by decide)),
    if_neg (hstart (by decide) (by decide)), if_neg (hne (by decide)), if_neg (hne (by decide)),
    if_neg (hne (by decide)), if_neg (hstart (by decide) (by decide)), if_neg (hne (by decide)),
    if_neg (hne (by decide)), if_neg (hne (by decide)), if_neg (hne (by decide)), if_pos h]

/-- For every request to the server, every serial and every state of transports
and listeners, except the failures that are reported twice: an `emulator:`
request gets no reply, and any other request gets one. -/
theorem host_request_one_reply (host : Surroundings) (request : HostService)
    (honce : ¬ RepliesTwice host request) :
    if (ascii "emulator:").isPrefixOf request.command then replyTo host request = []
    else Answered (replyTo host request) := by
  rw [replyTo]
  split
  · next hcommand =>
      rw [handleHostRequest_emulator hcommand]
      rfl
  · next hcommand =>
      generalize hout : handleHostRequest host request = out
      have hhandled := handled_handleHostRequest honce
      rw [hout] at hhandled
      cases hhandled with
      | replied h => exact h
      | emulator hemulator => exact absurd hemulator hcommand
      | transport htransport h =>
          simp only [htransport, if_true]
          exact h
      | notHandled hother h =>
          simp only [h, if_false, hother, Bool.false_eq_true, List.nil_append]
          split
          · exact answered_okay
          · exact answered_sendFail _

/-! ## The number that `handle_host_request` returns -/

section Returned

variable {α : Type} {ctx : SocketOperations.ServiceContext} {st : Sockets} {s client : SocketRef}

theorem fst_ite_congr {p : Prop} [Decidable p] {a b : Int × α} {c d : Int × Bytes}
    (hthen : p → a.1 = c.1) (helse : ¬ p → b.1 = d.1) :
    (if p then a else b).1 = (if p then c else d).1 := by
  split
  · next h => exact hthen h
  · next h => exact helse h

theorem handleForwardRequest_ret (hwritten : ctx.replyWritten = true)
    (hlist : request.command = ascii "list-forward" →
      sendProtocolString (formatListeners host) ≠ none) :
    (SmartSockets.handleForwardRequest ctx st client request).1 =
      (handleForwardRequest host request).1 := by
  rw [SmartSockets.handleForwardRequest, handleForwardRequest]
  refine fst_ite_congr (fun hcommand => ?_) fun _ => ?_
  · rw [hwritten, if_pos rfl, if_pos (Option.isSome_iff_ne_none.mpr (hlist hcommand))]
  · rcases Decidable.em (request.command = ascii "killforward-all") with hall | hall
    · rw [if_pos hall, if_pos (.inl hall)]
    · rw [if_neg hall]
      rcases Decidable.em ((ascii "killforward:").isPrefixOf request.command = true) with hkill | hkill
      · rw [if_pos hkill, if_pos (.inr (.inr hkill))]
      · rw [if_neg hkill]
        rcases Decidable.em ((ascii "forward:").isPrefixOf request.command = true) with hadd | hadd
        · rw [if_pos hadd, if_pos (.inr (.inl hadd))]
          dsimp only
          rw [apply_ite Prod.fst, ite_self]
        · rw [if_neg hadd, if_neg]
          rintro (h | h | h)
          · exact hall h
          · exact hadd h
          · exact hkill h

theorem handleHostRequest_ret
    (hacquire : ∀ type serial,
      ctx.acquire type serial = acquireOneTransport host.cfg host.server type serial false)
    (hfind : ∀ address, ctx.findDevice address = disconnectTarget host address)
    (hwritten : ctx.replyWritten = true) (honce : ¬ RepliesTwice host request) :
    (SmartSockets.handleHostRequest ctx st s client request).1 =
      (handleHostRequest host request).1 := by
  rw [RepliesTwice, not_or, not_or] at honce
  obtain ⟨hlookup, hdisconnect, hlist⟩ := honce
  rw [SmartSockets.handleHostRequest, handleHostRequest]
  refine fst_ite_congr (fun _ => rfl) fun _ => ?_
  refine fst_ite_congr (fun _ => ?_) fun _ => ?_
  · dsimp only
    rw [hacquire]
    cases acquireOneTransport host.cfg host.server _ _ false with
    | ok => rfl
    | error => rfl
  refine fst_ite_congr (fun _ => fst_ite_congr (fun _ => rfl) fun _ => rfl) fun _ => ?_
  refine fst_ite_congr (fun _ => rfl) fun _ => ?_
  refine fst_ite_congr (fun _ => ?_) fun _ => ?_
  · rw [SmartSockets.answerAbout]
    cases ctx.acquire request.type request.serial with
    | ok => rfl
    | error => rfl
  refine fst_ite_congr (fun _ => rfl) fun _ => ?_
  refine fst_ite_congr (fun hcommand => fst_ite_congr (fun _ => rfl) fun haddress => ?_) fun _ => ?_
  · rw [hfind]
    cases hfound : disconnectTarget host (request.command.drop 11) with
    | ok => rfl
    | error message => exact absurd ⟨hcommand, haddress, message, hfound⟩ hdisconnect
  refine fst_ite_congr (fun _ => rfl) fun _ => ?_
  have hanswer : (request.command = ascii "get-serialno" ∨ request.command = ascii "get-devpath" ∨
      request.command = ascii "get-state") → ∀ text,
      (SmartSockets.answerAbout ctx st client request (SmartSockets.sendFailResult ctx)).1 =
        (answerAbout host request text).1 := by
    intro hcommand text
    rw [answerAbout_of_ok text fun h => hlookup ⟨hcommand, h⟩, SmartSockets.answerAbout, hacquire]
    cases hfound : acquireOneTransport host.cfg host.server request.type request.serial false with
    | ok => rfl
    | error message => exact absurd ⟨hcommand, message, hfound⟩ hlookup
  rcases Decidable.em (request.command = ascii "get-serialno") with hserial | hserial
  · rw [if_pos (.inl hserial), if_pos hserial]
    exact hanswer (.inl hserial) _
  rcases Decidable.em (request.command = ascii "get-devpath") with hdevpath | hdevpath
  · rw [if_pos (.inr (.inl hdevpath)), if_neg hserial, if_pos hdevpath]
    exact hanswer (.inr (.inl hdevpath)) _
  rcases Decidable.em (request.command = ascii "get-state") with hstate | hstate
  · rw [if_pos (.inr (.inr hstate)), if_neg hserial, if_neg hdevpath, if_pos hstate]
    exact hanswer (.inr (.inr hstate)) _
  rw [if_neg hserial, if_neg hdevpath, if_neg hstate, if_neg (by
    rintro (h | h | h)
    · exact hserial h
    · exact hdevpath h
    · exact hstate h)]
  refine fst_ite_congr (fun _ => rfl) fun _ => ?_
  refine fst_ite_congr (fun _ => rfl) fun _ => ?_
  exact congrArg (· - 1) (handleForwardRequest_ret hwritten fun hcommand hnone =>
    hlist ⟨hcommand, hnone⟩)

end Returned

section Samples

theorem four_le_length_sendProtocolString {s text : Bytes} (h : sendProtocolString s = some text) :
    4 ≤ text.length := by
  rw [sendProtocolString] at h
  split at h
  · cases h
  · obtain rfl := Option.some.inj h
    rw [List.length_append]
    exact Nat.le_add_right_of_le (four_le_length_hex04 _)

/-- A reply starts with `OKAY`, or it is a `FAIL` with a length. -/
theorem OneReply.start {bytes : Bytes} (h : OneReply bytes) :
    bytes.take 4 = okay ∨ (bytes.take 4 = ascii "FAIL" ∧ 8 ≤ bytes.length) := by
  cases h with
  | okays n => exact .inl rfl
  | okaysText n h => exact .inl rfl
  | fail h =>
      refine .inr ⟨rfl, ?_⟩
      have hlen := four_le_length_sendProtocolString h
      rw [List.length_append]
      exact Nat.add_le_add_left hlen 4

/-- A server with one device, in this state. -/
noncomputable def loneHost (state : ConnectionState) (vendorKeys : Option Bytes) : Surroundings where
  cfg :=
    { host := true
      authRequired := true
      adbdAuthVerify := fun _ _ => false
      matchesTarget := fun _ _ => false
      noPermText := []
      vendorKeys := vendorKeys
      connectionString := [] }
  server :=
    { Server.initial with
      transports := fun _ => .blank state .usb
      transportList := [0] }
  texts := fun _ => ⟨some (ascii "emu"), none, none, none, none, ∅⟩
  traversal := Banners.someTraversal
  shouldUseLibusb := false
  usbNoPermissionsShortHelpText := []
  parseNetAddress := fun _ => .error []
  socketSpecListen := fun _ => .error []

theorem replyTo_features_unauthorized (vendorKeys : Option Bytes) :
    replyTo (loneHost .unauthorized vendorKeys) ⟨.any, none, ascii "features"⟩ =
      (sendFail (unauthorizedText (loneHost .unauthorized vendorKeys).cfg)).2 := rfl

/-- An `emulator:` request gets no reply; and the message about a device that is
not authorized names `$ADB_VENDOR_KEYS`, which can be too long for a message. -/
theorem host_request_without_reply :
    ¬ OneReply (replyTo (loneHost .device none) ⟨.any, none, ascii "emulator:5555"⟩) ∧
      ¬ OneReply (replyTo (loneHost .unauthorized (some (List.replicate (2 ^ 18) 107)))
        ⟨.any, none, ascii "features"⟩) := by
  refine ⟨?_, ?_⟩
  · rw [replyTo, handleHostRequest_emulator (by decide)]
    intro h
    rcases h.start with hstart | ⟨hstart, _⟩
    · cases hstart
    · cases hstart
  · have hlong : sendProtocolString (unauthorizedText
        (loneHost .unauthorized (some (List.replicate (2 ^ 18) 107))).cfg) = none := by
      rw [sendProtocolString]
      refine if_pos ?_
      simp only [unauthorizedText, loneHost, Option.getD_some, List.length_append,
        List.length_replicate]
      decide
    rw [replyTo_features_unauthorized, sendFail, protocolText, hlong]
    intro h
    rcases h.start with hstart | ⟨_, hlength⟩
    · exact absurd hstart (by decide)
    · exact absurd hlength (by decide)

theorem host_request_one_reply_state :
    replyTo (loneHost .device none) ⟨.any, none, ascii "get-state"⟩ = ascii "OKAY0006device" ∧
      Answered (replyTo (loneHost .device none) ⟨.any, none, ascii "get-state"⟩) := by
  refine ⟨rfl, ?_⟩
  refine host_request_one_reply (loneHost .device none) ⟨.any, none, ascii "get-state"⟩ ?_
  rintro (⟨_, message, hmessage⟩ | ⟨hcommand, _⟩ | ⟨hcommand, _⟩)
  · cases hmessage
  · exact absurd hcommand (by decide)
  · exact absurd hcommand (by decide)

end Samples

end Adb.SingleReplies
