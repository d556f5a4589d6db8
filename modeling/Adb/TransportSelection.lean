import Adb.TransportTargets
import Mathlib.Data.List.Perm.Basic

/-!
`acquire_one_transport`: the one transport of the list that a client asks for.
-/

namespace Adb.TransportSelection

open Adb.DescriptorIo
open Adb.HostReplies
open Adb.ServerState
open Adb.SocketTable
open Adb.TransportTargets
open Adb.WirePackets

/-- The values of `TransportType` in a request; no transport is of type `host`. -/
inductive RequestType where
  | usb
  | localTransport
  | any
  | host
  deriving DecidableEq, Repr

def RequestType.ofTransportType : TransportType → RequestType
  | .usb => .usb
  | .localTransport => .localTransport
  | .any => .any

/-- What `acquire_one_transport` returns and what it leaves in `*is_ambiguous`
and `*error_out`. -/
structure Acquired where
  result : Option TransportRef
  isAmbiguous : Bool
  errorOut : Bytes
  deriving DecidableEq, Repr

variable (parseNetAddress : ParseNetAddress) (host : Surroundings)

def notFoundText (type : RequestType) (serial : Option Bytes) : Bytes :=
  match serial, type with
  | some serial, _ => ascii "device '" ++ serial ++ ascii "' not found"
  | none, .localTransport => ascii "no emulators found"
  | none, .any => ascii "no devices/emulators found"
  | none, _ => ascii "no devices found"

def ambiguousText (type : RequestType) (serial : Option Bytes) : Bytes :=
  match serial, type with
  | none, .localTransport => ascii "more than one emulator"
  | none, .any => ascii "more than one device/emulator"
  | _, _ => ascii "more than one device"

/-- The branches of the loop that accept a transport. -/
def isRequested (type : RequestType) (serial : Option Bytes) (t : TransportRef) : Bool :=
  let transportType := (host.server.transports t).type
  match serial with
  | some serial => matchesTarget parseNetAddress transportType (host.texts t) serial
  | none =>
      (type = .usb && transportType = .usb) ||
        (type = .localTransport && transportType = .localTransport) || type = .any

/-- The loop over the list, from the result and the text so far. -/
def acquireLoop (type : RequestType) (serial : Option Bytes) :
    List TransportRef → Option TransportRef → Bytes → Acquired
  | [], result, errorOut => ⟨result, false, errorOut⟩
  | t :: ts, result, errorOut =>
      if (host.server.transports t).connectionState = .noPerm then
        acquireLoop type serial ts result
          (if host.cfg.host then host.cfg.noPermText else errorOut)
      else if isRequested parseNetAddress host type serial t then
        match result with
        | some _ => ⟨none, true, ambiguousText type serial⟩
        | none => acquireLoop type serial ts (some t) errorOut
      else acquireLoop type serial ts result errorOut

/-- The end of `acquire_one_transport`: transports that a client can do nothing
with are not returned. -/
def filterState (acceptAnyState : Bool) (acquired : Acquired) : Acquired :=
  match acquired.result with
  | none => acquired
  | some t =>
      let state := (host.server.transports t).connectionState
      if state = .unauthorized ∧ acceptAnyState = false then
        { acquired with result := none, errorOut := unauthorizedText host.cfg }
      else if state = .offline ∧ acceptAnyState = false then
        { acquired with result := none, errorOut := ascii "device offline" }
      else { acquired with errorOut := ascii "success" }

def acquireFrom (transportList : List TransportRef) (type : RequestType)
    (serial : Option Bytes) (acceptAnyState : Bool) : Acquired :=
  filterState host acceptAnyState
    (acquireLoop parseNetAddress host type serial transportList none (notFoundText type serial))

/-- `acquire_one_transport`, on `transport_list`. -/
def acquireOneTransport (type : RequestType) (serial : Option Bytes) (acceptAnyState : Bool) :
    Acquired :=
  acquireFrom parseNetAddress host host.server.transportList type serial acceptAnyState

/-- The transports that a request is about: accessible ones that match the serial
or, without a serial, are of the requested type. -/
def isCandidate (type : RequestType) (serial : Option Bytes) (t : TransportRef) : Bool :=
  (host.server.transports t).connectionState ≠ .noPerm &&
    match serial, type with
    | some serial, _ =>
        matchesTarget parseNetAddress (host.server.transports t).type (host.texts t) serial
    | none, .usb => (host.server.transports t).type = .usb
    | none, .localTransport => (host.server.transports t).type = .localTransport
    | none, .any => true
    | none, .host => false

/-- The only element of a list. -/
def single : List TransportRef → Option TransportRef
  | [t] => some t
  | _ => none

section

variable {parseNetAddress host} {type : RequestType} {serial : Option Bytes}

theorem isCandidate_eq (t : TransportRef) :
    isCandidate parseNetAddress host type serial t =
      ((host.server.transports t).connectionState ≠ .noPerm &&
        isRequested parseNetAddress host type serial t) := by
  cases serial with
  | some serial => rfl
  | none =>
      cases type with
      | usb => simp [isCandidate, isRequested]
      | localTransport => simp [isCandidate, isRequested]
      | any => simp [isCandidate, isRequested]
      | host => simp [isCandidate, isRequested]

theorem single_eq_some {l : List TransportRef} {t : TransportRef} :
    single l = some t ↔ l = [t] := by
  rcases l with - | ⟨a, - | ⟨b, l⟩⟩
  · simp [single]
  · simp [single]
  · simp [single]

theorem acquireLoop_found (list : List TransportRef) (result : Option TransportRef)
    (errorOut : Bytes) :
    (acquireLoop parseNetAddress host type serial list result errorOut).result =
        single (result.toList ++ list.filter (isCandidate parseNetAddress host type serial)) ∧
      ((acquireLoop parseNetAddress host type serial list result errorOut).isAmbiguous = true ↔
        2 ≤ (result.toList ++
          list.filter (isCandidate parseNetAddress host type serial)).length) := by
  induction list generalizing result errorOut with
  | nil =>
      cases result with
      | none => simp [acquireLoop, single]
      | some t => simp [acquireLoop, single]
  | cons t ts ih =>
      rw [acquireLoop.eq_def, List.filter_cons, isCandidate_eq]
      dsimp only
      rcases Decidable.em ((host.server.transports t).connectionState = .noPerm) with hstate | hstate
      · simp only [hstate, if_true, ne_eq, not_true_eq_false, decide_false, Bool.false_and,
          Bool.false_eq_true, if_false]
        exact ih _ _
      · rw [if_neg hstate]
        cases hrequested : isRequested parseNetAddress host type serial t with
        | false =>
            simp only [Bool.and_false, Bool.false_eq_true, if_false]
            exact ih _ _
        | true =>
            simp only [ne_eq, hstate, not_false_eq_true, decide_true, Bool.and_self, if_true]
            cases result with
            | some first => simp [single]
            | none => exact ih (some t) errorOut

theorem result_filterState {acceptAnyState : Bool} {acquired : Acquired} {t : TransportRef} :
    (filterState host acceptAnyState acquired).result = some t ↔
      acquired.result = some t ∧
        (acceptAnyState = true ∨ (host.server.transports t).connectionState ≠ .unauthorized ∧
          (host.server.transports t).connectionState ≠ .offline) := by
  unfold filterState
  cases hresult : acquired.result with
  | none => simp [hresult]
  | some u =>
      dsimp only
      rcases eq_or_ne u t with rfl | hne
      · cases acceptAnyState with
        | true => simp
        | false =>
            simp only [and_true, Bool.false_eq_true, false_or, true_and]
            split
            · rename_i hstate
              simp [hstate]
            · rename_i hauthorized
              split
              · rename_i hstate
                simp [hstate]
              · rename_i hstate
                simp [hauthorized, hstate]
      · have hother : some u ≠ some t := fun h => hne (Option.some.inj h)
        split
        · simp [hother]
        · split
          · simp [hother]
          · simp [hother]

theorem isAmbiguous_filterState {acceptAnyState : Bool} {acquired : Acquired} :
    (filterState host acceptAnyState acquired).isAmbiguous = acquired.isAmbiguous := by
  unfold filterState
  split
  · rfl
  · dsimp only
    split
    · rfl
    · split
      · rfl
      · rfl

theorem filter_eq_singleton {list : List TransportRef} {p : TransportRef → Bool}
    {t : TransportRef} :
    list.filter p = [t] ↔ t ∈ list ∧ p t = true ∧ list.countP p = 1 := by
  rw [List.countP_eq_length_filter]
  constructor
  · intro h
    have hmem : t ∈ list.filter p := by simp [h]
    exact ⟨List.mem_of_mem_filter hmem, List.of_mem_filter hmem, by simp [h]⟩
  · rintro ⟨hmem, hp, hlength⟩
    obtain ⟨u, hu⟩ := List.length_eq_one_iff.mp hlength
    have ht : t ∈ list.filter p := List.mem_filter.mpr ⟨hmem, hp⟩
    rw [hu, List.mem_singleton] at ht
    rw [hu, ht]

theorem result_acquireFrom {list : List TransportRef} {acceptAnyState : Bool}
    {t : TransportRef} :
    (acquireFrom parseNetAddress host list type serial acceptAnyState).result = some t ↔
      (t ∈ list ∧ isCandidate parseNetAddress host type serial t = true ∧
        list.countP (isCandidate parseNetAddress host type serial) = 1) ∧
      (acceptAnyState = true ∨ (host.server.transports t).connectionState ≠ .unauthorized ∧
        (host.server.transports t).connectionState ≠ .offline) := by
  rw [acquireFrom, result_filterState, (acquireLoop_found list none _).1, Option.toList_none,
    List.nil_append, single_eq_some, filter_eq_singleton]

theorem isAmbiguous_acquireFrom {list : List TransportRef} {acceptAnyState : Bool} :
    (acquireFrom parseNetAddress host list type serial acceptAnyState).isAmbiguous = true ↔
      2 ≤ list.countP (isCandidate parseNetAddress host type serial) := by
  rw [acquireFrom, isAmbiguous_filterState, (acquireLoop_found list none _).2, Option.toList_none,
    List.nil_append, List.countP_eq_length_filter]

end

section Server

variable {parseNetAddress host} {serial : Option Bytes}

/-- The serial match of the server's configuration is `MatchesTarget`. -/
def UsesTargets (parseNetAddress : ParseNetAddress) (host : Surroundings) : Prop :=
  ∀ t serial, host.cfg.matchesTarget t serial =
    matchesTarget parseNetAddress (host.server.transports t).type (host.texts t) serial

theorem isRequested_server (h : UsesTargets parseNetAddress host) (type : TransportType)
    (t : TransportRef) :
    ServerState.isRequested host.cfg host.server type serial t =
      isRequested parseNetAddress host (.ofTransportType type) serial t := by
  cases serial with
  | some serial => exact h t serial
  | none =>
      rw [ServerState.isRequested, isRequested]
      cases type with
      | usb => cases (host.server.transports t).type <;> rfl
      | localTransport => cases (host.server.transports t).type <;> rfl
      | any => rfl

theorem texts_server (type : TransportType) :
    ServerState.notFoundText type serial = notFoundText (.ofTransportType type) serial ∧
      ServerState.ambiguousText type serial = ambiguousText (.ofTransportType type) serial := by
  cases serial with
  | some serial => cases type <;> exact ⟨rfl, rfl⟩
  | none => cases type <;> exact ⟨rfl, rfl⟩

theorem acquireLoop_server (h : UsesTargets parseNetAddress host) (type : TransportType)
    (list : List TransportRef) (result : Option TransportRef) (errorOut : Bytes) :
    ServerState.acquireLoop host.cfg host.server type serial list result errorOut =
      ((acquireLoop parseNetAddress host (.ofTransportType type) serial list result
          errorOut).result,
        (acquireLoop parseNetAddress host (.ofTransportType type) serial list result
          errorOut).errorOut) := by
  induction list generalizing result errorOut with
  | nil => rfl
  | cons t ts ih =>
      rw [ServerState.acquireLoop.eq_def, acquireLoop.eq_def]
      dsimp only
      rw [isRequested_server h]
      split
      · exact ih _ _
      · split
        · cases result with
          | some first => rw [(texts_server type).2]
          | none => exact ih _ _
        · exact ih _ _

/-- The selection is what the requests of the server go by. -/
theorem acquireOneTransport_server (h : UsesTargets parseNetAddress host) (type : TransportType)
    (acceptAnyState : Bool) :
    ServerState.acquireOneTransport host.cfg host.server type serial acceptAnyState =
      let acquired := acquireOneTransport parseNetAddress host (.ofTransportType type) serial
        acceptAnyState
      match acquired.result with
      | some t => .ok t
      | none => .error acquired.errorOut := by
  rw [ServerState.acquireOneTransport, acquireLoop_server h, (texts_server type).1,
    acquireOneTransport, acquireFrom]
  generalize acquireLoop parseNetAddress host (.ofTransportType type) serial
    host.server.transportList none (notFoundText (.ofTransportType type) serial) = acquired
  unfold filterState
  cases hresult : acquired.result with
  | none => simp [hresult]
  | some t =>
      cases acceptAnyState with
      | true => simp
      | false =>
          simp only [Bool.false_eq_true, if_false, and_true]
          split
          · rfl
          · split
            · rfl
            · simp

end Server

/-- The request selects the only candidate, if its state allows that; it is
ambiguous when there are several; and the order of the list does not matter. -/
theorem acquire_unique_match (type : RequestType) (serial : Option Bytes)
    (acceptAnyState : Bool) :
    let list := host.server.transportList
    let candidate := isCandidate parseNetAddress host type serial
    let acquired := acquireOneTransport parseNetAddress host type serial acceptAnyState
    (∀ t, acquired.result = some t ↔
      (t ∈ list ∧ candidate t = true ∧ list.countP candidate = 1) ∧
        (acceptAnyState = true ∨ (host.server.transports t).connectionState ≠ .unauthorized ∧
          (host.server.transports t).connectionState ≠ .offline)) ∧
    (acquired.isAmbiguous = true ↔ 2 ≤ list.countP candidate) ∧
    ∀ other, other.Perm list →
      (acquireFrom parseNetAddress host other type serial acceptAnyState).result =
          acquired.result ∧
        (acquireFrom parseNetAddress host other type serial acceptAnyState).isAmbiguous =
          acquired.isAmbiguous := by
  refine ⟨fun t => result_acquireFrom, isAmbiguous_acquireFrom, fun other hperm => ?_⟩
  constructor
  · apply Option.ext
    intro t
    rw [acquireOneTransport, result_acquireFrom, result_acquireFrom, hperm.mem_iff,
      hperm.countP_eq]
  · rw [Bool.eq_iff_iff, acquireOneTransport, isAmbiguous_acquireFrom, isAmbiguous_acquireFrom,
      hperm.countP_eq]

theorem acquire_unique_match_phone :
    (acquireOneTransport plainAddress
      { phoneHost with server := { phoneHost.server with transportList := [0] } } .any none
      false).result = some 0 := by
  have h := (acquire_unique_match plainAddress
    { phoneHost with server := { phoneHost.server with transportList := [0] } } .any none false).1 0
  exact h.mpr ⟨⟨List.mem_singleton_self 0, rfl, rfl⟩, .inr ⟨by decide, by decide⟩⟩

end Adb.TransportSelection
