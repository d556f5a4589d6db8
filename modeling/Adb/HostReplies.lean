import Adb.Banners
import Adb.ProtocolStrings
import Adb.ServerRuns

/-!
What a client of the server gets for a request to the server itself: the bytes
that `handle_host_request`, `handle_forward_request` and `smart_socket_enqueue`
write to its descriptor, which takes them.  The requests say by the number that
they return whether they have replied, and `SendOkay` and `SendFail` do not
agree about that number.
-/

namespace Adb.HostReplies

open Adb.Banners (FeatureSet Traversal featureSetToString)
open Adb.DescriptorIo
open Adb.EventInterest
open Adb.Numerals
open Adb.ProtocolStrings
open Adb.ServerRuns (isSpecial splitPieces)
open Adb.ServerState
open Adb.SmartSockets (HostService isWaitFor transportTarget)
open Adb.SocketTable
open Adb.WirePackets

/-- The fields of an `atransport` that replies name. -/
structure DeviceTexts where
  serial : Option Bytes
  devpath : Option Bytes
  product : Option Bytes
  model : Option Bytes
  device : Option Bytes
  features : FeatureSet

/-- A server with what the requests find around it: `ParseNetAddress` gives the
serial of an address, and `socket_spec_listen` the port that it has resolved. -/
structure Surroundings where
  cfg : Config
  server : Server
  texts : TransportRef → DeviceTexts
  traversal : Traversal
  shouldUseLibusb : Bool
  usbNoPermissionsShortHelpText : Bytes
  parseNetAddress : Bytes → Except Bytes Bytes
  socketSpecListen : Bytes → Except Bytes Nat

variable (host : Surroundings)

section Texts

def connectionStateName (t : TransportRef) : Bytes :=
  match (host.server.transports t).connectionState with
  | .offline => ascii "offline"
  | .bootloader => ascii "bootloader"
  | .device => ascii "device"
  | .host => ascii "host"
  | .recovery => ascii "recovery"
  | .noPerm => host.usbNoPermissionsShortHelpText
  | .sideload => ascii "sideload"
  | .unauthorized => ascii "unauthorized"

def serialName (t : TransportRef) : Bytes := (host.texts t).serial.getD (ascii "<unknown>")

/-- `isalnum` in the C locale. -/
def isAlnum (c : UInt8) : Bool :=
  (48 ≤ c && c ≤ 57) || (65 ≤ c && c ≤ 90) || (97 ≤ c && c ≤ 122)

/-- `append_transport_info`. -/
def transportInfo (key : Bytes) (value : Option Bytes) (sanitize : Bool) : Bytes :=
  match value with
  | none | some [] => []
  | some value => 32 :: key ++ value.map fun c => if !sanitize || isAlnum c then c else 95

/-- The conversion `%-22s`. -/
def padded (text : Bytes) : Bytes := text ++ List.replicate (22 - text.length) 32

/-- `append_transport`. -/
def transportLine (longListing : Bool) (t : TransportRef) : Bytes :=
  let texts := host.texts t
  let serial := match texts.serial with
    | none | some [] => ascii "(no serial number)"
    | some serial => serial
  let line :=
    if longListing then
      padded serial ++ 32 :: connectionStateName host t ++
        transportInfo [] texts.devpath false ++
        transportInfo (ascii "product:") texts.product false ++
        transportInfo (ascii "model:") texts.model true ++
        transportInfo (ascii "device:") texts.device false
    else serial ++ 9 :: connectionStateName host t
  line ++ [10]

def listTransports (longListing : Bool) : Bytes :=
  host.server.transportList.flatMap (transportLine host longListing)

/-- The response to `reconnect-offline`. -/
def reconnectingOffline : Bytes :=
  let reconnected := host.server.transportList.filter fun t =>
    (host.server.transports t).connectionState = .offline ||
      (host.server.transports t).connectionState = .unauthorized
  (reconnected.flatMap fun t => ascii "reconnecting " ++ serialName host t ++ [10]).dropLast

/-- `supported_features`, with what the server adds for `host-features`. -/
def hostFeatures : FeatureSet :=
  let features : FeatureSet := {ascii "shell_v2", ascii "cmd", ascii "stat_v2"}
  let features := if host.shouldUseLibusb then insert (ascii "libusb") features else features
  insert (ascii "push_sync") features

def findTransport (serial : Bytes) : Option TransportRef :=
  host.server.transportList.find? fun t => (host.texts t).serial = some serial

def formatListeners : Bytes :=
  (host.server.listeners.filter fun l => !isSpecial l).flatMap fun l =>
    ((l.transport.bind fun t => (host.texts t).serial).getD (ascii "(reverse)")) ++
      32 :: l.localName ++ 32 :: l.connectTo ++ [10]

end Texts

def adbServerVersion : Nat := 39

def okay : Bytes := ascii "OKAY"

/-- `SendProtocolString` as far as the client sees it. -/
def protocolText (s : Bytes) : Bytes := (sendProtocolString s).getD []

/-- `SendOkay` with a text, which is always zero. -/
def sendOkay (s : Bytes) : Int × Bytes := (0, okay ++ protocolText s)

/-- `SendFail`, as an `int`. -/
def sendFail (reason : Bytes) : Int × Bytes :=
  (if (sendProtocolString reason).isSome then 1 else 0, ascii "FAIL" ++ protocolText reason)

/-- `InstallStatus`, with the port that was resolved and the error. -/
inductive InstallStatus where
  | ok (resolvedTcpPort : Nat)
  | internalError
  | cannotBind (error : Bytes)
  | cannotRebind
  | listenerNotFound
  deriving DecidableEq, Repr

/-- The status of `install_listener`. -/
def installListener (localName : Bytes) (noRebind : Bool) : InstallStatus :=
  match host.server.listeners.find? (·.localName = localName) with
  | some l =>
      if isSpecial l then .internalError
      else if noRebind then .cannotRebind
      else .ok 0
  | none =>
      match host.socketSpecListen localName with
      | .error error => .cannotBind error
      | .ok resolved => .ok resolved

/-- The status of `remove_listener`. -/
def removeListener (localName : Bytes) : InstallStatus :=
  if host.server.listeners.any (·.localName = localName) then .ok 0 else .listenerNotFound

/-- The end of `handle_forward_request`: the status as a reply. -/
def reportStatus (service : Bytes) : InstallStatus → Bytes
  | .ok resolved =>
      okay ++ okay ++ if resolved ≠ 0 then protocolText (print 10 resolved) else []
  | .internalError => (sendFail (ascii "internal error")).2
  | .cannotBind error => (sendFail (ascii "cannot bind listener: " ++ error)).2
  | .cannotRebind => (sendFail (ascii "cannot rebind existing socket")).2
  | .listenerNotFound => (sendFail (ascii "listener '" ++ service ++ ascii "' not found")).2

/-- What `killforward:` and `forward:` do with a request that is well formed. -/
def withTransport (request : HostService) (reply : TransportRef → Bytes) : Bytes :=
  match acquireOneTransport host.cfg host.server request.type request.serial false with
  | .error message => (sendFail message).2
  | .ok t => reply t

def killForward (request : HostService) (service : Bytes) : Bytes :=
  match splitPieces service with
  | [localName] =>
      if localName = [] then (sendFail (ascii "bad killforward: " ++ service)).2
      else withTransport host request fun _ =>
        reportStatus service (removeListener host localName)
  | _ => (sendFail (ascii "bad killforward: " ++ service)).2

def forward (request : HostService) (service : Bytes) (noRebind : Bool) : Bytes :=
  match splitPieces service with
  | [localName, connectTo] =>
      if localName = [] ∨ connectTo = [] ∨ connectTo.head? = some 42 then
        (sendFail (ascii "bad forward: " ++ service)).2
      else withTransport host request fun _ =>
        reportStatus service (installListener host localName noRebind)
  | _ => (sendFail (ascii "bad forward: " ++ service)).2

def handleForwardRequest (request : HostService) : Int × Bytes :=
  let service := request.command
  if service = ascii "list-forward" then
    (if (sendProtocolString (formatListeners host)).isSome then 1 else 0,
      okay ++ protocolText (formatListeners host))
  else if service = ascii "killforward-all" then (1, okay ++ okay)
  else if (ascii "killforward:").isPrefixOf service then
    (1, killForward host request (service.drop 12))
  else if (ascii "forward:").isPrefixOf service then
    let service := service.drop 8
    if (ascii "norebind:").isPrefixOf service then
      (1, forward host request (service.drop 9) true)
    else (1, forward host request service false)
  else (0, [])

/-- The requests that look up one transport and answer with a text about it. -/
def answerAbout (request : HostService) (text : TransportRef → Bytes) : Int × Bytes :=
  match acquireOneTransport host.cfg host.server request.type request.serial false with
  | .error message => sendFail message
  | .ok t => sendOkay (text t)

/-- The `disconnect:` request: the serial of the device, or why there is none. -/
def disconnectTarget (address : Bytes) : Except Bytes TransportRef :=
  match host.parseNetAddress address with
  | .error error => .error (ascii "couldn't parse '" ++ address ++ ascii "': " ++ error)
  | .ok serial =>
      match findTransport host serial with
      | none => .error (ascii "no such device '" ++ serial ++ ascii "'")
      | some t => .ok t

/-- The response to `reconnect`, which takes a transport in any state. -/
def reconnecting (request : HostService) : Bytes :=
  match acquireOneTransport host.cfg host.server request.type request.serial true with
  | .error message => message
  | .ok t =>
      ascii "reconnecting " ++ serialName host t ++ ascii " [" ++ connectionStateName host t ++
        ascii "]\n"

def handleHostRequest (request : HostService) : Int × Bytes :=
  let service := request.command
  -- After `kill` the process exits.
  if service = ascii "kill" then (0, okay)
  else if (ascii "transport").isPrefixOf service then
    let target := transportTarget service request.serial
    match acquireOneTransport host.cfg host.server target.1 target.2 false with
    | .ok _ => (1, okay)
    | .error message => (1, (sendFail message).2)
  else if (ascii "devices").isPrefixOf service then
    if service.drop 7 = ascii "-l" ∨ service.drop 7 = [] then
      sendOkay (listTransports host (service.drop 7 = ascii "-l"))
    else (1, [])
  else if service = ascii "reconnect-offline" then sendOkay (reconnectingOffline host)
  else if service = ascii "features" then
    (0, (answerAbout host request fun t =>
      featureSetToString host.traversal (host.texts t).features).2)
  else if service = ascii "host-features" then
    sendOkay (featureSetToString host.traversal (hostFeatures host))
  else if (ascii "disconnect:").isPrefixOf service then
    let address := service.drop 11
    if address = [] then sendOkay (ascii "disconnected everything")
    else
      match disconnectTarget host address with
      | .error message => sendFail message
      | .ok _ => sendOkay (ascii "disconnected " ++ address)
  else if service = ascii "version" then sendOkay (hex04 adbServerVersion)
  else if service = ascii "get-serialno" then
    answerAbout host request fun t => (host.texts t).serial.getD (ascii "unknown")
  else if service = ascii "get-devpath" then
    answerAbout host request fun t => (host.texts t).devpath.getD (ascii "unknown")
  else if service = ascii "get-state" then
    answerAbout host request (connectionStateName host)
  else if (ascii "emulator:").isPrefixOf service then (0, [])
  else if service = ascii "reconnect" then sendOkay (reconnecting host request)
  else
    let (ret, bytes) := handleForwardRequest host request
    (ret - 1, bytes)

/-- Whether `create_host_service_socket` makes a socket. -/
def isHostService (name : Bytes) : Bool :=
  name = ascii "track-devices" || isWaitFor name || (ascii "connect:").isPrefixOf name

/-- The bytes that are written to the client of a smart socket for a request to
the server. -/
def replyTo (request : HostService) : Bytes :=
  let (ret, bytes) := handleHostRequest host request
  if ret = 0 then bytes
  else if (ascii "transport").isPrefixOf request.command then bytes
  else if isHostService request.command then bytes ++ okay
  else bytes ++ (sendFail (ascii "unknown host service")).2

end Adb.HostReplies
