import Adb.SmartSockets
import Mathlib.Algebra.Group.Int.Defs
import Mathlib.Algebra.Group.Nat.Defs

/-!
One adb process, host server or adbd, as its main thread sees it: the sockets,
the transports, the listeners and the authentication state.
-/

namespace Adb.ServerState

open Adb.DescriptorIo
open Adb.EventInterest
open Adb.WirePackets
open Adb.SocketTable
open Adb.SocketOperations
open Adb.SmartSockets

inductive ConnectionState where
  | offline
  | bootloader
  | device
  | host
  | recovery
  | noPerm
  | sideload
  | unauthorized
  deriving DecidableEq, Repr

/-- The name of an `alistener` object. -/
abbrev ListenerRef := Nat

/-- An `adisconnect`: the one of adbd_auth.cpp, or that of a listener. -/
inductive Disconnect where
  | usb
  | listener (l : ListenerRef)
  deriving DecidableEq, Repr

/-- An `atransport`, with the fields that the main thread uses. -/
structure Atransport where
  connectionState : ConnectionState
  online : Bool
  type : TransportType
  protocolVersion : Int
  maxPayload : Nat
  token : Bytes
  failedAuthAttempts : Nat
  disconnects : List Disconnect
  deriving DecidableEq, Repr

def aVersion : Int := 0x01000000

/-- A 32-bit message word as an `int`, and back. -/
def wordToInt (word : Nat) : Int :=
  if word % 2 ^ 32 < 2 ^ 31 then (word % 2 ^ 32 : Nat) else (word % 2 ^ 32 : Nat) - 2 ^ 32

def intToWord (i : Int) : Nat := (i % 2 ^ 32).toNat

def tokenSize : Nat := 20

/-- The token that a new transport starts with: twenty zero bytes. -/
def zeroToken : Bytes := List.replicate tokenSize 0

/-- A transport as its constructor leaves it. -/
def Atransport.blank (state : ConnectionState) (type : TransportType) : Atransport where
  connectionState := state
  online := false
  type := type
  protocolVersion := aVersion
  maxPayload := maxPayloadConst
  token := zeroToken
  failedAuthAttempts := 0
  disconnects := []

/-- An `alistener`. -/
structure Alistener where
  ref : ListenerRef
  localName : Bytes
  connectTo : Bytes
  transport : Option TransportRef
  deriving DecidableEq, Repr

/-- Why `adbd_auth_verified` was called: a signature packet was accepted for
the token, or the framework said `OK`. -/
inductive AuthCause where
  | signature (token signature : Bytes)
  | framework
  deriving DecidableEq, Repr

/-- The history of the transports and of their authentication. -/
inductive AuthEvent where
  | created (t : TransportRef)
  | received (t : TransportRef) (p : Apacket)
  | acted (t : TransportRef) (p : Apacket)
  | wentOffline (t : TransportRef)
  | challenged (t : TransportRef) (token : Bytes)
  | tokenFailed (t : TransportRef)
  | verified (t : TransportRef) (cause : AuthCause)
  | keySent (t : TransportRef) (key : Bytes)
  | frameworkOk (usbTransport : Option TransportRef) (answered : Option (TransportRef × Bytes))
  | deleted (t : TransportRef)
  deriving DecidableEq, Repr

/-- The main thread's state.  `unanswered` lists the `PK` messages of the
current framework connection that the framework has neither answered nor
passed over. -/
structure Server where
  sockets : Sockets
  transports : TransportRef → Atransport
  transportList : List TransportRef
  listeners : List Alistener
  nextListener : ListenerRef
  usbTransport : Option TransportRef
  frameworkConnected : Bool
  needsRetry : Bool
  unanswered : List (TransportRef × Bytes)
  authLog : List AuthEvent

/-- What is fixed for a process: its build, whether it requires authentication,
`adbd_auth_verify` with the key files it reads, the serial match of each
transport, and two texts that depend on the machine. -/
structure Config where
  host : Bool
  authRequired : Bool
  adbdAuthVerify : Bytes → Bytes → Bool
  matchesTarget : TransportRef → Bytes → Bool
  noPermText : Bytes
  vendorKeys : Option Bytes
  connectionString : Bytes

/-- What `adbd_auth_generate_token` did: a token was generated, or reading
`/dev/urandom` failed and left these bytes in the buffer. -/
inductive TokenResult where
  | generated (token : Bytes)
  | failed (buffer : Bytes)
  deriving DecidableEq, Repr

/-- What the environment contributes to one callback of the main thread. -/
structure Oracle where
  reads : List ReadResult := []
  writes : List WriteResult := []
  jdwpPids : List Int := []
  deviceList : Bytes := []
  findDevice : Bytes → Except Bytes TransportRef := fun _ => .error []
  replyWritten : Bool := true
  serviceFd : Bytes → Bool := fun _ => true
  runsAsRoot : Bool := false
  debuggable : Bool := false
  token : TokenResult := .failed zeroToken
  hostAuthResponse : Option Apacket := none
  listen : Option Nat := none

namespace Server

/-- A process without transports, sockets and listeners. -/
def initial : Server where
  sockets := .initial
  transports := fun _ => .blank .offline .any
  transportList := []
  listeners := []
  nextListener := 0
  usbTransport := none
  frameworkConnected := false
  needsRetry := false
  unanswered := []
  authLog := []

def modifyTransport (st : Server) (t : TransportRef) (f : Atransport → Atransport) : Server :=
  { st with transports := Function.update st.transports t (f (st.transports t)) }

def log (st : Server) (event : AuthEvent) : Server :=
  { st with authLog := st.authLog ++ [event] }

/-- `send_packet` from the functions that name their transport. -/
def send (st : Server) (t : TransportRef) (p : Apacket) : Server :=
  { st with sockets := st.sockets.sendPacket t p }

end Server

/-- The text that `acquire_one_transport` starts with. -/
def notFoundText (type : TransportType) (serial : Option Bytes) : Bytes :=
  match serial, type with
  | some serial, _ => ascii "device '" ++ serial ++ ascii "' not found"
  | none, .localTransport => ascii "no emulators found"
  | none, .any => ascii "no devices/emulators found"
  | none, .usb => ascii "no devices found"

/-- The text for a second match in `acquire_one_transport`. -/
def ambiguousText (type : TransportType) (serial : Option Bytes) : Bytes :=
  match serial, type with
  | some _, _ | none, .usb => ascii "more than one device"
  | none, .localTransport => ascii "more than one emulator"
  | none, .any => ascii "more than one device/emulator"

/-- Whether a transport is one that was asked for. -/
def isRequested (cfg : Config) (st : Server) (type : TransportType)
    (serial : Option Bytes) (t : TransportRef) : Bool :=
  match serial with
  | some serial => cfg.matchesTarget t serial
  | none => type == .any || (st.transports t).type == type

/-- The loop of `acquire_one_transport`, with the result and the text so far. -/
def acquireLoop (cfg : Config) (st : Server) (type : TransportType)
    (serial : Option Bytes) :
    List TransportRef → Option TransportRef → Bytes → Option TransportRef × Bytes
  | [], result, error => (result, error)
  | t :: ts, result, error =>
      if (st.transports t).connectionState = .noPerm then
        acquireLoop cfg st type serial ts result
          (if cfg.host then cfg.noPermText else error)
      else if isRequested cfg st type serial t then
        match result with
        | some _ => (none, ambiguousText type serial)
        | none => acquireLoop cfg st type serial ts (some t) error
      else acquireLoop cfg st type serial ts result error

/-- The text for an unauthorized device. -/
def unauthorizedText (cfg : Config) : Bytes :=
  ascii "device unauthorized.\n" ++ ascii "This adb server's $ADB_VENDOR_KEYS is " ++
    cfg.vendorKeys.getD (ascii "not set") ++ ascii "\n" ++
    ascii "Try 'adb kill-server' if that seems wrong.\n" ++
    ascii "Otherwise check for a confirmation dialog on your device."

def acquireOneTransport (cfg : Config) (st : Server) (type : TransportType)
    (serial : Option Bytes) (acceptAnyState : Bool) : Except Bytes TransportRef :=
  match acquireLoop cfg st type serial st.transportList none
      (notFoundText type serial) with
  | (none, error) => .error error
  | (some t, _) =>
      if acceptAnyState then .ok t
      else if (st.transports t).connectionState = .unauthorized then
        .error (unauthorizedText cfg)
      else if (st.transports t).connectionState = .offline then
        .error (ascii "device offline")
      else .ok t

/-- What the socket functions can see of the process. -/
def serviceContext (cfg : Config) (env : Oracle) (st : Server) : ServiceContext where
  host := cfg.host
  limit := fun t => (st.transports t).maxPayload
  offline := fun t => (st.transports t).connectionState = .offline
  jdwpPids := env.jdwpPids
  deviceList := env.deviceList
  acquire := fun type serial => acquireOneTransport cfg st type serial false
  findDevice := env.findDevice
  replyWritten := env.replyWritten
  serviceFd := env.serviceFd
  runsAsRoot := env.runsAsRoot
  debuggable := env.debuggable

def addDisconnect (st : Server) (t : TransportRef) (d : Disconnect) : Server :=
  st.modifyTransport t fun a => { a with disconnects := a.disconnects ++ [d] }

def removeDisconnect (st : Server) (t : TransportRef) (d : Disconnect) : Server :=
  st.modifyTransport t fun a => { a with disconnects := a.disconnects.filter (· ≠ d) }

/-- The callbacks `usb_disconnected` and `listener_disconnect`. -/
def runDisconnect (st : Server) : Disconnect → Server
  | .usb => { st with usbTransport := none, needsRetry := false }
  | .listener l => { st with listeners := st.listeners.filter (·.ref ≠ l) }

def runDisconnects (st : Server) (t : TransportRef) : Server :=
  let st := (st.transports t).disconnects.foldl runDisconnect st
  st.modifyTransport t fun a => { a with disconnects := [] }

def handleOnline (st : Server) (t : TransportRef) : Server :=
  st.modifyTransport t fun a => { a with online := true }

def handleOffline (st : Server) (t : TransportRef) : Server :=
  let st := st.modifyTransport t fun a => { a with online := false }
  let st := { st with sockets := closeAllSockets st.sockets t }
  runDisconnects (st.log (.wentOffline t)) t

def setConnectionState (st : Server) (t : TransportRef) (state : ConnectionState) : Server :=
  st.modifyTransport t fun a => { a with connectionState := state }

def sendConnect (cfg : Config) (st : Server) (t : TransportRef) : Server :=
  let a := st.transports t
  st.send t
    { command := .aCnxn, arg0 := intToWord a.protocolVersion, arg1 := a.maxPayload,
      data := cfg.connectionString }

/-- `SendConnectOnHost`: an empty message, then the connect message. -/
def sendConnectOnHost (cfg : Config) (st : Server) (t : TransportRef) : Server :=
  sendConnect cfg (st.send t { command := .other 0, arg0 := 0, arg1 := 0, data := [] }) t

/-- `ADB_AUTH_TOKEN`, `ADB_AUTH_SIGNATURE` and `ADB_AUTH_RSAPUBLICKEY`. -/
def adbAuthToken : Nat := 1

def adbAuthSignature : Nat := 2

def adbAuthRsaPublicKey : Nat := 3

/-- `send_auth_request`.  The token is read straight into the transport, so a
failed attempt may leave it changed although nothing is sent. -/
def sendAuthRequest (env : Oracle) (st : Server) (t : TransportRef) : Server :=
  match env.token with
  | .failed buffer =>
      (st.modifyTransport t fun a => { a with token := buffer }).log (.tokenFailed t)
  | .generated token =>
      let st := st.modifyTransport t fun a => { a with token := token }
      (st.send t { command := .aAuth, arg0 := adbAuthToken, arg1 := 0, data := token }).log
        (.challenged t token)

def adbdAuthVerified (cfg : Config) (st : Server) (t : TransportRef)
    (cause : AuthCause) : Server :=
  sendConnect cfg (handleOnline (st.log (.verified t cause)) t) t

def adbdAuthConfirmKey (env : Oracle) (st : Server) (t : TransportRef) (key : Bytes) : Server :=
  let st :=
    if st.usbTransport.isNone then
      addDisconnect { st with usbTransport := some t } t .usb
    else st
  if !st.frameworkConnected then { st with needsRetry := true }
  else if key.getLast? ≠ some 0 then st
  else
    let message := ascii "PK" ++ cString key
    if message.length ≥ maxPayloadV1 ∨ !env.replyWritten then st
    else { st with unanswered := st.unanswered ++ [(t, cString key)] }.log
      (.keySent t (cString key))

/-- `adbd_auth_event` for a read that returned these bytes; an empty result is
an end of file or an error.  `answered` is the position of the `PK` message
that the framework answers. -/
def adbdAuthEvent (cfg : Config) (st : Server) (response : Bytes) (answered : Nat) : Server :=
  if response = [] then { st with frameworkConnected := false, unanswered := [] }
  else if response = ascii "OK" then
    let st := { st with unanswered := st.unanswered.drop (answered + 1) }.log
      (.frameworkOk st.usbTransport st.unanswered[answered]?)
    match st.usbTransport with
    | some t => adbdAuthVerified cfg st t .framework
    | none => st
  else st

/-- `adbd_auth_listener` after a successful accept. -/
def adbdAuthListener (env : Oracle) (st : Server) : Server :=
  let st := { st with frameworkConnected := true, unanswered := [] }
  if st.needsRetry then
    let st := { st with needsRetry := false }
    match st.usbTransport with
    | some t => sendAuthRequest env st t
    | none => { st with sockets := st.sockets.halt .fault }
  else st

/-- The connection state that `parse_banner` derives from the banner's type,
the text before the first colon. -/
def bannerState (banner : Bytes) : ConnectionState :=
  let type := banner.takeWhile (· ≠ 58)
  if type = ascii "bootloader" then .bootloader
  else if type = ascii "device" then .device
  else if type = ascii "recovery" then .recovery
  else if type = ascii "sideload" then .sideload
  else .host

/-- `update_transports` on the host: every device tracker gets the new list. -/
def updateTransports (cfg : Config) (env : Oracle) (st : Server) : Server :=
  if cfg.host then
    let send := fun sockets tracker => deviceTrackerSend sockets tracker env.deviceList
    { st with sockets := st.sockets.deviceTrackerList.foldl send st.sockets }
  else st

def handleNewConnection (cfg : Config) (env : Oracle) (st : Server) (t : TransportRef)
    (p : Apacket) : Server :=
  let st :=
    if (st.transports t).connectionState ≠ .offline then
      handleOffline (setConnectionState st t .offline) t
    else st
  let st := st.modifyTransport t fun a =>
    { a with
      protocolVersion := min (wordToInt p.arg0) aVersion
      maxPayload := min p.arg1 maxPayloadConst
      connectionState := bannerState p.data }
  let st :=
    if cfg.host then handleOnline st t
    else if !cfg.authRequired then sendConnect cfg (handleOnline st t) t
    else sendAuthRequest env st t
  updateTransports cfg env st

/-- `exit_on_close` of a new service socket on the device. -/
def exitsOnClose (ctx : ServiceContext) (name : Bytes) : Bool :=
  !ctx.host &&
    (((ascii "root:").isPrefixOf name && !ctx.runsAsRoot && ctx.debuggable) ||
      ((ascii "unroot:").isPrefixOf name && ctx.runsAsRoot) ||
      (ascii "usb:").isPrefixOf name || (ascii "tcpip:").isPrefixOf name)

def createLocalServiceSocket (ctx : ServiceContext) (st : Sockets) (name : Bytes) :
    Option (SocketRef × Sockets) :=
  if !ctx.host && name = ascii "jdwp" then some (createJdwpServiceSocket st)
  else if !ctx.host && name = ascii "track-jdwp" then
    some (createJdwpTrackerServiceSocket st)
  else if ctx.serviceFd name then
    let (s, st) := createLocalSocket st
    some (s, st.modify s fun a => { a with exitOnClose := exitsOnClose ctx name })
  else none

/-- Link a local socket with a new remote socket for the other end's id. -/
def connectRemote (st : Sockets) (s : SocketRef) (remoteId : Nat) (t : TransportRef) : Sockets :=
  let (q, st) := createRemoteSocket st remoteId t
  let st := st.modify s fun a => { a with peer := some q }
  let st := st.modify q fun a => { a with peer := some s }
  st.record (.connected s (((st.heap s).map Asocket.id).getD 0) remoteId t)

/-- The destination in an `OPEN` message: the last byte is overwritten by the
terminator. -/
def openName (data : Bytes) : Bytes := cString data.dropLast

/-- The `A_OPEN` case of `handle_packet`. -/
def handleOpen (ctx : ServiceContext) (st : Sockets) (t : TransportRef) (p : Apacket) : Sockets :=
  match createLocalServiceSocket ctx st (openName p.data) with
  | none => st.sendPacket t { command := .aClse, arg0 := 0, arg1 := p.arg0, data := [] }
  | some (s, st) =>
      let st := connectRemote st s p.arg0 t
      let id := ((st.heap s).map Asocket.id).getD 0
      let st := st.sendPacket t
        { command := .aOkay, arg0 := id, arg1 := p.arg0, data := [] }
      asocketReady ctx st s

/-- The `A_OKAY` case of `handle_packet`. -/
def handleOkay (ctx : ServiceContext) (st : Sockets) (t : TransportRef) (p : Apacket) : Sockets :=
  match findLocalSocket st p.arg1 0 with
  | none =>
      st.sendPacket t { command := .aClse, arg0 := p.arg1, arg1 := p.arg0, data := [] }
  | some s =>
      match st.peerOf s with
      | none => asocketReady ctx (connectRemote st s p.arg0 t) s
      | some q =>
          if (st.heap q).any fun b => b.id = p.arg0 then asocketReady ctx st s else st

/-- The `A_CLSE` case of `handle_packet`. -/
def handleClse (st : Sockets) (t : TransportRef) (p : Apacket) : Sockets :=
  match findLocalSocket st p.arg1 p.arg0 with
  | none => st
  | some s =>
      let foreignPeer := ((st.peerOf s).bind st.heap).any fun b => b.transport ≠ some t
      if p.arg0 = 0 ∧ foreignPeer then st else asocketClose st s

/-- The `A_WRTE` case of `handle_packet`. -/
def handleWrte (st : Sockets) (t : TransportRef) (p : Apacket) : Sockets :=
  match findLocalSocket st p.arg1 p.arg0 with
  | none => st
  | some s =>
      let (r, st) := asocketEnqueue st s p.data
      if r = 0 then
        let id := ((st.heap s).map Asocket.id).getD 0
        st.sendPacket t { command := .aOkay, arg0 := id, arg1 := p.arg0, data := [] }
      else st

/-- The conditions under which `handle_packet` acts on a stream message. -/
def actsOn (online : Bool) (p : Apacket) : Bool :=
  online &&
    match p.command with
    | .aOpen => p.arg0 ≠ 0 && p.arg1 = 0
    | .aOkay | .aWrte => p.arg0 ≠ 0 && p.arg1 ≠ 0
    | .aClse => p.arg1 ≠ 0
    | _ => false

/-- The stream messages of `handle_packet`. -/
def handleStream (ctx : ServiceContext) (st : Sockets) (t : TransportRef) (p : Apacket) :
    Sockets :=
  match p.command with
  | .aOpen => handleOpen ctx st t p
  | .aOkay => handleOkay ctx st t p
  | .aClse => handleClse st t p
  | .aWrte => handleWrte st t p
  | _ => st

/-- The `A_AUTH` case of `handle_packet`. -/
def handleAuth (cfg : Config) (env : Oracle) (st : Server) (t : TransportRef)
    (p : Apacket) : Server :=
  if cfg.host ∧ p.arg0 = adbAuthToken then
    let st :=
      if (st.transports t).connectionState = .offline then
        setConnectionState st t .unauthorized
      else st
    match env.hostAuthResponse with
    -- `send_auth_response` and `send_auth_publickey` send `AUTH` messages only.
    | some response => st.send t { response with command := .aAuth }
    | none => st
  else if !cfg.host ∧ p.arg0 = adbAuthSignature then
    let token := (st.transports t).token
    if cfg.adbdAuthVerify token p.data then
      (adbdAuthVerified cfg st t (.signature token p.data)).modifyTransport t fun a =>
        { a with failedAuthAttempts := 0 }
    else
      sendAuthRequest env (st.modifyTransport t fun a =>
        { a with failedAuthAttempts := a.failedAuthAttempts + 1 }) t
  else if !cfg.host ∧ p.arg0 = adbAuthRsaPublicKey then
    adbdAuthConfirmKey env st t p.data
  else handleOffline (setConnectionState st t .offline) t

def handlePacket (cfg : Config) (env : Oracle) (st : Server) (t : TransportRef)
    (p : Apacket) : Server :=
  let st := { st with sockets := st.sockets.record (.received t p) }.log (.received t p)
  match p.command with
  | .aSync =>
      if p.arg0 ≠ 0 then
        let st := st.send t p
        if cfg.host then sendConnectOnHost cfg st t else st
      else (handleOffline (setConnectionState st t .offline) t).send t p
  | .aCnxn => handleNewConnection cfg env st t p
  | .aAuth => handleAuth cfg env st t p
  | _ =>
      if actsOn (st.transports t).online p then
        let ctx := serviceContext cfg env st
        { st with sockets := handleStream ctx st.sockets t p }.log (.acted t p)
      else st

end Adb.ServerState
