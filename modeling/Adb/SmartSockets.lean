import Adb.SocketOperations

/-!
The smart socket: it reads a request from a local client and then connects
the client to a host service or to a service on the other side of a transport.
-/

namespace Adb.SmartSockets

open Adb.DescriptorIo
open Adb.EventInterest
open Adb.WirePackets
open Adb.SocketTable
open Adb.SocketOperations

/-- The value of one hexadecimal digit. -/
def unhexDigit (c : UInt8) : Option Nat :=
  if 48 ≤ c ∧ c ≤ 57 then some (c.toNat - 48)
  else if 97 ≤ c ∧ c ≤ 102 then some (c.toNat - 97 + 10)
  else if 65 ≤ c ∧ c ≤ 70 then some (c.toNat - 65 + 10)
  else none

/-- `unhex`; a byte that is no digit gives `0xffffffff`. -/
def unhex (s : Bytes) : Nat :=
  go s 0
where
  go : Bytes → Nat → Nat
    | [], n => n
    | c :: s, n =>
        match unhexDigit c with
        | none => 0xffffffff
        | some d => go s (n * 16 + d)

def isDigit (c : UInt8) : Bool := 48 ≤ c && c ≤ 57

/-- `strchr`, as a position. -/
def strchr (s : Bytes) (c : UInt8) : Option Nat := s.findIdx? (· == c)

/-- The end of `skip_host_serial`, at the position `start` where the search for
the colon begins. -/
def skipSerialFrom (service : Bytes) (start : Nat) : Option Nat :=
  match strchr (service.drop start) 58 with
  | none => none
  | some offset =>
      let colon := start + offset
      let digits := (service.drop (colon + 1)).takeWhile isDigit
      if digits ≠ [] ∧ service[colon + 1 + digits.length]? = some 58 then
        some (colon + 1 + digits.length)
      else some colon

/-- `internal::skip_host_serial`: the position of the colon before the command. -/
def skipHostSerial (service : Bytes) : Option Nat :=
  match ([ascii "usb:", ascii "product:", ascii "model:", ascii "device:"].find?
      fun pre => pre.isPrefixOf service) with
  | some pre =>
      (strchr (service.drop pre.length) 58).map (· + pre.length)
  | none =>
      let start :=
        if (ascii "tcp:").isPrefixOf service || (ascii "udp:").isPrefixOf service then 4
        else 0
      if service[start]? = some 91 then
        match strchr (service.drop start) 93 with
        | some offset => skipSerialFrom service (start + offset)
        | none => skipSerialFrom service start
      else skipSerialFrom service start

/-- The target and the command of a request to the server itself. -/
structure HostService where
  type : TransportType
  serial : Option Bytes
  command : Bytes
  deriving DecidableEq, Repr

/-- The start of the `ADB_HOST` part of `smart_socket_enqueue`; a request
without one of the prefixes is for a transport. -/
def parseHostService (service : Bytes) : Option HostService :=
  if (ascii "host-serial:").isPrefixOf service then
    let rest := service.drop 12
    match skipHostSerial rest with
    | some pos => some ⟨.any, some (rest.take pos), rest.drop (pos + 1)⟩
    | none => some ⟨.any, none, rest⟩
  else if (ascii "host-usb:").isPrefixOf service then
    some ⟨.usb, none, service.drop 9⟩
  else if (ascii "host-local:").isPrefixOf service then
    some ⟨.localTransport, none, service.drop 11⟩
  else if (ascii "host:").isPrefixOf service then
    some ⟨.any, none, service.drop 5⟩
  else none

/-- The value of `SendFail` as an `int`. -/
def sendFailResult (ctx : ServiceContext) : Int := if ctx.replyWritten then 1 else 0

/-- The type and the serial that a `transport` request selects. -/
def transportTarget (command : Bytes) (serial : Option Bytes) :
    TransportType × Option Bytes :=
  if (ascii "transport-usb").isPrefixOf command then (.usb, serial)
  else if (ascii "transport-local").isPrefixOf command then (.localTransport, serial)
  else if (ascii "transport-any").isPrefixOf command then (.any, serial)
  else if (ascii "transport:").isPrefixOf command then (.any, some (command.drop 10))
  else (.any, serial)

/-- The requests of `handle_host_request` that look up one transport and answer
with something about it.  `onError` is what they return after a failure. -/
def answerAbout (ctx : ServiceContext) (st : Sockets) (client : SocketRef)
    (request : HostService) (onError : Int) : Int × Sockets :=
  match ctx.acquire request.type request.serial with
  | .ok _ => (0, st.reply client .okay)
  | .error message => (onError, st.reply client (.fail message))

/-- `handle_forward_request` as far as sockets are concerned: the status goes
to the client, and the listeners are changed afterwards. -/
def handleForwardRequest (ctx : ServiceContext) (st : Sockets) (client : SocketRef)
    (request : HostService) : Int × Sockets :=
  if request.command = ascii "list-forward" then
    (if ctx.replyWritten then 1 else 0, st.reply client .okay)
  else if request.command = ascii "killforward-all" ∨
      (ascii "forward:").isPrefixOf request.command ∨
      (ascii "killforward:").isPrefixOf request.command then
    (1, { st with forwardRequests := st.forwardRequests ++
      [⟨request.command, request.type, request.serial⟩] })
  else (0, st)

/-- `handle_host_request`: `s` is the smart socket and `client` its peer, to
whose descriptor the replies go. -/
def handleHostRequest (ctx : ServiceContext) (st : Sockets) (s client : SocketRef)
    (request : HostService) : Int × Sockets :=
  let command := request.command
  if command = ascii "kill" then (0, (st.reply client .okay).halt .exited)
  else if (ascii "transport").isPrefixOf command then
    let target := transportTarget command request.serial
    match ctx.acquire target.1 target.2 with
    | .ok t => (1, (st.modify s fun a => { a with transport := some t }).reply client .okay)
    | .error message => (1, st.reply client (.fail message))
  else if (ascii "devices").isPrefixOf command then
    if command.drop 7 = ascii "-l" ∨ command.drop 7 = [] then (0, st.reply client .okay)
    else (1, st)
  else if command = ascii "reconnect-offline" then (0, st.reply client .okay)
  else if command = ascii "features" then answerAbout ctx st client request 0
  else if command = ascii "host-features" then (0, st.reply client .okay)
  else if (ascii "disconnect:").isPrefixOf command then
    if command.drop 11 = [] then (0, st.reply client .okay)
    else
      match ctx.findDevice (command.drop 11) with
      | .ok _ => (0, st.reply client .okay)
      | .error message => (sendFailResult ctx, st.reply client (.fail message))
  else if command = ascii "version" then (0, st.reply client .okay)
  else if command = ascii "get-serialno" ∨ command = ascii "get-devpath" ∨
      command = ascii "get-state" then
    answerAbout ctx st client request (sendFailResult ctx)
  else if (ascii "emulator:").isPrefixOf command then (0, st)
  else if command = ascii "reconnect" then (0, st.reply client .okay)
  else
    let (ret, st) := handleForwardRequest ctx st client request
    (ret - 1, st)

/-- The checks of `host_service_to_socket` on a `wait-for-` request. -/
def isWaitFor (name : Bytes) : Bool :=
  (ascii "wait-for-").isPrefixOf name &&
    [ascii "local", ascii "usb", ascii "any"].any fun type =>
      type.isPrefixOf (name.drop 9) &&
        [ascii "-device", ascii "-recovery", ascii "-sideload", ascii "-bootloader",
          ascii "-any"].contains ((name.drop 9).drop type.length)

def hostServiceToSocket (st : Sockets) (name : Bytes) : Option (SocketRef × Sockets) :=
  if name = ascii "track-devices" then some (createDeviceTracker st)
  else if isWaitFor name then some (createLocalSocket st)
  else if (ascii "connect:").isPrefixOf name then some (createLocalSocket st)
  else none

/-- `connect_to_remote`.  The limit is unsigned, so with a payload limit of
zero nothing is oversized. -/
def connectToRemote (ctx : ServiceContext) (st : Sockets) (s : SocketRef)
    (destination : Bytes) : Sockets :=
  match st.heap s with
  | none => st.halt .fault
  | some a =>
      let limit := getMaxPayload ctx.limit st s
      if limit ≠ 0 ∧ destination.length + 1 > limit - 1 then st.halt .fatal
      else
        sendOn st a.transport
          { command := .aOpen, arg0 := a.id, arg1 := 0, data := destination ++ [0] }

/-- The `fail` label of `smart_socket_enqueue`. -/
def smartSocketFail (st : Sockets) (s : SocketRef) : Int × Sockets :=
  (-1, asocketClose st s)

/-- The end of `smart_socket_enqueue`: rig the client, detach from it, and ask
the other side of the transport for the connection. -/
def smartSocketConnect (ctx : ServiceContext) (st : Sockets) (s client : SocketRef)
    (service : Bytes) : Int × Sockets :=
  match (st.heap s).bind Asocket.transport with
  | none =>
      smartSocketFail (st.reply client (.fail (ascii "device offline (no transport)"))) s
  | some t =>
      if ctx.offline t then
        smartSocketFail
          (st.reply client (.fail (ascii "device offline (transport offline)"))) s
      else
        let st := st.modify client fun a =>
          { a with kind := .localNotify, peer := none, transport := some t }
        let st := connectToRemote ctx st client service
        let st := st.modify s fun a => { a with peer := none }
        (1, asocketClose st s)

/-- The client of the smart socket `s` becomes the peer of the service socket
`s2`, and `s` is left alone. -/
def handOff (st : Sockets) (s client s2 : SocketRef) : Sockets :=
  let st := st.modify client fun a => { a with kind := .localSocket, peer := some s2 }
  let st := st.modify s2 fun a => { a with peer := some client }
  st.modify s fun a => { a with peer := none }

/-- The `ADB_HOST` part of `smart_socket_enqueue`. -/
def smartSocketHostService (ctx : ServiceContext) (st : Sockets) (s client : SocketRef)
    (request : HostService) : Int × Sockets :=
  let (ret, st) := handleHostRequest ctx st s client request
  if ret = 0 then smartSocketFail st s
  else if (ascii "transport").isPrefixOf request.command then
    (0, st.modify s fun a => { a with pkts := [[]] })
  else
    match hostServiceToSocket st request.command with
    | none =>
        smartSocketFail (st.reply client (.fail (ascii "unknown host service"))) s
    | some (s2, st) =>
        let st := handOff (st.reply client .okay) s client s2
        (0, asocketReady ctx (asocketClose st s) s2)

/-- What `smart_socket_enqueue` does with a complete request. -/
def smartSocketDispatch (ctx : ServiceContext) (st : Sockets) (s : SocketRef)
    (service : Bytes) : Int × Sockets :=
  match st.peerOf s with
  | none => (-1, st.halt .fault)
  | some client =>
      if ctx.host then
        match parseHostService service with
        | some request => smartSocketHostService ctx st s client request
        | none => smartSocketConnect ctx st s client service
      else
        match (st.heap s).bind Asocket.transport, ctx.acquire .any none with
        | none, .error message =>
            smartSocketFail (st.reply client (.fail message)) s
        | none, .ok t =>
            smartSocketConnect ctx (st.modify s fun a => { a with transport := some t })
              s client service
        | some _, _ => smartSocketConnect ctx st s client service

/-- `smart_socket_enqueue` once the new bytes have been added to the packet. -/
def smartSocketRequest (ctx : ServiceContext) (st : Sockets) (s : SocketRef)
    (packet : Bytes) : Int × Sockets :=
  if packet.length < 4 then (0, st)
  else
    let len := unhex (packet.take 4)
    if len < 1 ∨ len > maxPayloadConst then smartSocketFail st s
    else if len + 4 > packet.length then (0, st)
    else smartSocketDispatch ctx st s (cString ((packet.drop 4).take len))

def smartSocketEnqueue (ctx : ServiceContext) (st : Sockets) (s : SocketRef)
    (data : Bytes) : Int × Sockets :=
  match st.heap s with
  | none => (-1, st.halt .fault)
  | some a =>
      match a.pkts with
      | [] => smartSocketRequest ctx (st.modify s fun a => { a with pkts := [data] }) s data
      | first :: _ =>
          if first.length + data.length > getMaxPayload ctx.limit st s then
            smartSocketFail st s
          else
            smartSocketRequest ctx
              (st.modify s fun a => { a with pkts := [first ++ data] }) s (first ++ data)

def connectToSmartsocket (ctx : ServiceContext) (st : Sockets) (s : SocketRef) : Sockets :=
  let (ss, st) := createSmartSocket st
  let st := st.modify s fun a => { a with peer := some ss }
  let st := st.modify ss fun a => { a with peer := some s }
  asocketReady ctx st s

/-- `s->peer->enqueue(s->peer, p)` as `local_socket_event_func` calls it. -/
def peerEnqueue (ctx : ServiceContext) (st : Sockets) (q : SocketRef) (data : Bytes) :
    Int × Sockets :=
  match st.kindOf q with
  | some .smart => smartSocketEnqueue ctx (st.record (.enqueueCalled q data)) q data
  | _ => asocketEnqueue st q data

end Adb.SmartSockets
