import Adb.EventInterest
import Adb.WirePackets
import Adb.CircularLists
import Mathlib.Algebra.Group.Nat.Defs

/-!
The sockets of one adb process: the allocated `asocket` objects, the two
global lists, and the packets handed to each transport.  A history of what
happened is kept beside them.
-/

namespace Adb.SocketTable

open Adb.DescriptorIo
open Adb.EventInterest
open Adb.WirePackets
open Adb.CircularLists

/-- The address of an `asocket`.  Addresses are never handed out twice, so a
reference also names the object after it has been freed. -/
abbrev SocketRef := Nat

/-- The address of an `atransport`. -/
abbrev TransportRef := Nat

/-- Which functions are stored in `enqueue`, `ready`, `shutdown` and `close`.
`localNotify` is a local socket rigged by `smart_socket_enqueue`: its `ready`
and `close` are the notifying variants. -/
inductive SocketKind where
  | localSocket
  | localNotify
  | remote
  | smart
  | jdwp
  | jdwpTracker
  | deviceTracker
  deriving DecidableEq, Repr

/-- An `asocket`.  `pkts` is the queue from `pkt_first` to `pkt_last`, each
packet cut down to the bytes between `ptr` and its end.  The fields `pass`,
`needInitial` and `updateNeeded` belong to the three derived types
`JdwpSocket`, `JdwpTracker` and `device_tracker`. -/
structure Asocket where
  kind : SocketKind
  id : Nat
  closing : Bool
  hasWriteError : Bool
  exitOnClose : Bool
  peer : Option SocketRef
  fde : Fdevent
  pkts : List Bytes
  transport : Option TransportRef
  pass : Bool
  needInitial : Bool
  updateNeeded : Bool
  deriving DecidableEq, Repr

/-- The zeroed object that `calloc` returns, with its function pointers set. -/
def Asocket.blank (kind : SocketKind) : Asocket where
  kind := kind
  id := 0
  closing := false
  hasWriteError := false
  exitOnClose := false
  peer := none
  fde := fdeventInstall
  pkts := []
  transport := none
  pass := false
  needInitial := false
  updateNeeded := false

/-- A status message written straight to a client's descriptor. -/
inductive Reply where
  | okay
  | fail (message : Bytes)
  deriving DecidableEq, Repr

/-- What the history records.  The reference is that of the socket on which
the function was called or whose descriptor was used. -/
inductive Event where
  | received (t : TransportRef) (p : Apacket)
  | sent (t : TransportRef) (p : Apacket)
  | connected (s : SocketRef) (localId remoteId : Nat) (t : TransportRef)
  | readyCalled (s : SocketRef)
  | enqueueCalled (s : SocketRef) (data : Bytes)
  | closeCalled (s : SocketRef)
  | fdRead (s : SocketRef) (data : Bytes)
  | handedOver (s : SocketRef) (data : Bytes)
  | fdWrote (s : SocketRef) (data : Bytes)
  | fdWriteFailed (s : SocketRef)
  | fdClosed (s : SocketRef)
  | movedToClosing (s : SocketRef) (queued : Bytes)
  | replied (s : SocketRef) (reply : Reply)
  deriving DecidableEq, Repr

/-- The transport a client asks for, `TransportType`. -/
inductive TransportType where
  | usb
  | localTransport
  | any
  deriving DecidableEq, Repr

/-- A forwarding request that a client made through its smart socket. -/
structure ForwardRequest where
  service : Bytes
  type : TransportType
  serial : Option Bytes
  deriving DecidableEq, Repr

/-- Why a process runs no further: `exit`, `fatal`, the `CHECK_EQ` in
`local_socket_close`, or a use of memory that does not belong to a live
socket. -/
inductive Halt where
  | exited
  | fatal
  | check
  | fault
  deriving DecidableEq, Repr

/-- What `next` and `prev` can point to: the two list heads and the sockets. -/
inductive ListNode where
  | localSocketList
  | localSocketClosingList
  | socket (s : SocketRef)
  deriving DecidableEq, Repr

/-- The pointers before there are sockets: each head points to itself. -/
def emptyLinks : Links ListNode where
  next
    | .socket _ => none
    | head => some head
  prev
    | .socket _ => none
    | head => some head

/-- The socket side of a process.  `links` are the `next` and `prev` pointers,
and the two lists the sequences that they stand for.  `forwardRequests` are the forwarding requests
made during the current callback; `readScript` and `writeScript` say what the
descriptors will answer during it. -/
structure Sockets where
  heap : SocketRef → Option Asocket
  nextRef : SocketRef
  localSocketList : List SocketRef
  localSocketClosingList : List SocketRef
  links : Links ListNode
  localSocketNextId : Nat
  jdwpTrackers : List SocketRef
  deviceTrackerList : List SocketRef
  outbox : TransportRef → List Apacket
  forwardRequests : List ForwardRequest
  readScript : List ReadResult
  writeScript : List WriteResult
  trace : List Event
  halted : Option Halt

/-- A process that has no sockets yet. -/
def Sockets.initial : Sockets where
  heap := fun _ => none
  nextRef := 0
  localSocketList := []
  localSocketClosingList := []
  links := emptyLinks
  localSocketNextId := 1
  jdwpTrackers := []
  deviceTrackerList := []
  outbox := fun _ => []
  forwardRequests := []
  readScript := []
  writeScript := []
  trace := []
  halted := none

namespace Sockets

def record (st : Sockets) (event : Event) : Sockets :=
  { st with trace := st.trace ++ [event] }

def halt (st : Sockets) (reason : Halt) : Sockets :=
  { st with halted := st.halted <|> some reason }

/-- Stop when a condition holds. -/
def haltWhen (st : Sockets) (condition : Bool) (reason : Halt) : Sockets :=
  { st with halted := if condition then st.halted <|> some reason else st.halted }

/-- Change the fields of one live socket. -/
def modify (st : Sockets) (s : SocketRef) (f : Asocket → Asocket) : Sockets :=
  { st with heap := Function.update st.heap s ((st.heap s).map f) }

/-- `free(s)`. -/
def release (st : Sockets) (s : SocketRef) : Sockets :=
  { st with heap := Function.update st.heap s none }

/-- Allocate an object at a fresh address. -/
def allocate (st : Sockets) (a : Asocket) : SocketRef × Sockets :=
  (st.nextRef,
    { st with
      heap := Function.update st.heap st.nextRef (some a)
      nextRef := st.nextRef + 1 })

/-- The functions a live socket currently has. -/
def kindOf (st : Sockets) (s : SocketRef) : Option SocketKind :=
  (st.heap s).map Asocket.kind

/-- `s->peer`. -/
def peerOf (st : Sockets) (s : SocketRef) : Option SocketRef :=
  (st.heap s).bind Asocket.peer

/-- `send_packet`: the packet is put on the transport's socket pair. -/
def sendPacket (st : Sockets) (t : TransportRef) (p : Apacket) : Sockets :=
  { st with
    outbox := Function.update st.outbox t (st.outbox t ++ [p])
    trace := st.trace ++ [.sent t p] }

/-- The write loop on a descriptor: its part of the script is used up, and the
bytes it wrote are recorded. -/
def afterWrite {α : Type} (st : Sockets) (s : SocketRef) (out : Written α) : Sockets :=
  { st with writeScript := out.script, trace := st.trace ++ [.fdWrote s out.bytes] }

/-- The read loop on a descriptor. -/
def afterRead (st : Sockets) (s : SocketRef) (out : ReadOutcome) : Sockets :=
  { st with readScript := out.script, trace := st.trace ++ [.fdRead s out.bytes] }

/-- `SendOkay` and `SendFail` on the descriptor of a client. -/
def reply (st : Sockets) (s : SocketRef) (r : Reply) : Sockets :=
  st.record (.replied s r)

end Sockets

/-- `find_local_socket`: the first socket of the list with this local id, if
it also has the peer id that was asked for. -/
def findLocalSocket (st : Sockets) (localId peerId : Nat) : Option SocketRef :=
  match st.localSocketList.find? fun s =>
      (st.heap s).any fun a => a.id = localId with
  | none => none
  | some s =>
      let peerMatches := (st.heap s).any fun a =>
        a.peer.any fun q => (st.heap q).any fun b => b.id = peerId
      if peerId = 0 ∨ peerMatches then some s else none

/-- `insert_local_socket` on the pointers. -/
def insertLocalSocket (links : Links ListNode) (s : SocketRef) (list : ListNode) :
    Links ListNode :=
  links.insert (.socket s) list

/-- `install_local_socket`: the next id is given out and the socket goes to
the end of the list.  Running out of 32-bit ids is fatal. -/
def installLocalSocket (st : Sockets) (s : SocketRef) : Sockets :=
  let st := st.modify s fun a => { a with id := st.localSocketNextId }
  let st := { st with
    localSocketNextId := st.localSocketNextId + 1
    localSocketList := st.localSocketList ++ [s]
    links := insertLocalSocket st.links s .localSocketList }
  st.haltWhen (st.localSocketNextId = 2 ^ 32) .fatal

/-- `remove_socket`: unlink from whichever list the socket is on and clear
its id; a socket on neither list is left alone. -/
def removeSocket (st : Sockets) (s : SocketRef) : Sockets :=
  { st with
    heap :=
      if s ∈ st.localSocketList ∨ s ∈ st.localSocketClosingList then
        Function.update st.heap s ((st.heap s).map fun a => { a with id := 0 })
      else st.heap
    localSocketList := st.localSocketList.filter (· ≠ s)
    localSocketClosingList := st.localSocketClosingList.filter (· ≠ s)
    links := st.links.remove (.socket s) }

/-- `create_local_socket`, for the descriptor that the new socket owns. -/
def createLocalSocket (st : Sockets) : SocketRef × Sockets :=
  let (s, st) := st.allocate (.blank .localSocket)
  (s, installLocalSocket st s)

def createRemoteSocket (st : Sockets) (id : Nat) (t : TransportRef) :
    SocketRef × Sockets :=
  (st.haltWhen (id = 0) .fatal).allocate { Asocket.blank .remote with id := id, transport := some t }

def createSmartSocket (st : Sockets) : SocketRef × Sockets :=
  st.allocate (.blank .smart)

def createJdwpServiceSocket (st : Sockets) : SocketRef × Sockets :=
  let (s, st) := st.allocate (.blank .jdwp)
  (s, installLocalSocket st s)

def createJdwpTrackerServiceSocket (st : Sockets) : SocketRef × Sockets :=
  let (s, st) := st.allocate { Asocket.blank .jdwpTracker with needInitial := true }
  let st := installLocalSocket st s
  (s, { st with jdwpTrackers := st.jdwpTrackers ++ [s] })

/-- `create_device_tracker`: the new tracker goes to the front of the list. -/
def createDeviceTracker (st : Sockets) : SocketRef × Sockets :=
  let (s, st) := st.allocate { Asocket.blank .deviceTracker with updateNeeded := true }
  (s, { st with deviceTrackerList := s :: st.deviceTrackerList })

/-- `asocket::get_max_payload`, where `limit` is `get_max_payload` of each
transport. -/
def getMaxPayload (limit : TransportRef → Nat) (st : Sockets) (s : SocketRef) : Nat :=
  match st.heap s with
  | none => maxPayloadConst
  | some a =>
      let own := match a.transport with
        | some t => min maxPayloadConst (limit t)
        | none => maxPayloadConst
      match a.peer.bind st.heap |>.bind (·.transport) with
      | some t => min own (limit t)
      | none => own

end Adb.SocketTable
