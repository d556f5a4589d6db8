import Adb.SocketTable

/-!
The functions behind `enqueue`, `ready`, `shutdown` and `close` of every kind
of socket, except for the smart socket's `enqueue`.
-/

namespace Adb.SocketOperations

open Adb.DescriptorIo
open Adb.EventInterest
open Adb.WirePackets
open Adb.SocketTable

/-- The socket ids that `remote_socket_*` put into a message: the id of the
peer, which is a local socket, and the remote's own id. -/
def peerId (st : Sockets) (a : Asocket) : Nat :=
  ((a.peer.bind st.heap).map (·.id)).getD 0

/-- `send_packet` on a socket's transport; a null transport is fatal. -/
def sendOn (st : Sockets) (t : Option TransportRef) (p : Apacket) : Sockets :=
  match t with
  | none => st.halt .fatal
  | some t => st.sendPacket t p

/-- The message that a remote socket sends about its stream. -/
def streamPacket (st : Sockets) (a : Asocket) (command : Command) (data : Bytes) : Apacket :=
  { command := command, arg0 := peerId st a, arg1 := a.id, data := data }

def remoteSocketShutdown (st : Sockets) (s : SocketRef) : Sockets :=
  match st.heap s with
  | none => st.halt .fault
  | some a => sendOn st a.transport (streamPacket st a .aClse [])

/-- `s->shutdown(s)`, which only remote sockets have. -/
def asocketShutdown (st : Sockets) (s : SocketRef) : Sockets :=
  match st.kindOf s with
  | some .remote => remoteSocketShutdown st s
  | _ => st

/-- `local_socket_destroy`: the descriptor is closed, queued packets are
dropped, and the object is unlinked and freed. -/
def localSocketDestroy (st : Sockets) (s : SocketRef) : Sockets :=
  match st.heap s with
  | none => st.halt .fault
  | some a =>
      ((removeSocket (st.record (.fdClosed s)) s).release s).haltWhen a.exitOnClose .exited

/-- The end of `local_socket_close`, after the peer has been dealt with. -/
def localSocketFinish (st : Sockets) (s : SocketRef) : Sockets :=
  match st.heap s with
  | none => st.halt .fault
  | some a =>
      if a.closing || a.hasWriteError || a.pkts.isEmpty then localSocketDestroy st s
      else
        let st := st.modify s fun a =>
          { a with closing := true, fde := fdeventDel a.fde .fdeRead }
        let st := removeSocket st s
        let st := { st with
          localSocketClosingList := st.localSocketClosingList ++ [s]
          links := insertLocalSocket st.links s .localSocketClosingList }
        (st.record (.movedToClosing s a.pkts.flatten)).haltWhen (!a.fde.state.write) .check

section Close

variable (close : Sockets → SocketRef → Sockets)

/-- `local_socket_close`, with `s->peer->close` as a parameter. -/
def localSocketClose (st : Sockets) (s : SocketRef) : Sockets :=
  match st.peerOf s with
  | none => localSocketFinish st s
  | some q =>
      let st := asocketShutdown st q
      let st := st.modify q fun a => { a with peer := none }
      let st := close st q
      localSocketFinish (st.modify s fun a => { a with peer := none }) s

/-- `local_socket_close_notify`: the client learns that its socket was closed
before it was connected. -/
def localSocketCloseNotify (st : Sockets) (s : SocketRef) : Sockets :=
  let st := st.modify s fun a => { a with kind := .localSocket }
  localSocketClose close (st.reply s (.fail (ascii "closed"))) s

/-- The peer's part of every other close function: unlink the peer from this
socket, then close it. -/
def closePeer (st : Sockets) (s : SocketRef) : Sockets :=
  match st.peerOf s with
  | none => st
  | some q => close (st.modify q fun a => { a with peer := none }) q

def remoteSocketClose (st : Sockets) (s : SocketRef) : Sockets :=
  (closePeer close st s).release s

def smartSocketClose (st : Sockets) (s : SocketRef) : Sockets :=
  (closePeer close st s).release s

def jdwpSocketClose (st : Sockets) (s : SocketRef) : Sockets :=
  (removeSocket (closePeer close st s) s).release s

/-- `jdwp_tracker_close`: erasing the tracker from the vector frees it. -/
def jdwpTrackerClose (st : Sockets) (s : SocketRef) : Sockets :=
  let st := removeSocket (closePeer close st s) s
  { st with jdwpTrackers := st.jdwpTrackers.filter (· ≠ s) }.release s

def deviceTrackerClose (st : Sockets) (s : SocketRef) : Sockets :=
  let st := closePeer close st s
  { st with deviceTrackerList := st.deviceTrackerList.filter (· ≠ s) }.release s

end Close

/-- `s->close(s)`.  Every close function unlinks its peer before it closes it,
so the calls never nest deeper than two; `fuel` counts the nesting. -/
def asocketCloseFuel : Nat → Sockets → SocketRef → Sockets
  | 0, st, _ => st.halt .fault
  | fuel + 1, st, s =>
      match st.heap s with
      | none => st.halt .fault
      | some a =>
          let st := st.record (.closeCalled s)
          match a.kind with
          | .localSocket => localSocketClose (asocketCloseFuel fuel) st s
          | .localNotify => localSocketCloseNotify (asocketCloseFuel fuel) st s
          | .remote => remoteSocketClose (asocketCloseFuel fuel) st s
          | .smart => smartSocketClose (asocketCloseFuel fuel) st s
          | .jdwp => jdwpSocketClose (asocketCloseFuel fuel) st s
          | .jdwpTracker => jdwpTrackerClose (asocketCloseFuel fuel) st s
          | .deviceTracker => deviceTrackerClose (asocketCloseFuel fuel) st s

def asocketClose (st : Sockets) (s : SocketRef) : Sockets := asocketCloseFuel 2 st s

/-- `local_socket_enqueue`.  The result is that of the source: `0` when the
socket is ready for more, `1` when it is not, also after a write error. -/
def localSocketEnqueue (st : Sockets) (s : SocketRef) (data : Bytes) : Int × Sockets :=
  match st.heap s with
  | none => (1, st.halt .fault)
  | some a =>
      if a.pkts.isEmpty then
        let out := writeAll st.writeScript data
        let st := st.afterWrite s out
        match out.status with
        | .done => (0, st)
        | .failed =>
            let st := st.record (.fdWriteFailed s)
            (1, asocketClose (st.modify s fun a => { a with hasWriteError := true }) s)
        | .again =>
            (1, st.modify s fun a =>
              { a with pkts := [out.rest], fde := fdeventAdd a.fde .fdeWrite })
      else
        (1, st.modify s fun a =>
          { a with pkts := a.pkts ++ [data], fde := fdeventAdd a.fde .fdeWrite })

def remoteSocketEnqueue (st : Sockets) (s : SocketRef) (data : Bytes) : Int × Sockets :=
  match st.heap s with
  | none => (1, st.halt .fault)
  | some a => (1, sendOn st a.transport (streamPacket st a .aWrte data))

/-- `jdwp_socket_enqueue` and `jdwp_tracker_enqueue`: nothing can be written to
these sockets, so the peer is closed. -/
def jdwpSocketEnqueue (st : Sockets) (s : SocketRef) : Int × Sockets :=
  match st.peerOf s with
  | none => (-1, st.halt .fault)
  | some q => (-1, asocketClose st q)

/-- `device_tracker_enqueue`: the tracker closes itself. -/
def deviceTrackerEnqueue (st : Sockets) (s : SocketRef) : Int × Sockets :=
  (-1, asocketClose st s)

/-- `s->enqueue(s, p)` for the kinds that only touch sockets.  The sockets that
call it here never have a smart socket as their peer. -/
def asocketEnqueue (st : Sockets) (s : SocketRef) (data : Bytes) : Int × Sockets :=
  let st := st.record (.enqueueCalled s data)
  match st.kindOf s with
  | some .localSocket | some .localNotify => localSocketEnqueue st s data
  | some .remote => remoteSocketEnqueue st s data
  | some .jdwp | some .jdwpTracker => jdwpSocketEnqueue st s
  | some .deviceTracker => deviceTrackerEnqueue st s
  | some .smart | none => (-1, st.halt .fault)

/-- What the socket functions read from the rest of the process: the build
(`ADB_HOST`), the payload limit and the state of each transport, the process
ids in `_jdwp_list`, the device list of `list_transports(false)`, the results
of `acquire_one_transport` and of the address lookup of `disconnect:`, whether
a status message could be written, and what decides about a new service. -/
structure ServiceContext where
  host : Bool
  limit : TransportRef → Nat
  offline : TransportRef → Bool
  jdwpPids : List Int
  deviceList : Bytes
  acquire : TransportType → Option Bytes → Except Bytes TransportRef
  findDevice : Bytes → Except Bytes TransportRef
  replyWritten : Bool
  serviceFd : Bytes → Bool
  runsAsRoot : Bool
  debuggable : Bool

/-- `jdwp_process_list`: one line for each known process, as many as fit. -/
def jdwpProcessList (pids : List Int) (bufferlen : Nat) : Bytes :=
  go pids []
where
  go : List Int → Bytes → Bytes
    | [], temp => temp
    | pid :: pids, temp =>
        if pid < 0 then go pids temp
        else
          let next := ascii (toString pid) ++ ascii "\n"
          if temp.length + next.length > bufferlen then temp
          else go pids (temp ++ next)

/-- `jdwp_process_list_msg` for a buffer that holds at least the header. -/
def jdwpProcessListMsg (pids : List Int) (bufferlen : Nat) : Bytes :=
  let list := jdwpProcessList pids (bufferlen - 4)
  hexHeader list.length ++ list

def localSocketReady (st : Sockets) (s : SocketRef) : Sockets :=
  st.modify s fun a => { a with fde := fdeventAdd a.fde .fdeRead }

def localSocketReadyNotify (st : Sockets) (s : SocketRef) : Sockets :=
  let st := st.modify s fun a => { a with kind := .localSocket }
  localSocketReady (st.reply s .okay) s

def remoteSocketReady (st : Sockets) (s : SocketRef) : Sockets :=
  match st.heap s with
  | none => st.halt .fault
  | some a => sendOn st a.transport (streamPacket st a .aOkay [])

/-- `jdwp_socket_ready`: the first call sends the list of processes, the
second one closes the connection. -/
def jdwpSocketReady (ctx : ServiceContext) (st : Sockets) (s : SocketRef) : Sockets :=
  match st.heap s with
  | none => st.halt .fault
  | some a =>
      match a.peer with
      | none => st.halt .fault
      | some q =>
          if a.pass then asocketClose st q
          else
            let list := jdwpProcessList ctx.jdwpPids (getMaxPayload ctx.limit st s)
            (asocketEnqueue st q list).2.modify s fun a => { a with pass := true }

def jdwpTrackerReady (ctx : ServiceContext) (st : Sockets) (s : SocketRef) : Sockets :=
  match st.heap s with
  | none => st.halt .fault
  | some a =>
      if a.needInitial then
        match a.peer with
        | none => st.halt .fault
        | some q =>
            let limit := getMaxPayload ctx.limit st s
            let st := st.modify s fun a => { a with needInitial := false }
            if limit < 4 then st.halt .fatal
            else (asocketEnqueue st q (jdwpProcessListMsg ctx.jdwpPids limit)).2
      else st

def deviceTrackerSend (st : Sockets) (s : SocketRef) (list : Bytes) : Sockets :=
  match st.peerOf s with
  | none => st.halt .fault
  | some q => (asocketEnqueue st q (hexHeader list.length ++ list)).2

/-- `device_tracker_ready`: the list goes out when the tracker connects. -/
def deviceTrackerReady (ctx : ServiceContext) (st : Sockets) (s : SocketRef) : Sockets :=
  match st.heap s with
  | none => st.halt .fault
  | some a =>
      if a.updateNeeded then
        deviceTrackerSend (st.modify s fun a => { a with updateNeeded := false }) s
          ctx.deviceList
      else st

/-- `s->ready(s)`. -/
def asocketReady (ctx : ServiceContext) (st : Sockets) (s : SocketRef) : Sockets :=
  let st := st.record (.readyCalled s)
  match st.kindOf s with
  | none => st.halt .fault
  | some .localSocket => localSocketReady st s
  | some .localNotify => localSocketReadyNotify st s
  | some .remote => remoteSocketReady st s
  | some .smart => st
  | some .jdwp => jdwpSocketReady ctx st s
  | some .jdwpTracker => jdwpTrackerReady ctx st s
  | some .deviceTracker => deviceTrackerReady ctx st s

/-- `close_all_sockets`: close the first related socket and start over.  Each
round removes a socket from the list, so its length bounds the rounds. -/
def closeAllSocketsFuel : Nat → Sockets → TransportRef → Sockets
  | 0, st, _ => st
  | rounds + 1, st, t =>
      let related := fun s => (st.heap s).any fun a =>
        a.transport = some t ||
          (a.peer.bind st.heap).any fun b => b.transport = some t
      match st.localSocketList.find? related with
      | none => st
      | some s => closeAllSocketsFuel rounds (asocketClose st s) t

def closeAllSockets (st : Sockets) (t : TransportRef) : Sockets :=
  closeAllSocketsFuel (st.localSocketList.length + 1) st t

end Adb.SocketOperations
