import Adb.SocketEvents
import Adb.ServerState
import Adb.TransitionSystems

/-!
The callbacks that the main loop dispatches, as one step function, and the
runs of a process.
-/

namespace Adb.ServerRuns

open Adb.DescriptorIo
open Adb.EventInterest
open Adb.WirePackets
open Adb.SocketTable
open Adb.SocketOperations
open Adb.SmartSockets
open Adb.SocketEvents
open Adb.ServerState
open Adb.TransitionSystems

/-- `remove_listener`: the first listener with this name goes, and with it its
registration on the transport. -/
def removeListener (st : Server) (localName : Bytes) : Server :=
  match st.listeners.find? (·.localName = localName) with
  | none => st
  | some l =>
      let st := { st with listeners := st.listeners.filter (·.ref ≠ l.ref) }
      match l.transport with
      | some t => removeDisconnect st t (.listener l.ref)
      | none => st

/-- The listeners that `remove_all_listeners` keeps. -/
def isSpecial (l : Alistener) : Bool := l.connectTo.head? = some 42

def removeAllListeners (st : Server) : Server :=
  (st.listeners.filter fun l => !isSpecial l).foldl
    (fun st l => match l.transport with
      | some t => removeDisconnect st t (.listener l.ref)
      | none => st)
    { st with listeners := st.listeners.filter isSpecial }

/-- `install_listener` for a name that is not in use yet. -/
def addListener (env : Oracle) (st : Server) (localName connectTo : Bytes)
    (transport : Option TransportRef) : Server :=
  match env.listen with
  | none => st
  | some resolved =>
      let name :=
        if resolved = 0 then localName else ascii "tcp:" ++ ascii (toString resolved)
      let l : Alistener := ⟨st.nextListener, name, connectTo, transport⟩
      let st := { st with
        listeners := st.listeners ++ [l]
        nextListener := st.nextListener + 1 }
      match transport with
      | some t => addDisconnect st t (.listener l.ref)
      | none => st

/-- `install_listener` for a name in use: the listener gets the new target,
and moves to the new transport. -/
def rebindListener (st : Server) (l : Alistener) (connectTo : Bytes) (t : TransportRef) :
    Server :=
  let rebound := { l with connectTo := connectTo, transport := some t }
  let st := { st with
    listeners := st.listeners.map fun m => if m.ref = l.ref then rebound else m }
  if l.transport = some t then st
  else
    let st := match l.transport with
      | some old => removeDisconnect st old (.listener l.ref)
      | none => { st with sockets := st.sockets.halt .fault }
    addDisconnect st t (.listener l.ref)

/-- `install_listener`, called with a transport. -/
def installListener (env : Oracle) (st : Server) (localName connectTo : Bytes)
    (t : TransportRef) (noRebind : Bool) : Server :=
  match st.listeners.find? (·.localName = localName) with
  | none => addListener env st localName connectTo (some t)
  | some l =>
      if isSpecial l || noRebind then st else rebindListener st l connectTo t

/-- `android::base::Split` at a semicolon. -/
def splitPieces (s : Bytes) : List Bytes := s.splitOn 59

/-- The effect of `handle_forward_request` on the listeners. -/
def applyForwardRequest (cfg : Config) (env : Oracle) (st : Server)
    (request : ForwardRequest) : Server :=
  let service := request.service
  if service = ascii "killforward-all" then removeAllListeners st
  else if (ascii "killforward:").isPrefixOf service then
    match splitPieces (service.drop 12) with
    | [localName] =>
        if localName = [] then st
        else
          match acquireOneTransport cfg st request.type request.serial false with
          | .error _ => st
          | .ok _ => removeListener st localName
    | _ => st
  else if !(ascii "forward:").isPrefixOf service then st
  else
    let rest := service.drop 8
    let noRebind := (ascii "norebind:").isPrefixOf rest
    match splitPieces (if noRebind then rest.drop 9 else rest) with
    | [localName, connectTo] =>
        if localName = [] ∨ connectTo = [] ∨ connectTo.head? = some 42 then st
        else
          match acquireOneTransport cfg st request.type request.serial false with
          | .error _ => st
          | .ok t => installListener env st localName connectTo t noRebind
    | _ => st

/-- Run a socket function with the scripts of this callback, then the
forwarding requests that it made. -/
def runSockets (cfg : Config) (env : Oracle) (st : Server)
    (f : ServiceContext → Sockets → Sockets) : Server :=
  let sockets := f (serviceContext cfg env st) st.sockets
  let requests := sockets.forwardRequests
  requests.foldl (applyForwardRequest cfg env)
    { st with sockets := { sockets with forwardRequests := [] } }

/-- `listener_event_func` after a successful accept. -/
def listenerEventFunc (ctx : ServiceContext) (st : Sockets) (l : Alistener) : Sockets :=
  let (s, st) := createLocalSocket st
  let st := st.modify s fun a => { a with transport := l.transport }
  connectToRemote ctx st s l.connectTo

/-- `ss_listener_event_func` after a successful accept. -/
def ssListenerEventFunc (ctx : ServiceContext) (st : Sockets) : Sockets :=
  let (s, st) := createLocalSocket st
  connectToSmartsocket ctx st s

/-- `jdwp_process_list_updated`: every connected tracker gets the new list. -/
def jdwpProcessListUpdated (ctx : ServiceContext) (st : Sockets) : Sockets :=
  st.jdwpTrackers.foldl
    (fun st tracker => match st.peerOf tracker with
      | some q => (asocketEnqueue st q (jdwpProcessListMsg ctx.jdwpPids 1024)).2
      | none => st) st

/-- The callbacks of the main loop. -/
inductive Action where
  | packet (t : TransportRef) (p : Apacket)
  | poll (s : SocketRef) (revents : PollResult)
  | dispatch (s : SocketRef)
  | subprocExited (s : SocketRef) (unread : Bool)
  | accept (l : ListenerRef)
  | acceptSmart
  | jdwpUpdated
  | register (t : TransportRef) (state : ConnectionState) (type : TransportType)
  | remove (t : TransportRef)
  | reverseRequest (service : Bytes)
  | frameworkConnect
  | frameworkRead (response : Bytes) (answered : Nat)
  deriving DecidableEq, Repr

/-- When a callback can run.  Local sockets are the only ones whose descriptor
is polled; `poll` answers as `PollResult.Allowed` says. -/
def Enabled (cfg : Config) (st : Server) : Action → Prop
  | .packet t _ => t ∈ st.transportList
  | .poll s revents =>
      ∃ a, st.sockets.heap s = some a ∧
        (a.kind = .localSocket ∨ a.kind = .localNotify) ∧ revents.Allowed a.fde.state
  | .dispatch s =>
      ∃ a, st.sockets.heap s = some a ∧
        (a.kind = .localSocket ∨ a.kind = .localNotify) ∧ a.fde.pending = true
  | .subprocExited s _ =>
      cfg.host = false ∧ ∃ a, st.sockets.heap s = some a ∧
        (a.kind = .localSocket ∨ a.kind = .localNotify)
  | .accept l => ∃ listener ∈ st.listeners, listener.ref = l ∧ isSpecial listener = false
  | .acceptSmart => True
  | .jdwpUpdated => cfg.host = false
  | .register t _ _ => AuthEvent.created t ∉ st.authLog
  | .remove t => t ∈ st.transportList
  | .reverseRequest _ => cfg.host = false
  | .frameworkConnect => cfg.host = false
  | .frameworkRead _ _ => cfg.host = false ∧ st.frameworkConnected = true

/-- `transport_registration_func` for a new transport. -/
def registerTransport (cfg : Config) (env : Oracle) (st : Server) (t : TransportRef)
    (state : ConnectionState) (type : TransportType) : Server :=
  let st := st.modifyTransport t fun _ => .blank state type
  let st := { st with transportList := t :: st.transportList }.log (.created t)
  updateTransports cfg env st

/-- `transport_registration_func` for a transport whose threads have ended. -/
def deleteTransport (cfg : Config) (env : Oracle) (st : Server) (t : TransportRef) : Server :=
  let st := { st with transportList := st.transportList.filter (· ≠ t) }.log (.deleted t)
  updateTransports cfg env st

/-- One callback. -/
def step (cfg : Config) (env : Oracle) (st : Server) (action : Action) : Server :=
  let st := { st with sockets := { st.sockets with
    readScript := env.reads, writeScript := env.writes } }
  match action with
  | .packet t p => handlePacket cfg env st t p
  | .poll s revents => { st with sockets := pollSocket st.sockets s revents }
  | .dispatch s => runSockets cfg env st fun ctx sockets => dispatchSocket ctx sockets s
  | .subprocExited s unread =>
      runSockets cfg env st fun ctx sockets => subprocExited ctx sockets s unread
  | .accept l =>
      match st.listeners.find? (·.ref = l) with
      | none => st
      | some listener =>
          runSockets cfg env st fun ctx sockets => listenerEventFunc ctx sockets listener
  | .acceptSmart => runSockets cfg env st ssListenerEventFunc
  | .jdwpUpdated => runSockets cfg env st jdwpProcessListUpdated
  | .register t state type => registerTransport cfg env st t state type
  | .remove t => deleteTransport cfg env st t
  | .reverseRequest service => applyForwardRequest cfg env st ⟨service, .any, none⟩
  | .frameworkConnect => adbdAuthListener env st
  | .frameworkRead response answered => adbdAuthEvent cfg st response answered

/-- A condition on one live socket can be decided. -/
instance decidableLive (st : Sockets) (s : SocketRef) (p : Asocket → Prop) [DecidablePred p] :
    Decidable (∃ a, st.heap s = some a ∧ p a) :=
  match h : st.heap s with
  | none => .isFalse (by simp)
  | some a => decidable_of_iff (p a) (by simp)

instance (cfg : Config) (st : Server) : (action : Action) → Decidable (Enabled cfg st action)
  | .packet t _ => inferInstanceAs (Decidable (t ∈ st.transportList))
  | .poll s revents => decidableLive st.sockets s fun a =>
      (a.kind = .localSocket ∨ a.kind = .localNotify) ∧ revents.Allowed a.fde.state
  | .dispatch s => decidableLive st.sockets s fun a =>
      (a.kind = .localSocket ∨ a.kind = .localNotify) ∧ a.fde.pending = true
  | .subprocExited s _ =>
      have := decidableLive st.sockets s fun a => a.kind = .localSocket ∨ a.kind = .localNotify
      inferInstanceAs (Decidable (_ ∧ _))
  | .accept l => inferInstanceAs (Decidable
      (∃ listener ∈ st.listeners, listener.ref = l ∧ isSpecial listener = false))
  | .acceptSmart => inferInstanceAs (Decidable True)
  | .jdwpUpdated => inferInstanceAs (Decidable (cfg.host = false))
  | .register t _ _ => inferInstanceAs (Decidable (AuthEvent.created t ∉ st.authLog))
  | .remove t => inferInstanceAs (Decidable (t ∈ st.transportList))
  | .reverseRequest _ => inferInstanceAs (Decidable (cfg.host = false))
  | .frameworkConnect => inferInstanceAs (Decidable (cfg.host = false))
  | .frameworkRead _ _ => inferInstanceAs (Decidable (_ ∧ _))

/-- The runs of one process.  A step is a callback together with what the
environment contributes to it. -/
def serverSystem (cfg : Config) : System Server (Action × Oracle) where
  initial st := st = .initial
  enabled st l := st.sockets.halted = none ∧ Enabled cfg st l.1
  next st l := step cfg l.2 st l.1

instance (cfg : Config) (st : Server) (l : Action × Oracle) :
    Decidable ((serverSystem cfg).enabled st l) :=
  inferInstanceAs (Decidable (_ ∧ _))

/-- A process that accepts no signature and matches no serial number. -/
def plainConfig (host authRequired : Bool) : Config where
  host := host
  authRequired := authRequired
  adbdAuthVerify := fun _ _ => false
  matchesTarget := fun _ _ => false
  noPermText := []
  vendorKeys := none
  connectionString := []

end Adb.ServerRuns
