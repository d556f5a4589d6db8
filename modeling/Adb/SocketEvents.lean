import Adb.SmartSockets

/-! `local_socket_event_func`, the callback of a local socket's descriptor. -/

namespace Adb.SocketEvents

open Adb.DescriptorIo
open Adb.EventInterest
open Adb.WirePackets
open Adb.SocketTable
open Adb.SocketOperations
open Adb.SmartSockets

/-- The `FDE_WRITE` part of `local_socket_event_func`.  The flag says whether
the function goes on to the `FDE_READ` part. -/
def localSocketWriteEvent (ctx : ServiceContext) (st : Sockets) (s : SocketRef) :
    Bool × Sockets :=
  match st.heap s with
  | none => (false, st.halt .fault)
  | some a =>
      let out := drain st.writeScript a.pkts
      let st := st.afterWrite s out
      let st := st.modify s fun a => { a with pkts := out.rest }
      match out.status with
      | .again => (false, st)
      | .failed =>
          let st := st.record (.fdWriteFailed s)
          (false, asocketClose (st.modify s fun a => { a with hasWriteError := true }) s)
      | .done =>
          if a.closing then (false, asocketClose st s)
          else
            let st := st.modify s fun a => { a with fde := fdeventDel a.fde .fdeWrite }
            match a.peer with
            | none => (false, st.halt .fault)
            | some q => (true, asocketReady ctx st q)

/-- The end of the `FDE_READ` part: the socket is closed at an end of file. -/
def closeAtEof (st : Sockets) (s : SocketRef) (lastZero isEof : Bool) : Sockets :=
  match st.heap s with
  | none => st.halt .fault
  | some a => if (a.fde.forceEof && lastZero) || isEof then asocketClose st s else st

/-- The `FDE_READ` part of `local_socket_event_func`. -/
def localSocketReadEvent (ctx : ServiceContext) (st : Sockets) (s : SocketRef) : Sockets :=
  match st.heap s with
  | none => st.halt .fault
  | some a =>
      let out := readLoop true st.readScript (getMaxPayload ctx.limit st s)
      let st := st.afterRead s out
      match a.peer with
      | none => closeAtEof st s out.lastZero out.isEof
      | some q =>
          if out.bytes.isEmpty then closeAtEof st s out.lastZero out.isEof
          else
            let (r, st) := peerEnqueue ctx (st.record (.handedOver s out.bytes)) q out.bytes
            if r < 0 then st
            else if r > 0 then
              match st.heap s with
              | none => st.halt .fault
              | some _ =>
                  closeAtEof
                    (st.modify s fun a => { a with fde := fdeventDel a.fde .fdeRead }) s
                    false out.isEof
            else closeAtEof st s true out.isEof

def localSocketEventFunc (ctx : ServiceContext) (st : Sockets) (s : SocketRef)
    (ev : EventMask) : Sockets :=
  let (goOn, st) :=
    if ev.write then localSocketWriteEvent ctx st s else (true, st)
  if goOn && ev.read then localSocketReadEvent ctx st s else st

/-- `fdevent_call_fdfunc` for a local socket: the pending events are taken and
passed to the callback. -/
def dispatchSocket (ctx : ServiceContext) (st : Sockets) (s : SocketRef) : Sockets :=
  match st.heap s with
  | none => st.halt .fault
  | some a =>
      let st := st.modify s fun a => { a with fde := fdeventTake a.fde }
      localSocketEventFunc ctx st s a.fde.events

/-- `fdevent_process` for a local socket's descriptor. -/
def pollSocket (st : Sockets) (s : SocketRef) (revents : PollResult) : Sockets :=
  st.modify s fun a => { a with fde := fdeventProcess a.fde revents }

/-- `fdevent_subproc_event_func` for the descriptor of a shell service whose
process has exited; `unread` says whether the descriptor still holds data. -/
def subprocExited (ctx : ServiceContext) (st : Sockets) (s : SocketRef) (unread : Bool) :
    Sockets :=
  match st.heap s with
  | none => st
  | some a =>
      let st := st.modify s fun a => { a with fde := { a.fde with forceEof := true } }
      if unread then st
      else
        let st := st.modify s fun a =>
          { a with fde := { a.fde with
              events := a.fde.events.union .fdeRead, pending := true } }
        if a.fde.pending then st else dispatchSocket ctx st s

end Adb.SocketEvents
