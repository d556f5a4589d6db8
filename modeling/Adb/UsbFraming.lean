import Adb.BulkPipes
import Adb.TcpWire

/-!
The packets of transport_usb.cpp on the two bulk endpoints, with the functionfs
calls of daemon/usb.cpp on one end and the requests of client/usb_linux.cpp on
the other.
-/

namespace Adb.UsbFraming

open Adb.BulkPipes
open Adb.ConnectionLimits
open Adb.DescriptorIo
open Adb.TcpWire

/-- The speeds with a descriptor in daemon/usb.cpp. -/
inductive Speed where
  | full
  | high
  | super
  deriving DecidableEq, Repr

/-- `wMaxPacketSize` of the bulk endpoints. -/
def Speed.packetSize : Speed → Nat
  | .full => 64
  | .high => 512
  | .super => 1024

inductive Errno where
  | enodev
  | etimedout
  | other (code : Nat)
  deriving DecidableEq, Repr

/-- Why a call gives no packet: its thread still waits, the connection ends, or
a `CHECK` ends the process. -/
inductive Stop where
  | waiting
  | failed
  | aborted
  deriving DecidableEq, Repr

/-- What becomes of a request to send: an error can come after some packets. -/
inductive Sending where
  | done
  | failed (sent : Nat)
  deriving DecidableEq, Repr

structure Sent where
  ok : Bool
  script : List Sending
  pipe : List Bytes
  deriving DecidableEq, Repr

/-- One request: its packets go to the end of the pipe. -/
def bulkSend (size : Nat) (script : List Sending) (pipe : List Bytes) (data : Bytes) : Sent :=
  match script with
  | .failed sent :: script => ⟨false, script, pipe ++ (packets size data).take sent⟩
  | .done :: script => ⟨true, script, pipe ++ packets size data⟩
  | [] => ⟨true, [], pipe ++ packets size data⟩

/-! ### The device -/

/-- The `usb_handle` of the device. -/
structure Functionfs where
  speed : Speed
  maxRw : Nat
  maxRw_pos : 0 < maxRw

/-- What an `ioctl` returned and the `errno` that is read after it. -/
structure Answer where
  failed : Bool
  errno : Errno
  deriving DecidableEq, Repr

def ffsBulkSize : Nat := 16384

def endpointAllocRetries : Nat := 10

/-- The loop of `init_functionfs` that asks for buffers.  `answers` are those of
the two endpoints, round by round. -/
def allocEndpoints (answers : Nat → Answer × Answer) (round retries maxRw : Nat) : Nat :=
  if ffsBulkSize ≤ maxRw ∧ retries < endpointAllocRetries then
    let (answerIn, answerOut) := answers round
    if answerIn.failed ∨ answerOut.failed then
      if answerIn.errno = .enodev ∨ answerOut.errno = .enodev then
        allocEndpoints answers (round + 1) (retries + 1) maxRw
      else allocEndpoints answers (round + 1) retries (maxRw / 2)
    else maxRw
  else ffsBulkSize
termination_by maxRw + (endpointAllocRetries - retries)
decreasing_by
  · omega
  · simp only [ffsBulkSize] at *
    omega

/-- `MAX_PAYLOAD` or what halving leaves of it. -/
def Halved (maxRw : Nat) : Prop := ∃ k ≤ 4, maxRw = ffsBulkSize * 2 ^ k

theorem halved_allocEndpoints (answers : Nat → Answer × Answer) {round retries maxRw : Nat}
    (h : Halved maxRw ∨ maxRw < ffsBulkSize) :
    Halved (allocEndpoints answers round retries maxRw) := by
  induction round, retries, maxRw using allocEndpoints.induct answers with
  | case1 round retries maxRw hgoes answerIn answerOut hanswers hfailed hgone ih =>
      rw [allocEndpoints, if_pos hgoes, hanswers]
      simp only [if_pos hfailed, if_pos hgone]
      exact ih h
  | case2 round retries maxRw hgoes answerIn answerOut hanswers hfailed hgone ih =>
      rw [allocEndpoints, if_pos hgoes, hanswers]
      simp only [if_pos hfailed, if_neg hgone]
      apply ih
      obtain ⟨k, hk, rfl⟩ | hsmall := h
      · cases k with
        | zero => exact Or.inr (by decide)
        | succ k =>
            refine Or.inl ⟨k, by omega, ?_⟩
            rw [Nat.pow_succ, ← Nat.mul_assoc, Nat.mul_div_cancel _ (by decide)]
      · exact absurd hgoes.1 (by omega)
  | case3 round retries maxRw hgoes answerIn answerOut hanswers hfailed =>
      rw [allocEndpoints, if_pos hgoes, hanswers]
      simp only [if_neg hfailed]
      exact h.resolve_right (by omega)
  | case4 round retries maxRw hgoes =>
      rw [allocEndpoints, if_neg hgoes]
      exact ⟨0, by omega, rfl⟩

theorem Halved.mod_packetSize {maxRw : Nat} (h : Halved maxRw) (speed : Speed) :
    maxRw % speed.packetSize = 0 := by
  obtain ⟨k, -, rfl⟩ := h
  have hdvd : speed.packetSize ∣ ffsBulkSize := by cases speed <;> decide
  exact Nat.mod_eq_zero_of_dvd (Nat.dvd_mul_right_of_dvd hdvd _)

theorem Halved.pos {maxRw : Nat} (h : Halved maxRw) : 0 < maxRw := by
  obtain ⟨k, -, rfl⟩ := h
  exact Nat.mul_pos (by decide) (Nat.pow_pos (by decide))

/-- What `init_functionfs` makes of the handle, on endpoints that are open. -/
def initFunctionfs (answers : Nat → Answer × Answer) (speed : Speed) : Functionfs where
  speed := speed
  maxRw := allocEndpoints answers 0 0 WirePackets.maxPayloadConst
  maxRw_pos := (halved_allocEndpoints answers (Or.inl ⟨4, by decide, by decide⟩)).pos

def usbFfsWrite (h : Functionfs) (script : List Sending) (pipe : List Bytes) (data : Bytes) :
    Sent :=
  if data = [] then ⟨true, script, pipe⟩
  else
    let sent := bulkSend h.speed.packetSize script pipe (data.take h.maxRw)
    if sent.ok then usbFfsWrite h sent.script sent.pipe (data.drop h.maxRw) else sent
termination_by data.length
decreasing_by
  have hpos := List.length_pos_iff.mpr ‹¬data = []›
  have hmax := h.maxRw_pos
  rw [List.length_drop]
  omega

/-- The kernel's side of the device's OUT endpoint: the bytes it kept of a
transfer that was longer than the read, and the packets that are to come.
`failures` says which reads end with an error. -/
structure OutEndpoint where
  kept : Bytes
  pipe : List Bytes
  failures : List Bool
  deriving DecidableEq, Repr

/-- A buffered read: a request of whole packets, of which the reader gets what it
asked for and the kernel keeps the rest. -/
def OutEndpoint.read (size n : Nat) (e : OutEndpoint) : Except Stop (Bytes × OutEndpoint) :=
  match e.failures with
  | true :: _ => .error .failed
  | failures =>
      if e.kept ≠ [] then .ok (e.kept.take n, ⟨e.kept.drop n, e.pipe, failures.tail⟩)
      else
        match receive size (roundUp size n) e.pipe with
        | .complete bytes rest => .ok (bytes.take n, ⟨bytes.drop n, rest, failures.tail⟩)
        | .overflow => .error .failed
        | .waiting => .error .waiting

/-- What the reader will still get. -/
def OutEndpoint.stream (e : OutEndpoint) : Bytes := e.kept ++ e.pipe.flatten

theorem OutEndpoint.read_progress {size n : Nat} {e e' : OutEndpoint} {bytes : Bytes}
    (h : e.read size n = .ok (bytes, e')) (hn : 0 < n) :
    e'.pipe.length < e.pipe.length ∨
      e'.pipe.length = e.pipe.length ∧ e'.kept.length < e.kept.length := by
  unfold OutEndpoint.read at h
  split at h
  · cases h
  · split at h
    · next hkept =>
        have hpos := List.length_pos_iff.mpr hkept
        cases h
        refine Or.inr ⟨rfl, ?_⟩
        rw [List.length_drop]
        omega
    · split at h
      · next hreceive =>
          cases h
          exact Or.inl (length_rest_lt hreceive)
      · cases h
      · cases h

def usbFfsRead (h : Functionfs) (e : OutEndpoint) (len : Nat) :
    Except Stop (Bytes × OutEndpoint) :=
  if len = 0 then .ok ([], e)
  else
    match _ : e.read h.speed.packetSize (min h.maxRw len) with
    | .error stop => .error stop
    | .ok (bytes, e) =>
        match usbFfsRead h e (len - bytes.length) with
        | .error stop => .error stop
        | .ok (rest, e) => .ok (bytes ++ rest, e)
termination_by (e.pipe.length, e.kept.length)
decreasing_by
  have hmax := h.maxRw_pos
  rcases OutEndpoint.read_progress ‹_› (by omega) with hlt | ⟨heq, hlt⟩
  · exact Prod.Lex.left _ _ hlt
  · rw [heq]
    exact Prod.Lex.right _ hlt

variable {build : Build}

/-- No payload is read where none is announced. -/
def devicePayload (h : Functionfs) (e : OutEndpoint) (dataLength : UInt32) :
    Except Stop (Bytes × OutEndpoint) :=
  if dataLength = 0 then .ok ([], e) else usbFfsRead h e dataLength.toNat

/-- `remote_read` of the device. -/
def deviceRead (t : Limits build) (h : Functionfs) (e : OutEndpoint) :
    Except Stop (Packet × OutEndpoint) := do
  let (header, e) ← usbFfsRead h e 24
  let msg := Amessage.ofBytes header
  if checkHeader t msg then
    let (data, e) ← devicePayload h e msg.dataLength
    if fits : msg.dataLength.toNat ≤ data.length then
      let p : Packet := ⟨msg, data, fits⟩
      if checkData p then pure (p, e) else throw .failed
    else throw .failed
  else throw .failed

/-! ### The host -/

/-- The `usb_handle` of the host. -/
structure UsbHandle where
  maxPacketSize : Nat
  zeroMask : Nat
  isOpen : Bool
  deriving DecidableEq, Repr

/-- A write with the zero marker that some devices need.  A marker is a transfer
of no bytes. -/
def usbWrite (h : UsbHandle) (script : List Sending) (pipe : List Bytes) (data : Bytes) : Sent :=
  let sent := bulkSend h.maxPacketSize script pipe data
  if sent.ok ∧ h.zeroMask ≠ 0 ∧ data.length &&& h.zeroMask = 0 then
    bulkSend h.maxPacketSize sent.script sent.pipe []
  else sent

/-- The host's IN endpoint.  `urbs` says which of the next requests fail, and
`errno` keeps the last failure. -/
structure InEndpoint where
  pipe : List Bytes
  urbs : List (Option Errno)
  errno : Errno
  deriving DecidableEq, Repr

/-- `usb_read`: a request that timed out is made again.  A transfer of no bytes
is taken for a failure with the `errno` of the last one. -/
def usbRead (h : UsbHandle) (e : InEndpoint) (len : Nat) : Except Stop (Bytes × InEndpoint) :=
  match _ : e.urbs with
  | some errno :: urbs =>
      if errno = .etimedout ∧ h.isOpen then
        usbRead h { e with urbs := urbs, errno := errno } len
      else .error .failed
  | _ =>
      match _ : receive h.maxPacketSize len e.pipe with
      | .waiting => .error .waiting
      | .overflow => .error .failed
      | .complete bytes rest =>
          if bytes = [] then
            if e.errno = .etimedout ∧ h.isOpen then
              usbRead h { e with pipe := rest, urbs := e.urbs.tail } len
            else .error .failed
          else .ok (bytes, { e with pipe := rest, urbs := e.urbs.tail })
termination_by e.urbs.length + e.pipe.length
decreasing_by
  · rw [‹e.urbs = _›, List.length_cons]
    omega
  · have hlt := length_rest_lt ‹receive _ _ _ = _›
    rw [List.length_tail]
    omega

/-- The parts of the host's transport that `remote_read` reads and writes. -/
structure HostTransport where
  input : InEndpoint
  offline : Bool
  hasSendConnectOnError : Bool
  connectsSent : Nat
  deriving DecidableEq, Repr

/-- What is handed on: a packet, or a header with the command word set to 0,
which `handle_packet` drops. -/
inductive Delivery where
  | packet (p : Packet)
  | skipped (msg : Amessage)
  deriving DecidableEq, Repr

def aCnxn : UInt32 := 0x4e584e43

def aAuth : UInt32 := 0x48545541

/-- The label `err_msg`. -/
def errMsg (s : HostTransport) (msg : Amessage) : Delivery × HostTransport :=
  (.skipped { msg with command := 0 },
    if s.offline ∧ !s.hasSendConnectOnError then
      { s with hasSendConnectOnError := true, connectsSent := s.connectsSent + 1 }
    else s)

/-- `UsbReadMessage`. -/
def usbReadMessage (h : UsbHandle) (e : InEndpoint) : Except Stop (Amessage × InEndpoint) :=
  if 24 ≤ h.maxPacketSize ∧ h.maxPacketSize < 4096 then do
    let (header, e) ← usbRead h e h.maxPacketSize
    if header.length = 24 then pure (Amessage.ofBytes header, e) else throw .failed
  else throw .aborted

/-- `UsbReadPayload`. -/
def usbReadPayload (h : UsbHandle) (e : InEndpoint) (dataLength : Nat) :
    Except Stop (Bytes × InEndpoint) :=
  if WirePackets.maxPayloadConst % h.maxPacketSize = 0 then
    let len := roundUp h.maxPacketSize dataLength
    if len ≤ WirePackets.maxPayloadConst then usbRead h e len else throw .aborted
  else throw .aborted

def hostPayload (h : UsbHandle) (e : InEndpoint) (dataLength : UInt32) :
    Except Stop (Bytes × InEndpoint) :=
  if dataLength = 0 then .ok ([], e) else usbReadPayload h e dataLength.toNat

/-- `remote_read` of the host. -/
def hostRead (t : Limits build) (h : UsbHandle) (s : HostTransport) :
    Except Stop (Delivery × HostTransport) := do
  let (msg, input) ← usbReadMessage h s.input
  let s := { s with input := input }
  if !checkHeader t msg then return errMsg s msg
  if s.offline ∧ msg.command ≠ aCnxn ∧ msg.command ≠ aAuth then return errMsg s msg
  let (data, input) ← hostPayload h s.input msg.dataLength
  let s := { s with input := input }
  if fits : data.length = msg.dataLength.toNat then
    let p : Packet := ⟨msg, data, Nat.le_of_eq fits.symm⟩
    if checkData p then return (.packet p, s) else return errMsg s msg
  else return errMsg s msg

/-! ### Both -/

/-- `remote_write`, over the `usb_write` of either side. -/
def remoteWrite (write : List Sending → List Bytes → Bytes → Sent)
    (script : List Sending) (pipe : List Bytes) (p : Packet) : Sent :=
  let sent := write script pipe p.msg.bytes
  if sent.ok ∧ p.msg.dataLength ≠ 0 then write sent.script sent.pipe p.payload else sent

/-- The write thread: it ends with the first write that fails. -/
def remoteWrites (write : List Sending → List Bytes → Bytes → Sent)
    (script : List Sending) (pipe : List Bytes) : List Packet → Sent
  | [] => ⟨true, script, pipe⟩
  | p :: packets =>
      let sent := remoteWrite write script pipe p
      if sent.ok then remoteWrites write sent.script sent.pipe packets else sent

/-- Some reads in a row. -/
def reads {σ α : Type} (read : σ → Except Stop (α × σ)) : Nat → σ → Except Stop (List α × σ)
  | 0, s => .ok ([], s)
  | n + 1, s => do
      let (a, s) ← read s
      let (rest, s) ← reads read n s
      pure (a :: rest, s)

theorem exists_reads {σ α β : Type} {read : σ → Except Stop (α × σ)} {value : β → α}
    {Awaits : List β → σ → Prop}
    (hstep : ∀ b bs s, Awaits (b :: bs) s →
      ∃ s', read s = .ok (value b, s') ∧ Awaits bs s')
    {bs : List β} {s : σ} (h : Awaits bs s) :
    ∃ s', reads read bs.length s = .ok (bs.map value, s') ∧ Awaits [] s' := by
  induction bs generalizing s with
  | nil => exact ⟨s, rfl, h⟩
  | cons b bs ih =>
      obtain ⟨next, hread, hnext⟩ := hstep b bs s h
      obtain ⟨last, hreads, hlast⟩ := ih hnext
      refine ⟨last, ?_, hlast⟩
      rw [List.length_cons, reads, hread]
      simp only [bind, Except.bind, hreads]
      rfl

/-! ### What is sent -/

theorem pipe_bulkSend {size : Nat} {script : List Sending} {pipe : List Bytes} {data : Bytes}
    (h : (bulkSend size script pipe data).ok) :
    (bulkSend size script pipe data).pipe = pipe ++ packets size data := by
  unfold bulkSend at h ⊢
  split at h
  · cases h
  · rfl
  · rfl

/-- Requests of whole packets follow each other as if they were one transfer. -/
theorem pipe_usbFfsWrite {h : Functionfs} (hdvd : h.maxRw % h.speed.packetSize = 0)
    {script : List Sending} {pipe : List Bytes} {data : Bytes} (hdata : data ≠ [])
    (hok : (usbFfsWrite h script pipe data).ok) :
    (usbFfsWrite h script pipe data).pipe = pipe ++ packets h.speed.packetSize data := by
  have hsize : 0 < h.speed.packetSize := by cases h.speed <;> decide
  induction script, pipe, data using usbFfsWrite.induct h with
  | case1 => exact absurd rfl hdata
  | case2 script pipe data hne sent hsent ih =>
      have hpipe : sent.pipe = pipe ++ packets h.speed.packetSize (data.take h.maxRw) :=
        pipe_bulkSend hsent
      rw [usbFfsWrite, if_neg hne, if_pos hsent] at hok ⊢
      by_cases hrest : data.drop h.maxRw = []
      · rw [hrest, usbFfsWrite, if_pos rfl, hpipe,
          List.take_of_length_le (List.drop_eq_nil_iff.mp hrest)]
      · have hmax := h.maxRw_pos
        have hlong : h.maxRw < data.length := by
          rw [List.drop_eq_nil_iff] at hrest
          omega
        have htake : (data.take h.maxRw).length = h.maxRw :=
          List.length_take_of_le (Nat.le_of_lt hlong)
        have hfirst : data.take h.maxRw ≠ [] := by
          rw [← List.length_pos_iff, htake]
          exact hmax
        rw [ih hrest hok, hpipe, List.append_assoc,
          ← packets_append hsize (by rw [htake, hdvd]) hfirst hrest, List.take_append_drop]
  | case3 script pipe data hne sent hsent =>
      rw [usbFfsWrite, if_neg hne, if_neg hsent] at hok
      exact absurd hok hsent

/-- The packets on the bus for one apacket. -/
def frames (size : Nat) (p : Packet) : List Bytes :=
  packets size p.msg.bytes ++
    if p.msg.dataLength = 0 then [] else packets size p.payload

theorem payload_ne_nil {p : Packet} (h : p.msg.dataLength ≠ 0) : p.payload ≠ [] := by
  rw [← List.length_pos_iff, length_payload]
  refine Nat.pos_of_ne_zero fun hzero => h ?_
  rw [← UInt32.toNat_inj, hzero]
  rfl

theorem bytes_ne_nil (msg : Amessage) : msg.bytes ≠ [] := by
  rw [← List.length_pos_iff, length_bytes]
  decide

theorem pipe_remoteWrite {h : Functionfs} (hdvd : h.maxRw % h.speed.packetSize = 0)
    {script : List Sending} {pipe : List Bytes} {p : Packet}
    (hok : (remoteWrite (usbFfsWrite h) script pipe p).ok) :
    (remoteWrite (usbFfsWrite h) script pipe p).pipe =
      pipe ++ frames h.speed.packetSize p := by
  unfold remoteWrite at hok ⊢
  dsimp only at hok ⊢
  by_cases hheader : (usbFfsWrite h script pipe p.msg.bytes).ok
  · have hpipe := pipe_usbFfsWrite hdvd (bytes_ne_nil p.msg) hheader
    by_cases hlength : p.msg.dataLength = 0
    · rw [if_neg (by simp [hlength]), hpipe, frames, if_pos hlength, List.append_nil]
    · rw [if_pos ⟨hheader, hlength⟩] at hok ⊢
      rw [pipe_usbFfsWrite hdvd (payload_ne_nil hlength) hok, hpipe, frames,
        if_neg hlength, List.append_assoc]
  · rw [if_neg (fun hboth => hheader hboth.1)] at hok
    exact absurd hok hheader

theorem pipe_remoteWrites {h : Functionfs} (hdvd : h.maxRw % h.speed.packetSize = 0)
    {script : List Sending} {pipe : List Bytes} {packets : List Packet}
    (hok : (remoteWrites (usbFfsWrite h) script pipe packets).ok) :
    (remoteWrites (usbFfsWrite h) script pipe packets).pipe =
      pipe ++ packets.flatMap (frames h.speed.packetSize) := by
  induction packets generalizing script pipe with
  | nil => simp [remoteWrites]
  | cons p packets ih =>
      rw [remoteWrites] at hok ⊢
      by_cases hfirst : (remoteWrite (usbFfsWrite h) script pipe p).ok
      · rw [if_pos hfirst] at hok ⊢
        rw [ih hok, pipe_remoteWrite hdvd hfirst, List.flatMap_cons, List.append_assoc]
      · rw [if_neg hfirst] at hok
        exact absurd hok hfirst

/-! ### What the host receives -/

/-- The requests of the host can time out, but they do not fail otherwise. -/
def Patient (h : UsbHandle) (e : InEndpoint) : Prop :=
  h.isOpen ∧ ∀ urb ∈ e.urbs, urb = none ∨ urb = some .etimedout

theorem exists_usbRead {h : UsbHandle} {len : Nat} {bytes : Bytes}
    (hsize : 0 < h.maxPacketSize) (hbytes : bytes ≠ [])
    (hends : Ends h.maxPacketSize len bytes) {later : List Bytes} {e : InEndpoint}
    (hpatient : Patient h e)
    (hpipe : e.pipe = packets h.maxPacketSize bytes ++ later) :
    ∃ e', usbRead h e len = .ok (bytes, e') ∧ e'.pipe = later ∧ Patient h e' := by
  have hreceive : receive h.maxPacketSize len e.pipe = .complete bytes later := by
    rw [hpipe, receive_packets hsize hends]
  obtain ⟨hopen, hurbs⟩ := hpatient
  obtain ⟨pipe, urbs, errno⟩ := e
  induction urbs generalizing errno with
  | nil =>
      rw [usbRead]
      split
      · next hcons => cases hcons
      · split <;> simp_all [Patient]
  | cons urb urbs ih =>
      have htail : ∀ urb ∈ urbs, urb = none ∨ urb = some .etimedout :=
        fun urb hmem => hurbs urb (List.mem_cons_of_mem _ hmem)
      rcases hurbs urb List.mem_cons_self with rfl | rfl
      · rw [usbRead]
        split
        · next hcons => cases hcons
        · split <;> simp_all [Patient]
      · obtain ⟨e', hread, hrest⟩ := ih .etimedout hpipe hreceive htail
        refine ⟨e', ?_, hrest⟩
        rw [usbRead]
        split
        · next hcons =>
            cases hcons
            rw [if_pos ⟨rfl, hopen⟩]
            exact hread
        · next hnone => exact absurd rfl (hnone _ _)

theorem exists_usbReadMessage {h : UsbHandle} {speed : Speed}
    (hsize : h.maxPacketSize = speed.packetSize) {msg : Amessage} {later : List Bytes}
    {e : InEndpoint} (hpatient : Patient h e)
    (hpipe : e.pipe = packets h.maxPacketSize msg.bytes ++ later) :
    ∃ e', usbReadMessage h e = .ok (msg, e') ∧ e'.pipe = later ∧ Patient h e' := by
  have hrange : 24 ≤ h.maxPacketSize ∧ h.maxPacketSize < 4096 ∧
      24 % h.maxPacketSize ≠ 0 := by
    rw [hsize]
    cases speed <;> decide
  have hends : Ends h.maxPacketSize h.maxPacketSize msg.bytes := by
    rw [Ends, length_bytes]
    exact ⟨hrange.1, Or.inr (Or.inr hrange.2.2)⟩
  obtain ⟨e', hread, hrest⟩ :=
    exists_usbRead (by omega) (bytes_ne_nil msg) hends hpatient hpipe
  refine ⟨e', ?_, hrest⟩
  rw [usbReadMessage, if_pos ⟨hrange.1, hrange.2.1⟩, hread]
  simp only [bind, Except.bind, length_bytes, if_pos, ofBytes_bytes]
  rfl

theorem exists_usbReadPayload {h : UsbHandle} {speed : Speed}
    (hsize : h.maxPacketSize = speed.packetSize) {data : Bytes} (hdata : data ≠ [])
    (hlimit : data.length ≤ WirePackets.maxPayloadConst) {later : List Bytes}
    {e : InEndpoint} (hpatient : Patient h e)
    (hpipe : e.pipe = packets h.maxPacketSize data ++ later) :
    ∃ e', usbReadPayload h e data.length = .ok (data, e') ∧ e'.pipe = later ∧
      Patient h e' := by
  have hdvd : WirePackets.maxPayloadConst % h.maxPacketSize = 0 := by
    rw [hsize]
    cases speed <;> decide
  have hpos : 0 < h.maxPacketSize := by
    rw [hsize]
    cases speed <;> decide
  obtain ⟨e', hread, hrest⟩ :=
    exists_usbRead hpos hdata (ends_roundUp data) hpatient hpipe
  refine ⟨e', ?_, hrest⟩
  rw [usbReadPayload, if_pos hdvd]
  dsimp only
  rw [if_pos (roundUp_le hpos hdvd hlimit), hread]

/-- A transport that waits for its connection takes no other packets. -/
def Admits (s : HostTransport) (p : Packet) : Prop :=
  s.offline → p.msg.command = aCnxn ∨ p.msg.command = aAuth

theorem exists_hostRead {t : Limits adbBuild} {h : UsbHandle} {speed : Speed}
    (hsize : h.maxPacketSize = speed.packetSize) {p : Packet}
    (hlen : p.msg.dataLength.toNat ≤ t.maxPayload) {later : List Bytes}
    {s : HostTransport} (hadmits : Admits s p) (hpatient : Patient h s.input)
    (hpipe : s.input.pipe = frames h.maxPacketSize (sendPacket p) ++ later) :
    ∃ input, hostRead t h s =
        .ok (.packet (sendPacket p).received, { s with input := input }) ∧
      input.pipe = later ∧ Patient h input := by
  have hlimit := t.payload_le
  simp only [adbBuild] at hlimit
  rw [frames, List.append_assoc] at hpipe
  obtain ⟨input, hmessage, hrest, hstill⟩ := exists_usbReadMessage hsize hpatient hpipe
  have hcommand : (sendPacket p).msg.command = p.msg.command := rfl
  have hwait : ¬(s.offline ∧ (sendPacket p).msg.command ≠ aCnxn ∧
      (sendPacket p).msg.command ≠ aAuth) := by
    rintro ⟨hoffline, hcnxn, hauth⟩
    rw [hcommand] at hcnxn hauth
    exact (hadmits hoffline).elim hcnxn hauth
  have hpayload : ∃ last, hostPayload h input (sendPacket p).msg.dataLength =
      .ok ((sendPacket p).payload, last) ∧ last.pipe = later ∧ Patient h last := by
    unfold hostPayload
    by_cases hzero : (sendPacket p).msg.dataLength = 0
    · rw [if_pos hzero, List.nil_append] at hrest
      refine ⟨input, ?_, hrest, hstill⟩
      have hnil : (sendPacket p).payload = [] := by
        rw [← List.length_eq_zero_iff, length_payload, hzero]
        rfl
      rw [if_pos hzero, hnil]
    · rw [if_neg hzero] at hrest ⊢
      rw [← length_payload]
      apply exists_usbReadPayload hsize (payload_ne_nil hzero) _ hstill hrest
      rw [length_payload]
      exact Nat.le_trans hlen hlimit
  obtain ⟨last, hread, hpipe', hlast⟩ := hpayload
  refine ⟨last, ?_, hpipe', hlast⟩
  have hfits : (sendPacket p).payload.length = (sendPacket p).msg.dataLength.toNat :=
    length_payload _
  have hpacket : (⟨(sendPacket p).msg, (sendPacket p).payload, Nat.le_of_eq hfits.symm⟩ :
      Packet) = (sendPacket p).received := rfl
  rw [hostRead, hmessage]
  simp only [bind, Except.bind]
  rw [checkHeader_sendPacket hlen]
  simp only [Bool.not_true, Bool.false_eq_true, if_false, if_neg hwait, hread, dif_pos hfits,
    hpacket, checkData_received, if_true]
  rfl

/-- Whatever the buffers that the kernel gave to the device, and however often a
request of the host times out, every packet that the device wrote arrives, and
the pipe stands where the next one starts. -/
theorem device_packets_arrive (t : Limits adbBuild) (answers : Nat → Answer × Answer)
    (speed : Speed) (h : UsbHandle) (hsize : h.maxPacketSize = speed.packetSize)
    (script : List Sending) (packets : List Packet)
    (hlen : ∀ p ∈ packets, p.msg.dataLength.toNat ≤ t.maxPayload)
    (hok : (remoteWrites (usbFfsWrite (initFunctionfs answers speed)) script []
      (packets.map sendPacket)).ok)
    (later : List Bytes) (s : HostTransport) (hadmits : ∀ p ∈ packets, Admits s p)
    (hpatient : Patient h s.input)
    (hpipe : s.input.pipe = (remoteWrites (usbFfsWrite (initFunctionfs answers speed)) script []
      (packets.map sendPacket)).pipe ++ later) :
    ∃ (received : List Packet) (input : InEndpoint),
      reads (hostRead t h) packets.length s =
        .ok (received.map .packet, { s with input := input }) ∧
      received.map Packet.content = packets.map Packet.content ∧
      input.pipe = later := by
  have hhalved : Halved (initFunctionfs answers speed).maxRw :=
    halved_allocEndpoints answers (Or.inl ⟨4, by decide, by decide⟩)
  rw [pipe_remoteWrites (hhalved.mod_packetSize speed) hok, List.nil_append] at hpipe
  let Awaits (ps : List Packet) (st : HostTransport) : Prop :=
    st = { s with input := st.input } ∧ Patient h st.input ∧
      (∀ p ∈ ps, p ∈ packets) ∧
      st.input.pipe = (ps.map sendPacket).flatMap (frames speed.packetSize) ++ later
  have hstep : ∀ p ps st, Awaits (p :: ps) st →
      ∃ st', hostRead t h st = .ok (.packet (sendPacket p).received, st') ∧ Awaits ps st' := by
    rintro p ps st ⟨hst, hpatient, hmem, hpipe⟩
    have hp := hmem p List.mem_cons_self
    rw [List.map_cons, List.flatMap_cons, List.append_assoc, ← hsize] at hpipe
    have hadmit : Admits st p := by
      rw [hst]
      exact hadmits p hp
    obtain ⟨input, hread, hrest, hstill⟩ :=
      exists_hostRead hsize (hlen p hp) hadmit hpatient hpipe
    refine ⟨_, hread, ?_, hstill, fun q hq => hmem q (List.mem_cons_of_mem _ hq), ?_⟩
    · rw [hst]
    · rw [hrest, hsize]
  obtain ⟨last, hreads, hst, -, -, hrest⟩ := exists_reads hstep
    (show Awaits packets s from ⟨rfl, hpatient, fun p hp => hp, hpipe⟩)
  refine ⟨packets.map fun p => (sendPacket p).received, last.input, ?_, ?_, hrest⟩
  · rw [hreads, ← hst, List.map_map]
    rfl
  · rw [List.map_map]
    apply List.map_congr_left
    intro p _
    simp only [Function.comp_apply, Packet.content, payload_received]
    rfl

theorem ok_bulkSend {size : Nat} {script : List Sending} {pipe : List Bytes} {data : Bytes}
    (h : ∀ sending ∈ script, sending = .done) :
    (bulkSend size script pipe data).ok ∧
      ∀ sending ∈ (bulkSend size script pipe data).script, sending = .done := by
  unfold bulkSend
  split
  · next sent rest => exact absurd (h _ List.mem_cons_self) (by simp)
  · next rest => exact ⟨rfl, fun sending hmem => h sending (List.mem_cons_of_mem _ hmem)⟩
  · exact ⟨rfl, by simp⟩

theorem ok_usbFfsWrite {h : Functionfs} {script : List Sending} {pipe : List Bytes}
    {data : Bytes} (hdone : ∀ sending ∈ script, sending = .done) :
    (usbFfsWrite h script pipe data).ok ∧
      ∀ sending ∈ (usbFfsWrite h script pipe data).script, sending = .done := by
  fun_induction usbFfsWrite h script pipe data with
  | case1 script pipe => exact ⟨rfl, hdone⟩
  | case2 script pipe data hne sent hsent ih => exact ih (ok_bulkSend hdone).2
  | case3 script pipe data hne sent hsent => exact absurd (ok_bulkSend hdone).1 hsent

theorem ok_usbWrite {h : UsbHandle} {script : List Sending} {pipe : List Bytes}
    {data : Bytes} (hdone : ∀ sending ∈ script, sending = .done) :
    (usbWrite h script pipe data).ok ∧
      ∀ sending ∈ (usbWrite h script pipe data).script, sending = .done := by
  unfold usbWrite
  dsimp only
  split
  · exact ok_bulkSend (ok_bulkSend hdone).2
  · exact ok_bulkSend hdone

theorem ok_remoteWrites {write : List Sending → List Bytes → Bytes → Sent}
    (hwrite : ∀ script pipe data, (∀ sending ∈ script, sending = .done) →
      (write script pipe data).ok ∧
        ∀ sending ∈ (write script pipe data).script, sending = .done)
    {script : List Sending} {pipe : List Bytes} (packets : List Packet)
    (hdone : ∀ sending ∈ script, sending = .done) :
    (remoteWrites write script pipe packets).ok := by
  induction packets generalizing script pipe with
  | nil => rfl
  | cons p packets ih =>
      have hfirst : (remoteWrite write script pipe p).ok ∧
          ∀ sending ∈ (remoteWrite write script pipe p).script, sending = .done := by
        have hheader := hwrite script pipe p.msg.bytes hdone
        unfold remoteWrite
        dsimp only
        split
        · exact hwrite _ _ _ hheader.2
        · exact hheader
      rw [remoteWrites, if_pos hfirst.1]
      exact ih hfirst.2

/-- A host with a connection, with a request that times out first. -/
def sampleTransport (pipe : List Bytes) : HostTransport :=
  ⟨⟨pipe, [some .etimedout], .other 0⟩, false, false, 0⟩

/-- The endpoints refuse the first size and take the second. -/
def sampleAnswers : Nat → Answer × Answer
  | 0 => (⟨true, .other 12⟩, ⟨false, .other 12⟩)
  | _ => (⟨false, .other 12⟩, ⟨false, .other 12⟩)

theorem device_packets_arrive_sample :
    ∃ (received : List Packet) (input : InEndpoint),
      reads (hostRead (Limits.initial adbBuild) ⟨512, 511, true⟩) 1
          (sampleTransport ((remoteWrites (usbFfsWrite (initFunctionfs sampleAnswers .high)) []
            [] ([samplePacket].map sendPacket)).pipe ++ [[7]])) =
        .ok (received.map .packet, { sampleTransport
          ((remoteWrites (usbFfsWrite (initFunctionfs sampleAnswers .high)) []
            [] ([samplePacket].map sendPacket)).pipe ++ [[7]]) with input := input }) ∧
      received.map Packet.content = [samplePacket].map Packet.content ∧
      input.pipe = [[7]] :=
  device_packets_arrive (Limits.initial adbBuild) sampleAnswers .high ⟨512, 511, true⟩ rfl []
    [samplePacket] (by decide) (ok_remoteWrites (fun _ _ _ => ok_usbFfsWrite) _ (by simp))
    [[7]] _ (by simp [Admits, sampleTransport])
    ⟨rfl, by simp [sampleTransport]⟩ rfl

end Adb.UsbFraming
