import Adb.UsbFraming

/-!
What the device reads of the host's writes on its bulk endpoint, and what the
host makes of any traffic at all.
-/

namespace Adb.UsbReception

open Adb.BulkPipes
open Adb.ConnectionLimits
open Adb.DescriptorIo
open Adb.TcpWire hiding remoteWrite remoteWrites
open Adb.UsbFraming

variable {build : Build}

/-! ### What the device receives -/

/-- The packets fit the endpoint, and no read of the device fails. -/
structure Sound (size : Nat) (e : OutEndpoint) : Prop where
  small : ∀ packet ∈ e.pipe, packet.length ≤ size
  clean : ∀ failure ∈ e.failures, failure = false

theorem exists_read {size n : Nat} {e : OutEndpoint} (hsize : 0 < size)
    (hsound : Sound size e) (hn : 0 < n) (hstream : n ≤ e.stream.length) :
    ∃ bytes e', e.read size n = .ok (bytes, e') ∧ bytes ++ e'.stream = e.stream ∧
      bytes.length ≤ n ∧ Sound size e' := by
  obtain ⟨kept, pipe, failures⟩ := e
  have hclean : ∀ failure ∈ failures.tail, failure = false :=
    fun failure hmem => hsound.clean failure (List.mem_of_mem_tail hmem)
  have hfirst : ∀ rest, failures ≠ true :: rest := by
    rintro rest rfl
    exact absurd (hsound.clean true List.mem_cons_self) (by decide)
  unfold OutEndpoint.read
  split
  · next hcons => exact absurd hcons (hfirst _)
  · by_cases hkept : kept = []
    · subst hkept
      have hpipe : n ≤ pipe.flatten.length := hstream
      obtain ⟨bytes, rest, hreceive⟩ := exists_receive hsound.small
        (Nat.lt_of_lt_of_le hn (le_roundUp size n)) (roundUp_mod hsize n)
        (Nat.lt_of_lt_of_le (roundUp_lt hsize n) (Nat.add_le_add_right hpipe size))
      refine ⟨bytes.take n, ⟨bytes.drop n, rest, failures.tail⟩, ?_, ?_,
        List.length_take_le n bytes,
        ⟨fun packet hmem => hsound.small packet (mem_of_mem_rest hmem hreceive), hclean⟩⟩
      · rw [if_neg (by simp)]
        simp only [hreceive]
      · simp only [OutEndpoint.stream]
        rw [← List.append_assoc, List.take_append_drop, receive_flatten hreceive,
          List.nil_append]
    · refine ⟨kept.take n, ⟨kept.drop n, pipe, failures.tail⟩, ?_, ?_,
        List.length_take_le n kept, ⟨hsound.small, hclean⟩⟩
      · rw [if_pos hkept]
      · simp only [OutEndpoint.stream]
        rw [← List.append_assoc, List.take_append_drop]

/-- The reader of the device gets the bytes it asks for, however they are cut
into transfers. -/
theorem exists_usbFfsRead {h : Functionfs} {e : OutEndpoint} {len : Nat}
    (hsound : Sound h.speed.packetSize e) (hstream : len ≤ e.stream.length) :
    ∃ e', usbFfsRead h e len = .ok (e.stream.take len, e') ∧
      e'.stream = e.stream.drop len ∧ Sound h.speed.packetSize e' := by
  have hsize : 0 < h.speed.packetSize := by cases h.speed <;> decide
  have hmax := h.maxRw_pos
  induction e, len using usbFfsRead.induct h with
  | case1 e =>
      refine ⟨e, ?_, rfl, hsound⟩
      rw [usbFfsRead, if_pos rfl, List.take_zero]
  | case2 e len hlen stop hread =>
      obtain ⟨bytes, e', hok, -⟩ :=
        exists_read hsize hsound (n := min h.maxRw len) (by omega) (by omega)
      rw [hok] at hread
      cases hread
  | case3 e len hlen bytes e' hread stop hstop ih =>
      obtain ⟨bytes', next, hok, hstream', hle, hsound'⟩ :=
        exists_read hsize hsound (n := min h.maxRw len) (by omega) (by omega)
      rw [hread] at hok
      cases hok
      have hlength : bytes.length + e'.stream.length = e.stream.length := by
        rw [← hstream', List.length_append]
      obtain ⟨last, hrest, -⟩ := ih hsound' (by omega)
      rw [hstop] at hrest
      cases hrest
  | case4 e len hlen bytes e' hread rest last hrest' ih =>
      obtain ⟨bytes', next, hok, hstream', hle, hsound'⟩ :=
        exists_read hsize hsound (n := min h.maxRw len) (by omega) (by omega)
      rw [hread] at hok
      cases hok
      have hlength : bytes.length + e'.stream.length = e.stream.length := by
        rw [← hstream', List.length_append]
      have htake : bytes.take len = bytes := List.take_of_length_le (by omega)
      have hdrop : bytes.drop len = [] := List.drop_of_length_le (by omega)
      obtain ⟨last, hrest, hlast, hsound''⟩ := ih hsound' (by omega)
      refine ⟨last, ?_, ?_, hsound''⟩
      · rw [usbFfsRead, if_neg hlen]
        split
        · next heq =>
            rw [hread] at heq
            cases heq
        · next heq =>
            rw [hread] at heq
            cases heq
            rw [hrest, ← hstream', List.take_append, htake]
      · rw [hlast, ← hstream', List.drop_append, hdrop, List.nil_append]

/-- Every write puts the bytes it is given into the pipe, in packets that fit. -/
structure Carries (size : Nat) (pipe pipe' : List Bytes) (data : Bytes) : Prop where
  flatten_eq : pipe'.flatten = pipe.flatten ++ data
  small : (∀ packet ∈ pipe, packet.length ≤ size) → ∀ packet ∈ pipe', packet.length ≤ size

theorem Carries.trans {size : Nat} {pipe pipe' pipe'' : List Bytes} {first second : Bytes}
    (hfirst : Carries size pipe pipe' first) (hsecond : Carries size pipe' pipe'' second) :
    Carries size pipe pipe'' (first ++ second) where
  flatten_eq := by rw [hsecond.flatten_eq, hfirst.flatten_eq, List.append_assoc]
  small := fun h => hsecond.small (hfirst.small h)

theorem carries_bulkSend {size : Nat} (hsize : 0 < size) {script : List Sending}
    {pipe : List Bytes} {data : Bytes} (hok : (bulkSend size script pipe data).ok) :
    Carries size pipe (bulkSend size script pipe data).pipe data := by
  rw [pipe_bulkSend hok]
  refine ⟨by rw [List.flatten_append, flatten_packets], ?_⟩
  intro hpipe packet hmem
  rcases List.mem_append.mp hmem with hmem | hmem
  · exact hpipe packet hmem
  · exact length_le_of_mem_packets hsize hmem

theorem carries_usbWrite {h : UsbHandle} (hsize : 0 < h.maxPacketSize) {script : List Sending}
    {pipe : List Bytes} {data : Bytes} (hok : (usbWrite h script pipe data).ok) :
    Carries h.maxPacketSize pipe (usbWrite h script pipe data).pipe data := by
  unfold usbWrite at hok ⊢
  dsimp only at hok ⊢
  split at hok
  · next hmarker =>
      rw [if_pos hmarker]
      have hcarries := (carries_bulkSend hsize hmarker.1).trans (carries_bulkSend hsize hok)
      rwa [List.append_nil] at hcarries
  · next hmarker =>
      rw [if_neg hmarker]
      exact carries_bulkSend hsize hok

theorem carries_remoteWrite {h : UsbHandle} (hsize : 0 < h.maxPacketSize)
    {script : List Sending} {pipe : List Bytes} {p : Packet}
    (hok : (remoteWrite (usbWrite h) script pipe p).ok) :
    Carries h.maxPacketSize pipe (remoteWrite (usbWrite h) script pipe p).pipe p.wire := by
  unfold remoteWrite at hok ⊢
  dsimp only at hok ⊢
  split at hok
  · next hpayload =>
      rw [if_pos hpayload]
      exact (carries_usbWrite hsize hpayload.1).trans (carries_usbWrite hsize hok)
  · next hpayload =>
      rw [if_neg hpayload]
      have hzero : p.msg.dataLength = 0 := by
        by_contra hne
        exact hpayload ⟨hok, hne⟩
      have hnil : p.payload = [] := by
        rw [← List.length_eq_zero_iff, length_payload, hzero]
        rfl
      rw [Packet.wire, hnil, List.append_nil]
      exact carries_usbWrite hsize hok

theorem carries_remoteWrites {h : UsbHandle} (hsize : 0 < h.maxPacketSize)
    {script : List Sending} {pipe : List Bytes} {packets : List Packet}
    (hok : (remoteWrites (usbWrite h) script pipe packets).ok) :
    Carries h.maxPacketSize pipe (remoteWrites (usbWrite h) script pipe packets).pipe
      (packets.flatMap Packet.wire) := by
  induction packets generalizing script pipe with
  | nil =>
      rw [remoteWrites, List.flatMap_nil]
      exact ⟨(List.append_nil _).symm, id⟩
  | cons p packets ih =>
      rw [remoteWrites] at hok ⊢
      by_cases hfirst : (remoteWrite (usbWrite h) script pipe p).ok
      · rw [if_pos hfirst] at hok ⊢
        rw [List.flatMap_cons]
        exact (carries_remoteWrite hsize hfirst).trans (ih hok)
      · rw [if_neg hfirst] at hok
        exact absurd hok hfirst

theorem exists_deviceRead {t : Limits adbBuild} {h : Functionfs} {p : Packet}
    (hlen : p.msg.dataLength.toNat ≤ t.maxPayload) {rest : Bytes} {e : OutEndpoint}
    (hsound : Sound h.speed.packetSize e) (hstream : e.stream = (sendPacket p).wire ++ rest) :
    ∃ e', deviceRead t h e = .ok ((sendPacket p).received, e') ∧ e'.stream = rest ∧
      Sound h.speed.packetSize e' := by
  have hheader : (sendPacket p).msg.bytes.length = 24 := length_bytes _
  rw [Packet.wire, List.append_assoc] at hstream
  obtain ⟨next, hread, hrest, hsound'⟩ := exists_usbFfsRead hsound
    (show 24 ≤ e.stream.length by
      rw [hstream, List.length_append, hheader]
      omega)
  rw [hstream, List.take_left' hheader] at hread
  rw [hstream, List.drop_left' hheader] at hrest
  have hpayload : ∃ last, devicePayload h next (sendPacket p).msg.dataLength =
      .ok ((sendPacket p).payload, last) ∧ last.stream = rest ∧
        Sound h.speed.packetSize last := by
    unfold devicePayload
    have hlength := length_payload (sendPacket p)
    by_cases hzero : (sendPacket p).msg.dataLength = 0
    · have hnil : (sendPacket p).payload = [] := by
        rw [← List.length_eq_zero_iff, hlength, hzero]
        rfl
      rw [hnil, List.nil_append] at hrest
      exact ⟨next, by rw [if_pos hzero, hnil], hrest, hsound'⟩
    · obtain ⟨last, hok, hlast, hsound''⟩ := exists_usbFfsRead
        hsound' (show (sendPacket p).msg.dataLength.toNat ≤ next.stream.length by
          rw [hrest, List.length_append, hlength]
          omega)
      rw [hrest, List.take_left' hlength] at hok
      rw [hrest, List.drop_left' hlength] at hlast
      exact ⟨last, by rw [if_neg hzero, hok], hlast, hsound''⟩
  obtain ⟨last, hok, hlast, hsound''⟩ := hpayload
  refine ⟨last, ?_, hlast, hsound''⟩
  have hfits : (sendPacket p).msg.dataLength.toNat ≤ (sendPacket p).payload.length :=
    Nat.le_of_eq (length_payload _).symm
  have hpacket : (⟨(sendPacket p).msg, (sendPacket p).payload, hfits⟩ : Packet) =
      (sendPacket p).received := rfl
  rw [deviceRead, hread]
  simp only [bind, Except.bind, ofBytes_bytes, checkHeader_sendPacket hlen, if_true, hok,
    dif_pos hfits, hpacket, checkData_received]
  rfl

/-- Whether or not the host sends zero markers, and however short the reads of
the device are, every packet that the host wrote arrives. -/
theorem host_packets_arrive (t : Limits adbBuild) (device : Functionfs) (h : UsbHandle)
    (hsize : h.maxPacketSize = device.speed.packetSize)
    (script : List Sending) (packets : List Packet)
    (hlen : ∀ p ∈ packets, p.msg.dataLength.toNat ≤ t.maxPayload)
    (hok : (remoteWrites (usbWrite h) script [] (packets.map sendPacket)).ok)
    (later : List Bytes) (hlater : ∀ packet ∈ later, packet.length ≤ h.maxPacketSize)
    (failures : List Bool) (hclean : ∀ failure ∈ failures, failure = false) :
    ∃ (received : List Packet) (e : OutEndpoint),
      reads (deviceRead t device) packets.length
          ⟨[], (remoteWrites (usbWrite h) script [] (packets.map sendPacket)).pipe ++ later,
            failures⟩ = .ok (received, e) ∧
      received.map Packet.content = packets.map Packet.content ∧
      e.stream = later.flatten := by
  have hpos : 0 < h.maxPacketSize := by
    rw [hsize]
    cases device.speed <;> decide
  have hcarries := carries_remoteWrites hpos hok
  let Awaits (ps : List Packet) (e : OutEndpoint) : Prop :=
    (∀ p ∈ ps, p ∈ packets) ∧ Sound device.speed.packetSize e ∧
      e.stream = (ps.map sendPacket).flatMap Packet.wire ++ later.flatten
  have hstep : ∀ p ps e, Awaits (p :: ps) e →
      ∃ e', deviceRead t device e = .ok ((sendPacket p).received, e') ∧ Awaits ps e' := by
    rintro p ps e ⟨hmem, hsound, hstream⟩
    rw [List.map_cons, List.flatMap_cons, List.append_assoc] at hstream
    obtain ⟨e', hread, hrest, hsound'⟩ :=
      exists_deviceRead (hlen p (hmem p List.mem_cons_self)) hsound hstream
    exact ⟨e', hread, fun q hq => hmem q (List.mem_cons_of_mem _ hq), hsound', hrest⟩
  obtain ⟨last, hreads, -, -, hrest⟩ := exists_reads hstep
    (show Awaits packets ⟨[], (remoteWrites (usbWrite h) script []
        (packets.map sendPacket)).pipe ++ later, failures⟩ by
      refine ⟨fun p hp => hp, ⟨?_, hclean⟩, ?_⟩
      · intro packet hmem
        rw [← hsize]
        rcases List.mem_append.mp hmem with hmem | hmem
        · exact hcarries.small (by simp) packet hmem
        · exact hlater packet hmem
      · simp only [OutEndpoint.stream, List.flatten_append, hcarries.flatten_eq,
          List.flatten_nil, List.nil_append])
  refine ⟨packets.map fun p => (sendPacket p).received, last, hreads, ?_, by simpa using hrest⟩
  rw [List.map_map]
  apply List.map_congr_left
  intro p _
  simp only [Function.comp_apply, Packet.content, payload_received]
  rfl

/-- A host that ends full packets with a marker, and reads of at most 5 bytes. -/
theorem host_packets_arrive_sample :
    ∃ (received : List Packet) (e : OutEndpoint),
      reads (deviceRead (Limits.initial adbBuild) ⟨.full, 5, by decide⟩) 1
          ⟨[], (remoteWrites (usbWrite ⟨64, 63, true⟩) [.done] []
            ([samplePacket].map sendPacket)).pipe ++ [[], [7]], [false]⟩ = .ok (received, e) ∧
      received.map Packet.content = [samplePacket].map Packet.content ∧
      e.stream = [[], [7]].flatten :=
  host_packets_arrive (Limits.initial adbBuild) ⟨.full, 5, by decide⟩ ⟨64, 63, true⟩ rfl
    [.done] [samplePacket] (by decide)
    (ok_remoteWrites (fun _ _ _ => ok_usbWrite) _ (by simp)) [[], [7]] (by simp) [false]
    (by simp)

/-! ### Whatever the device sends -/

/-- The header passes, and a transport that is offline takes no other packets. -/
structure Admitted (t : Limits build) (offline : Bool) (msg : Amessage) : Prop where
  header : checkHeader t msg = true
  command : offline = true → msg.command = aCnxn ∨ msg.command = aAuth

/-- A packet that is handed on as it came. -/
structure Accepted (t : Limits build) (offline : Bool) (p : Packet) : Prop where
  admitted : Admitted t offline p.msg
  length_eq : p.data.length = p.msg.dataLength.toNat
  data : checkData p = true

/-- What one call makes of the bytes that it takes: the bytes of a packet, or a
header and what was read after it, which are no packet to be handed on. -/
inductive Handed (t : Limits build) (offline : Bool) : Delivery → Bytes → Prop where
  | packet (p : Packet) (haccepted : Accepted t offline p) :
      Handed t offline (.packet p) p.wire
  | skipped (msg : Amessage) (data : Bytes) (hheader : ¬ Admitted t offline msg → data = [])
      (hrefused : ∀ p : Packet, p.msg = msg → p.data = data → ¬ Accepted t offline p) :
      Handed t offline (.skipped { msg with command := 0 }) (msg.bytes ++ data)

/-- What the other threads have made of the transport when it is read. -/
structure View where
  limits : Limits adbBuild
  offline : Bool
  deriving DecidableEq, Repr

/-- A call that skips while the transport is offline. -/
def fails : View × Delivery → Bool
  | (view, .skipped _) => view.offline
  | (_, .packet _) => false

/-- The bytes are accounted for, and the CNXN is resent where it has to be. -/
structure Accounts (s s' : HostTransport) (calls : List (View × Delivery)) : Prop where
  taken : ∃ taken : List Bytes, s.input.pipe.flatten = taken.flatten ++ s'.input.pipe.flatten ∧
    List.Forall₂ (fun call bytes => Handed call.1.limits call.1.offline call.2 bytes) calls taken
  marked : s'.hasSendConnectOnError = (s.hasSendConnectOnError || calls.any fails)
  connects : s'.connectsSent =
    s.connectsSent + (!s.hasSendConnectOnError && calls.any fails).toNat

theorem Accounts.nil (s : HostTransport) : Accounts s s [] :=
  ⟨⟨[], rfl, .nil⟩, (Bool.or_false _).symm, by simp⟩

theorem Accounts.cons {s s' s'' : HostTransport} {call : View × Delivery}
    {calls : List (View × Delivery)} (hfirst : Accounts s s' [call])
    (hrest : Accounts s' s'' calls) : Accounts s s'' (call :: calls) := by
  obtain ⟨_, hflat, _ | ⟨hhanded, _ | _⟩⟩ := hfirst.taken
  obtain ⟨more, hflat', hhanded'⟩ := hrest.taken
  refine ⟨⟨_ :: more, ?_, .cons hhanded hhanded'⟩, ?_, ?_⟩
  · rw [hflat, hflat', List.flatten_singleton, List.flatten_cons, List.append_assoc]
  · rw [hrest.marked, hfirst.marked, Bool.or_assoc]
    simp
  · rw [hrest.connects, hfirst.connects, hfirst.marked]
    simp only [List.any_cons, List.any_nil, Bool.or_false]
    cases s.hasSendConnectOnError <;> cases fails call <;> simp

end Adb.UsbReception
