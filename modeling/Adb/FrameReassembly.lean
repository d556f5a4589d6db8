import Adb.CallbackEffects
import Adb.PayloadBounds
import Adb.SmartEffects

/-!
Requests that come to a smart socket in pieces.  `smart_socket_enqueue` collects
them in its first packet and reads the length anew with every piece.
-/

namespace Adb.FrameReassembly

open Adb.CallbackEffects
open Adb.DescriptorIo
open Adb.PayloadBounds
open Adb.SmartEffects
open Adb.SmartSockets
open Adb.SocketClosing
open Adb.SocketOperations
open Adb.SocketTable
open Adb.WirePackets

/-- Four hexadecimal digits and as many bytes as they say. -/
structure Frame where
  digits : Bytes
  payload : Bytes
  length_digits : digits.length = 4
  hexadecimal : ∀ c ∈ digits, unhexDigit c ≠ none
  value : unhex digits = payload.length
  nonempty : payload ≠ []

def Frame.bytes (frame : Frame) : Bytes := frame.digits ++ frame.payload

/-- The NUL-terminated service string of a frame. -/
def Frame.service (frame : Frame) : Bytes := cString frame.payload

/-- A smart socket without a part of a request. -/
structure Idle (st : Sockets) (s : SocketRef) : Prop where
  smart : st.kindOf s = some .smart
  empty : ∀ a ∈ st.heap s, a.pkts = [] ∨ a.pkts = [[]]

/-- The pieces that have come are in the first packet. -/
def buffered (st : Sockets) (s : SocketRef) (bytes : Bytes) : Sockets :=
  st.modify s fun a => { a with pkts := [bytes] }

/-- One call of `smart_socket_enqueue` for each piece: the results, and the
sockets after the last. -/
def enqueueEach (ctx : ServiceContext) (s : SocketRef) :
    Sockets → List Bytes → List Int × Sockets
  | st, [] => ([], st)
  | st, chunk :: chunks =>
      let (ret, st) := smartSocketEnqueue ctx st s chunk
      let (rets, st) := enqueueEach ctx s st chunks
      (ret :: rets, st)

/-- The index at which a call puts the terminator, if it comes that far. -/
def terminatorIndex (packet : Bytes) : Option Nat :=
  if packet.length < 4 then none
  else
    let len := unhex (packet.take 4)
    if len < 1 ∨ len > maxPayloadConst then none
    else if len + 4 > packet.length then none
    else some (len + 4)

/-- The first four bytes of a request that is refused. -/
def BadHeader (digits : Bytes) : Prop :=
  digits.length = 4 ∧ ((∃ c ∈ digits, unhexDigit c = none) ∨ unhex digits = 0)

section

variable {ctx : ServiceContext} {st : Sockets} {s : SocketRef} {frame : Frame}

theorem unhexDigit_lt {c : UInt8} {d : Nat} (h : unhexDigit c = some d) : d < 16 := by
  rw [unhexDigit] at h
  split at h
  · next hc =>
      have hle := UInt8.le_iff_toNat_le.mp hc.2
      cases h
      simp at hle
      omega
  · split at h
    · next hc =>
        have hle := UInt8.le_iff_toNat_le.mp hc.2
        cases h
        simp at hle
        omega
    · split at h
      · next hc =>
          have hle := UInt8.le_iff_toNat_le.mp hc.2
          cases h
          simp at hle
          omega
      · cases h

theorem unhex_go_lt {text : Bytes} (h : ∀ c ∈ text, unhexDigit c ≠ none) (n : Nat) :
    unhex.go text n < (n + 1) * 16 ^ text.length := by
  induction text generalizing n with
  | nil => simp [unhex.go]
  | cons c text ih =>
      rw [unhex.go]
      cases hc : unhexDigit c with
      | none => exact absurd hc (h c List.mem_cons_self)
      | some d =>
          have hd := unhexDigit_lt hc
          have hrest := ih (fun c' hc' => h c' (List.mem_cons_of_mem _ hc')) (n * 16 + d)
          have hpow : (n * 16 + d + 1) * 16 ^ text.length ≤ (n + 1) * 16 * 16 ^ text.length :=
            Nat.mul_le_mul_right _ (by omega)
          rw [List.length_cons, Nat.pow_succ']
          calc unhex.go text (n * 16 + d) < (n * 16 + d + 1) * 16 ^ text.length := hrest
            _ ≤ (n + 1) * 16 * 16 ^ text.length := hpow
            _ = (n + 1) * (16 * 16 ^ text.length) := by rw [Nat.mul_assoc]

theorem unhex_go_of_bad {text : Bytes} (h : ∃ c ∈ text, unhexDigit c = none) (n : Nat) :
    unhex.go text n = 0xffffffff := by
  induction text generalizing n with
  | nil =>
      obtain ⟨c, hc, -⟩ := h
      exact absurd hc List.not_mem_nil
  | cons c text ih =>
      rw [unhex.go]
      cases hc : unhexDigit c with
      | none => rfl
      | some d =>
          apply ih
          obtain ⟨c', hc', hbad⟩ := h
          rcases List.mem_cons.mp hc' with rfl | hc'
          · rw [hc] at hbad
            cases hbad
          · exact ⟨c', hc', hbad⟩

theorem unhex_four {digits : Bytes} (h : digits.length = 4) :
    unhex digits < 2 ^ 16 ∨ unhex digits = 0xffffffff := by
  rcases Classical.em (∃ c ∈ digits, unhexDigit c = none) with hbad | hgood
  · exact .inr (unhex_go_of_bad hbad 0)
  · have hlt := unhex_go_lt (fun c hc hnone => hgood ⟨c, hc, hnone⟩) 0
    rw [h] at hlt
    exact .inl (by simpa [unhex] using hlt)

theorem smartSocketRequest_eq (ctx : ServiceContext) (st : Sockets) (s : SocketRef)
    (packet : Bytes) :
    smartSocketRequest ctx st s packet =
      match terminatorIndex packet with
      | some i => smartSocketDispatch ctx st s (cString ((packet.take i).drop 4))
      | none =>
          if 4 ≤ packet.length ∧
              (unhex (packet.take 4) < 1 ∨ unhex (packet.take 4) > maxPayloadConst) then
            smartSocketFail st s
          else (0, st) := by
  rw [smartSocketRequest, terminatorIndex]
  split
  · next hshort => rw [if_neg (fun h => absurd h.1 (Nat.not_le.mpr hshort))]
  · next hlong =>
      simp only []
      split
      · next hbad => rw [if_pos ⟨Nat.le_of_not_lt hlong, hbad⟩]
      · next hgood =>
          split
          · rw [if_neg fun h => hgood h.2]
          · simp only [List.drop_take, Nat.add_sub_cancel]

theorem terminatorIndex_lt {packet : Bytes} {i : Nat} (h : terminatorIndex packet = some i) :
    i < maxPayloadConst := by
  rw [terminatorIndex] at h
  split at h
  · cases h
  next hlong =>
    simp only [] at h
    split at h
    · cases h
    next hgood =>
      split at h
      · cases h
      cases h
      have hlength : (packet.take 4).length = 4 := by
        rw [List.length_take]
        omega
      rcases unhex_four hlength with hlt | hbad
      · simp only [maxPayloadConst]
        omega
      · rw [hbad] at hgood
        simp only [maxPayloadConst] at hgood
        omega

theorem Frame.length_payload_lt (frame : Frame) : frame.payload.length < 2 ^ 16 := by
  have hlt := unhex_go_lt frame.hexadecimal 0
  rw [frame.length_digits] at hlt
  rw [← frame.value]
  simpa [unhex] using hlt

theorem Frame.length_payload_pos (frame : Frame) : 0 < frame.payload.length :=
  List.length_pos_of_ne_nil frame.nonempty

theorem Frame.length_bytes (frame : Frame) : frame.bytes.length = 4 + frame.payload.length := by
  rw [Frame.bytes, List.length_append, frame.length_digits]

theorem Frame.take_digits {read more : Bytes} (h : read ++ more = frame.bytes)
    (hlength : 4 ≤ read.length) : read.take 4 = frame.digits := by
  have htake := congrArg (List.take 4) h
  rw [List.take_append_of_le_length hlength, Frame.bytes, ← frame.length_digits,
    List.take_left] at htake
  rw [frame.length_digits] at htake
  exact htake

theorem Frame.goodLength (frame : Frame) :
    ¬ (unhex frame.digits < 1 ∨ unhex frame.digits > maxPayloadConst) := by
  have hpos := frame.length_payload_pos
  have hlt := frame.length_payload_lt
  rw [frame.value]
  simp only [maxPayloadConst]
  omega

theorem smartSocketRequest_part (ctx : ServiceContext) (st : Sockets) (s : SocketRef)
    {read more : Bytes} (h : read ++ more = frame.bytes) (hmore : more ≠ []) :
    smartSocketRequest ctx st s read = (0, st) := by
  rw [smartSocketRequest]
  split
  · rfl
  next hlong =>
    have htake := Frame.take_digits h (Nat.le_of_not_lt hlong)
    have hlength := congrArg List.length h
    have hpos := List.length_pos_of_ne_nil hmore
    rw [List.length_append, frame.length_bytes] at hlength
    simp only [htake]
    rw [if_neg frame.goodLength, frame.value, if_pos (by omega)]

theorem smartSocketRequest_whole (ctx : ServiceContext) (st : Sockets) (s : SocketRef)
    (frame : Frame) :
    smartSocketRequest ctx st s frame.bytes = smartSocketDispatch ctx st s frame.service := by
  have hlength := frame.length_bytes
  have htake := Frame.take_digits (List.append_nil frame.bytes) (by omega)
  have hdrop : frame.bytes.drop 4 = frame.payload := by
    rw [Frame.bytes, ← frame.length_digits, List.drop_left]
  rw [smartSocketRequest, if_neg (by omega)]
  simp only [htake, hdrop]
  rw [if_neg frame.goodLength, frame.value, if_neg (by omega), List.take_length]
  rfl

theorem smartSocketRequest_bad (ctx : ServiceContext) (st : Sockets) (s : SocketRef)
    {packet : Bytes} (h : BadHeader (packet.take 4)) :
    smartSocketRequest ctx st s packet = smartSocketFail st s := by
  obtain ⟨hlength, hbad⟩ := h
  rw [List.length_take] at hlength
  rw [smartSocketRequest, if_neg (by omega)]
  apply if_pos
  rcases hbad with hbad | hzero
  · right
    have hvalue : unhex (packet.take 4) = 0xffffffff := unhex_go_of_bad hbad 0
    rw [hvalue]
    decide
  · left
    rw [hzero]
    decide

theorem getMaxPayload_buffered (limit : TransportRef → Nat) (bytes : Bytes) :
    getMaxPayload limit (buffered st s bytes) s = getMaxPayload limit st s :=
  getMaxPayload_modify limit (fun _ => rfl) (fun _ => rfl)

theorem buffered_buffered (first second : Bytes) :
    buffered (buffered st s first) s second = buffered st s second :=
  modify_modify s _ _

theorem Idle.heap (h : Idle st s) : ∃ a, st.heap s = some a ∧ (a.pkts = [] ∨ a.pkts = [[]]) := by
  have hsmart := h.smart
  rw [Sockets.kindOf] at hsmart
  obtain ⟨a, ha, -⟩ := Option.map_eq_some_iff.mp hsmart
  exact ⟨a, ha, h.empty a ha⟩

theorem smartSocketEnqueue_idle (h : Idle st s) {data : Bytes}
    (hdata : data.length ≤ getMaxPayload ctx.limit st s) :
    smartSocketEnqueue ctx st s data = smartSocketRequest ctx (buffered st s data) s data := by
  obtain ⟨a, ha, hpkts⟩ := h.heap
  rw [smartSocketEnqueue, ha]
  rcases hpkts with hpkts | hpkts
  · simp only [hpkts]
    rfl
  · simp only [hpkts, List.length_nil, Nat.zero_add, if_neg (Nat.not_lt.mpr hdata),
      List.nil_append]
    rfl

theorem smartSocketEnqueue_buffered (h : Idle st s) (read data : Bytes) :
    smartSocketEnqueue ctx (buffered st s read) s data =
      if read.length + data.length > getMaxPayload ctx.limit st s then
        smartSocketFail (buffered st s read) s
      else smartSocketRequest ctx (buffered st s (read ++ data)) s (read ++ data) := by
  obtain ⟨a, ha, -⟩ := h.heap
  have hself : (buffered st s read).heap s = some { a with pkts := [read] } := by
    simp [buffered, Sockets.modify, ha]
  rw [smartSocketEnqueue, hself]
  simp only [getMaxPayload_buffered]
  split
  · rfl
  · have hmodify : (buffered st s read).modify s (fun a => { a with pkts := [read ++ data] }) =
        buffered st s (read ++ data) := buffered_buffered read (read ++ data)
    rw [hmodify]

/-- The sockets when the bytes `read` have come in some pieces. -/
def collected (st : Sockets) (s : SocketRef) (read : Bytes) : Sockets :=
  if read = [] then st else buffered st s read

theorem collected_nil : collected st s [] = st := if_pos rfl

theorem collected_of_ne_nil {read : Bytes} (h : read ≠ []) :
    collected st s read = buffered st s read := if_neg h

theorem enqueueEach_cons {chunk : Bytes} {st' : Sockets} {ret : Int}
    (h : smartSocketEnqueue ctx st s chunk = (ret, st')) (chunks : List Bytes) :
    enqueueEach ctx s st (chunk :: chunks) =
      (ret :: (enqueueEach ctx s st' chunks).1, (enqueueEach ctx s st' chunks).2) := by
  rw [enqueueEach, h]

theorem smartSocketEnqueue_part (h : Idle st s) {read chunk more : Bytes} (hchunk : chunk ≠ [])
    (hlimit : frame.bytes.length ≤ getMaxPayload ctx.limit st s)
    (hframe : read ++ chunk ++ more = frame.bytes) (hmore : more ≠ []) :
    smartSocketEnqueue ctx (collected st s read) s chunk =
      (0, collected st s (read ++ chunk)) := by
  have hlength := congrArg List.length hframe
  rw [List.length_append, List.length_append] at hlength
  rw [collected_of_ne_nil (List.append_ne_nil_of_right_ne_nil read hchunk)]
  rcases Decidable.em (read = []) with rfl | hread
  · rw [List.nil_append] at hframe ⊢
    rw [collected, if_pos rfl, smartSocketEnqueue_idle h (by omega)]
    exact smartSocketRequest_part ctx _ s hframe hmore
  · rw [collected_of_ne_nil hread, smartSocketEnqueue_buffered h, if_neg (by omega)]
    exact smartSocketRequest_part ctx _ s hframe hmore

theorem enqueueEach_parts (h : Idle st s) {read more : Bytes} {chunks : List Bytes}
    (hchunks : ∀ chunk ∈ chunks, chunk ≠ [])
    (hlimit : frame.bytes.length ≤ getMaxPayload ctx.limit st s)
    (hframe : read ++ chunks.flatten ++ more = frame.bytes) (hmore : more ≠ []) :
    enqueueEach ctx s (collected st s read) chunks =
      (List.replicate chunks.length 0, collected st s (read ++ chunks.flatten)) := by
  induction chunks generalizing read with
  | nil => simp [enqueueEach]
  | cons chunk chunks ih =>
      rw [List.flatten_cons, ← List.append_assoc read] at hframe ⊢
      have hrest : read ++ chunk ++ (chunks.flatten ++ more) = frame.bytes := by
        rw [← List.append_assoc]
        exact hframe
      have hcall := smartSocketEnqueue_part h (hchunks chunk List.mem_cons_self) hlimit hrest
        (List.append_ne_nil_of_right_ne_nil _ hmore)
      rw [enqueueEach_cons hcall, ih (fun c hc => hchunks c (List.mem_cons_of_mem _ hc)) hframe]
      rfl

/-- The piece that completes the frame. -/
theorem smartSocketEnqueue_last (h : Idle st s) {read chunk : Bytes}
    (hlimit : frame.bytes.length ≤ getMaxPayload ctx.limit st s)
    (hframe : read ++ chunk = frame.bytes) :
    smartSocketEnqueue ctx (collected st s read) s chunk =
      smartSocketDispatch ctx (buffered st s frame.bytes) s frame.service := by
  have hlength := congrArg List.length hframe
  rw [List.length_append] at hlength
  rcases Decidable.em (read = []) with rfl | hread
  · rw [List.nil_append] at hframe
    rw [collected, if_pos rfl, hframe, smartSocketEnqueue_idle h hlimit,
      smartSocketRequest_whole]
  · rw [collected_of_ne_nil hread, smartSocketEnqueue_buffered h, if_neg (by omega), hframe,
      smartSocketRequest_whole]

theorem smartSocketEnqueue_collected (ctx : ServiceContext) (h : Idle st s) (read chunk : Bytes) :
    smartSocketEnqueue ctx (collected st s read) s chunk =
        smartSocketFail (collected st s read) s ∨
      smartSocketEnqueue ctx (collected st s read) s chunk =
        smartSocketRequest ctx (buffered st s (read ++ chunk)) s (read ++ chunk) := by
  rcases Decidable.em (read = []) with rfl | hread
  · obtain ⟨a, ha, hpkts⟩ := h.heap
    rw [collected, if_pos rfl, smartSocketEnqueue, ha, List.nil_append]
    rcases hpkts with hpkts | hpkts
    · right
      simp only [hpkts]
      rfl
    · simp only [hpkts, List.nil_append]
      split
      · exact .inl rfl
      · exact .inr rfl
  · rw [collected_of_ne_nil hread, smartSocketEnqueue_buffered h]
    split
    · exact .inl rfl
    · exact .inr rfl

theorem smartSocketRequest_short (ctx : ServiceContext) (st : Sockets) (s : SocketRef)
    {packet : Bytes} (h : packet.length < 4) : smartSocketRequest ctx st s packet = (0, st) := by
  rw [smartSocketRequest, if_pos h]

theorem enqueueEach_short (h : Idle st s) {read : Bytes} {chunks : List Bytes}
    (hchunks : ∀ chunk ∈ chunks, chunk ≠ []) (hshort : (read ++ chunks.flatten).length < 4)
    (hzero : ∀ ret ∈ (enqueueEach ctx s (collected st s read) chunks).1, ret = 0) :
    (enqueueEach ctx s (collected st s read) chunks).2 =
      collected st s (read ++ chunks.flatten) := by
  induction chunks generalizing read with
  | nil => simp [enqueueEach]
  | cons chunk chunks ih =>
      rw [List.flatten_cons, ← List.append_assoc read] at hshort ⊢
      have hne : read ++ chunk ≠ [] :=
        List.append_ne_nil_of_right_ne_nil read (hchunks chunk List.mem_cons_self)
      rcases smartSocketEnqueue_collected ctx h read chunk with hfail | hcall
      · rw [smartSocketFail] at hfail
        rw [enqueueEach_cons hfail] at hzero
        exact absurd (hzero (-1) List.mem_cons_self) (by decide)
      · rw [smartSocketRequest_short ctx _ s (by
          rw [List.length_append] at hshort
          omega), ← collected_of_ne_nil hne] at hcall
        rw [enqueueEach_cons hcall] at hzero ⊢
        exact ih (fun c hc => hchunks c (List.mem_cons_of_mem _ hc)) hshort
          (fun ret hret => hzero ret (List.mem_cons_of_mem _ hret))

theorem closeCalled_mem (fuel : Nat) {q : SocketRef} {a : Asocket} (h : st.heap q = some a) :
    .closeCalled q ∈ (asocketCloseFuel (fuel + 1) st q).trace := by
  have hgrows : Emits (Bounded fun _ => 0) (st.record (.closeCalled q))
      (asocketCloseFuel (fuel + 1) st q) := by
    have hclose : ∀ st s, Emits (Bounded fun _ => 0) st (asocketCloseFuel fuel st s) :=
      fun _ s => bounded_asocketCloseFuel fuel s
    rw [asocketCloseFuel, h]
    simp only []
    cases a.kind with
    | localSocket => exact bounded_localSocketClose hclose q
    | localNotify => exact (Emits.single rfl trivial).trans (bounded_localSocketClose hclose q)
    | remote => exact (bounded_closePeer hclose q).trans (.refl rfl)
    | smart => exact (bounded_closePeer hclose q).trans (.refl rfl)
    | jdwp => exact (bounded_closePeer hclose q).trans (.refl rfl)
    | jdwpTracker => exact (bounded_closePeer hclose q).trans (.refl rfl)
    | deviceTracker => exact (bounded_closePeer hclose q).trans (.refl rfl)
  obtain ⟨events, htrace, -⟩ := hgrows
  rw [htrace]
  apply List.mem_append_left
  exact List.mem_append_right _ (List.mem_singleton_self _)

theorem heap_asocketClose (hkind : st.kindOf s = some .smart) :
    (asocketClose st s).heap s = none := by
  obtain ⟨a, hs, hsmart⟩ := Option.map_eq_some_iff.mp hkind
  rw [asocketClose, asocketCloseFuel, hs]
  simp [hsmart, smartSocketClose, Sockets.release]

theorem closeCalled_peer (hkind : st.kindOf s = some .smart) {q : SocketRef}
    (hpeer : st.peerOf s = some q) (hq : st.heap q ≠ none) :
    .closeCalled q ∈ (asocketClose st s).trace := by
  obtain ⟨a, hs, hsmart⟩ := Option.map_eq_some_iff.mp hkind
  obtain ⟨b, hb⟩ := Option.ne_none_iff_exists'.mp hq
  have hpeer' : (st.record (.closeCalled s)).peerOf s = some q := hpeer
  rw [asocketClose, asocketCloseFuel, hs]
  simp only [hsmart]
  rw [smartSocketClose, closePeer, hpeer']
  have hheap : ((st.record (.closeCalled s)).modify q fun a => { a with peer := none }).heap q =
      some { b with peer := none } := by
    simp [Sockets.modify, Sockets.record, hb]
  exact closeCalled_mem 0 hheap

theorem Idle.buffered (h : Idle st s) (bytes : Bytes) :
    (buffered st s bytes).kindOf s = some .smart ∧
      (buffered st s bytes).peerOf s = st.peerOf s ∧
      ∀ q, st.heap q ≠ none → (buffered st s bytes).heap q ≠ none := by
  obtain ⟨a, ha, -⟩ := h.heap
  have hkind := h.smart
  rw [Sockets.kindOf, ha] at hkind
  have hself : (FrameReassembly.buffered st s bytes).heap s = some { a with pkts := [bytes] } := by
    simp [FrameReassembly.buffered, Sockets.modify, ha]
  refine ⟨?_, ?_, ?_⟩
  · rw [Sockets.kindOf, hself]
    exact hkind
  · rw [Sockets.peerOf, Sockets.peerOf, hself, ha]
    rfl
  · intro q hq
    rcases Decidable.em (q = s) with rfl | hne
    · rw [hself]
      exact Option.some_ne_none _
    · have hother : (FrameReassembly.buffered st s bytes).heap q = st.heap q :=
        Function.update_of_ne hne _ _
      rw [hother]
      exact hq

theorem smartSocketFail_closes (h : Idle st s) (bytes : Bytes) :
    (smartSocketFail (buffered st s bytes) s).2.heap s = none ∧
      ∀ q, st.peerOf s = some q → st.heap q ≠ none →
        .closeCalled q ∈ (smartSocketFail (buffered st s bytes) s).2.trace := by
  obtain ⟨hkind, hpeer, hheap⟩ := h.buffered bytes
  refine ⟨heap_asocketClose hkind, ?_⟩
  intro q hq hlive
  exact closeCalled_peer hkind (hpeer.trans hq) (hheap q hlive)

theorem smartSocketFail_closes_idle (h : Idle st s) :
    (smartSocketFail st s).2.heap s = none ∧
      ∀ q, st.peerOf s = some q → st.heap q ≠ none →
        .closeCalled q ∈ (smartSocketFail st s).2.trace :=
  ⟨heap_asocketClose h.smart, fun _ hq hlive => closeCalled_peer h.smart hq hlive⟩

theorem smartSocketEnqueue_bad (ctx : ServiceContext) (h : Idle st s) {read chunk : Bytes}
    (hbad : BadHeader ((read ++ chunk).take 4)) :
    let out := smartSocketEnqueue ctx (collected st s read) s chunk
    out.1 = -1 ∧ out.2.heap s = none ∧
      ∀ q, st.peerOf s = some q → st.heap q ≠ none → .closeCalled q ∈ out.2.trace := by
  rcases smartSocketEnqueue_collected ctx h read chunk with hfail | hcall
  · rw [hfail]
    rcases Decidable.em (read = []) with rfl | hread
    · exact ⟨rfl, smartSocketFail_closes_idle h⟩
    · rw [collected_of_ne_nil hread]
      exact ⟨rfl, smartSocketFail_closes h read⟩
  · rw [hcall, smartSocketRequest_bad ctx _ s hbad]
    exact ⟨rfl, smartSocketFail_closes h (read ++ chunk)⟩

/-- Requests do not depend on the pieces in which they come.  A call that fails
frees the socket, so the last clauses are about calls that follow no failure. -/
theorem smart_socket_reassembles (ctx : ServiceContext) (h : Idle st s) :
    (∀ (frame : Frame) (front : List Bytes) (last : Bytes),
      (∀ chunk ∈ front ++ [last], chunk ≠ []) → (front ++ [last]).flatten = frame.bytes →
      4 + frame.payload.length ≤ getMaxPayload ctx.limit st s →
        enqueueEach ctx s st front =
            (List.replicate front.length 0, collected st s front.flatten) ∧
          smartSocketEnqueue ctx (enqueueEach ctx s st front).2 s last =
            smartSocketDispatch ctx (buffered st s frame.bytes) s frame.service ∧
          smartSocketEnqueue ctx st s frame.bytes =
            smartSocketDispatch ctx (buffered st s frame.bytes) s frame.service) ∧
    (∀ (front : List Bytes) (chunk : Bytes), (∀ c ∈ front ++ [chunk], c ≠ []) →
      front.flatten.length < 4 → BadHeader ((front ++ [chunk]).flatten.take 4) →
      (∀ ret ∈ (enqueueEach ctx s st front).1, ret = 0) →
        let out := smartSocketEnqueue ctx (enqueueEach ctx s st front).2 s chunk
        out.1 = -1 ∧ out.2.heap s = none ∧
          ∀ q, st.peerOf s = some q → st.heap q ≠ none → .closeCalled q ∈ out.2.trace) ∧
    ∀ packet i, terminatorIndex packet = some i → i < maxPayloadConst := by
  have hflatten : ∀ (front : List Bytes) (last : Bytes),
      (front ++ [last]).flatten = front.flatten ++ last := by simp
  refine ⟨?_, ?_, fun packet i => terminatorIndex_lt⟩
  · intro frame front last hchunks hframe hlimit
    rw [hflatten] at hframe
    rw [← frame.length_bytes] at hlimit
    have hlast : last ≠ [] := hchunks last (by simp)
    have hfront : ∀ chunk ∈ front, chunk ≠ [] := fun c hc => hchunks c (by simp [hc])
    have hparts : enqueueEach ctx s (collected st s []) front =
        (List.replicate front.length 0, collected st s ([] ++ front.flatten)) :=
      enqueueEach_parts h hfront hlimit hframe hlast
    rw [List.nil_append, collected_nil] at hparts
    refine ⟨hparts, ?_, ?_⟩
    · rw [hparts]
      exact smartSocketEnqueue_last h hlimit hframe
    · have hwhole := smartSocketEnqueue_last h hlimit (List.nil_append frame.bytes)
      rwa [collected_nil] at hwhole
  · intro front chunk hchunks hshort hbad hzero
    rw [hflatten] at hbad
    have hfront : ∀ c ∈ front, c ≠ [] := fun c hc => hchunks c (by simp [hc])
    have hstate : (enqueueEach ctx s (collected st s []) front).2 =
        collected st s ([] ++ front.flatten) := enqueueEach_short h hfront hshort hzero
    rw [List.nil_append, collected_nil] at hstate
    rw [hstate]
    exact smartSocketEnqueue_bad ctx h hbad

/-- A server without devices. -/
def plainContext : ServiceContext where
  host := true
  limit _ := maxPayloadConst
  offline _ := false
  jdwpPids := []
  deviceList := []
  acquire _ _ := .error (ascii "no devices/emulators found")
  findDevice _ := .error (ascii "no such device")
  replyWritten := true
  serviceFd _ := false
  runsAsRoot := false
  debuggable := false

/-- One smart socket, just created. -/
def freshSockets : Sockets := (createSmartSocket Sockets.initial).2

theorem idle_freshSockets : Idle freshSockets 0 where
  smart := rfl
  empty := by
    rintro a ⟨⟩
    exact .inl rfl

def versionFrame : Frame where
  digits := ascii "000c"
  payload := ascii "host:version"
  length_digits := rfl
  hexadecimal := by decide +kernel
  value := rfl
  nonempty := by decide

theorem version_in_three_pieces :
    Idle freshSockets 0 ∧
      (enqueueEach plainContext 0 freshSockets [ascii "000", ascii "chost:ver"]).1 = [0, 0] := by
  refine ⟨idle_freshSockets, ?_⟩
  have hparts := (smart_socket_reassembles plainContext idle_freshSockets).1 versionFrame
    [ascii "000", ascii "chost:ver"] (ascii "sion") (by decide) (by decide) (by decide)
  rw [hparts.1]
  rfl

end

end Adb.FrameReassembly
