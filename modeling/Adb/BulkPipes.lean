import Mathlib.Data.List.Basic

/-!
Bulk pipes: a transfer travels as packets of a fixed size, and only a shorter
packet marks its end.  A transfer that fills its last packet is not marked at
all, so that it must be asked for with a buffer that it fills.
-/

namespace Adb.BulkPipes

variable {α : Type}

/-- The packets of one transfer: full ones, and what is left in the last. -/
def packets (size : Nat) (bytes : List α) : List (List α) :=
  if size = 0 ∨ bytes.length ≤ size then [bytes]
  else bytes.take size :: packets size (bytes.drop size)
termination_by bytes.length
decreasing_by
  rw [List.length_drop]
  omega

inductive Reception (α : Type) where
  | waiting
  | overflow
  | complete (bytes : List α) (rest : List (List α))
  deriving DecidableEq, Repr

/-- A transfer into a buffer with room for `room` bytes.  It ends with a packet
that is short or that fills the buffer. -/
def receive (size room : Nat) : List (List α) → Reception α
  | [] => .waiting
  | packet :: pipe =>
      if room < packet.length then .overflow
      else if packet.length < size ∨ packet.length = room then .complete packet pipe
      else
        match receive size (room - packet.length) pipe with
        | .complete bytes rest => .complete (packet ++ bytes) rest
        | .waiting => .waiting
        | .overflow => .overflow

/-- The transfer of these bytes ends when it is asked for with this room. -/
def Ends (size room : Nat) (bytes : List α) : Prop :=
  bytes.length ≤ room ∧ (bytes.length = room ∨ bytes = [] ∨ bytes.length % size ≠ 0)

/-- The least multiple of the packet size with room for `length` bytes. -/
def roundUp (size length : Nat) : Nat :=
  if length % size = 0 then length else length + (size - length % size)

theorem packets_of_le {size : Nat} {bytes : List α} (h : bytes.length ≤ size) :
    packets size bytes = [bytes] := by
  rw [packets, if_pos (Or.inr h)]

theorem packets_of_lt {size : Nat} {bytes : List α} (hsize : 0 < size)
    (h : size < bytes.length) :
    packets size bytes = bytes.take size :: packets size (bytes.drop size) := by
  rw [packets, if_neg (by omega)]

theorem flatten_packets (size : Nat) (bytes : List α) :
    (packets size bytes).flatten = bytes := by
  induction bytes using packets.induct size with
  | case1 bytes h => rw [packets, if_pos h, List.flatten_singleton]
  | case2 bytes h ih =>
      rw [packets, if_neg h, List.flatten_cons, ih, List.take_append_drop]

theorem length_le_of_mem_packets {size : Nat} (hsize : 0 < size) {bytes packet : List α}
    (h : packet ∈ packets size bytes) : packet.length ≤ size := by
  induction bytes using packets.induct size with
  | case1 bytes hlen =>
      rw [packets, if_pos hlen, List.mem_singleton] at h
      subst h
      omega
  | case2 bytes hlen ih =>
      rw [packets, if_neg hlen, List.mem_cons] at h
      rcases h with rfl | h
      · exact List.length_take_le _ _
      · exact ih h

/-- A transfer that fills its last packet runs into the next one. -/
theorem packets_append {size : Nat} (hsize : 0 < size) {first second : List α}
    (hdvd : first.length % size = 0) (hfirst : first ≠ []) (hsecond : second ≠ []) :
    packets size (first ++ second) = packets size first ++ packets size second := by
  have hpos := List.length_pos_iff.mpr hsecond
  induction first using packets.induct size with
  | case1 first hlen =>
      have hle : first.length ≤ size := by omega
      have hlength : first.length = size := by
        have hne := List.length_pos_iff.mpr hfirst
        have := Nat.le_of_dvd hne (Nat.dvd_of_mod_eq_zero hdvd)
        omega
      rw [packets_of_le hle, packets_of_lt hsize (by rw [List.length_append]; omega),
        List.take_left' hlength, List.drop_left' hlength, List.singleton_append]
  | case2 first hlen ih =>
      have hlong : size < first.length := by omega
      have htail : (first.drop size).length % size = 0 := by
        rw [List.length_drop, ← Nat.mod_eq_sub_mod (by omega), hdvd]
      have hrest : first.drop size ≠ [] := by
        rw [← List.length_pos_iff, List.length_drop]
        omega
      rw [packets_of_lt hsize (by rw [List.length_append]; omega),
        List.take_append_of_le_length (by omega), List.drop_append_of_le_length (by omega),
        ih htail hrest, packets_of_lt hsize hlong, List.cons_append]

theorem receive_packets {size room : Nat} (hsize : 0 < size) {bytes : List α}
    (h : Ends size room bytes) (pipe : List (List α)) :
    receive size room (packets size bytes ++ pipe) = .complete bytes pipe := by
  induction bytes using packets.induct size generalizing room with
  | case1 bytes hlen =>
      obtain ⟨hroom, hend⟩ := h
      have hle : bytes.length ≤ size := by omega
      have hlast : bytes.length < size ∨ bytes.length = room := by
        rcases hend with hfull | rfl | hshort
        · exact Or.inr hfull
        · exact Or.inl hsize
        · refine Or.inl (Nat.lt_of_le_of_ne hle ?_)
          intro heq
          exact hshort (by rw [heq, Nat.mod_self])
      rw [packets_of_le hle, List.singleton_append, receive, if_neg (by omega), if_pos hlast]
  | case2 bytes hlen ih =>
      obtain ⟨hroom, hend⟩ := h
      have hlong : size < bytes.length := by omega
      have htake : (bytes.take size).length = size := List.length_take_of_le (by omega)
      have hrest : Ends size (room - size) (bytes.drop size) := by
        refine ⟨by rw [List.length_drop]; omega, ?_⟩
        rw [List.length_drop]
        rcases hend with hfull | rfl | hshort
        · exact Or.inl (by omega)
        · simp at hlong
        · exact Or.inr (Or.inr (by rwa [← Nat.mod_eq_sub_mod (by omega)]))
      rw [packets_of_lt hsize hlong, List.cons_append, receive, htake, if_neg (by omega),
        if_neg (by omega), ih hrest]
      simp only [List.take_append_drop]

theorem length_rest_lt {size room : Nat} {pipe rest : List (List α)} {bytes : List α}
    (h : receive size room pipe = .complete bytes rest) : rest.length < pipe.length := by
  induction pipe generalizing room bytes with
  | nil => simp [receive] at h
  | cons packet pipe ih =>
      rw [receive] at h
      split at h
      · cases h
      · split at h
        · cases h
          exact Nat.lt_succ_self _
        · split at h
          · next hnext =>
              cases h
              exact Nat.lt_succ_of_lt (ih hnext)
          · cases h
          · cases h

/-- What a transfer takes is the front of the stream in the pipe. -/
theorem receive_flatten {size room : Nat} {pipe rest : List (List α)} {bytes : List α}
    (h : receive size room pipe = .complete bytes rest) :
    bytes ++ rest.flatten = pipe.flatten := by
  induction pipe generalizing room bytes with
  | nil => simp [receive] at h
  | cons packet pipe ih =>
      rw [receive] at h
      split at h
      · cases h
      · split at h
        · cases h
          rw [List.flatten_cons]
        · split at h
          · next hnext =>
              cases h
              rw [List.append_assoc, ih hnext, List.flatten_cons]
          · cases h
          · cases h

theorem mem_of_mem_rest {size room : Nat} {pipe rest : List (List α)}
    {bytes packet : List α} (hmem : packet ∈ rest)
    (h : receive size room pipe = .complete bytes rest) : packet ∈ pipe := by
  induction pipe generalizing room bytes with
  | nil => simp [receive] at h
  | cons first pipe ih =>
      rw [receive] at h
      split at h
      · cases h
      · split at h
        · cases h
          exact List.mem_cons_of_mem _ hmem
        · split at h
          · next hnext =>
              cases h
              exact List.mem_cons_of_mem _ (ih hnext)
          · cases h
          · cases h

theorem exists_receive {size room : Nat} {pipe : List (List α)}
    (hpipe : ∀ packet ∈ pipe, packet.length ≤ size)
    (hroom : 0 < room) (hdvd : room % size = 0)
    (hstream : room < pipe.flatten.length + size) :
    ∃ bytes rest, receive size room pipe = .complete bytes rest := by
  induction pipe generalizing room with
  | nil =>
      have hle := Nat.le_of_dvd hroom (Nat.dvd_of_mod_eq_zero hdvd)
      simp only [List.flatten_nil, List.length_nil] at hstream
      omega
  | cons packet pipe ih =>
      have hle := Nat.le_of_dvd hroom (Nat.dvd_of_mod_eq_zero hdvd)
      have hpacket := hpipe packet List.mem_cons_self
      rw [receive, if_neg (by omega)]
      by_cases hlast : packet.length < size ∨ packet.length = room
      · exact ⟨packet, pipe, if_pos hlast⟩
      · rw [List.flatten_cons, List.length_append] at hstream
        have hlength : packet.length = size := by omega
        obtain ⟨bytes, rest, hnext⟩ := ih
          (fun q hq => hpipe q (List.mem_cons_of_mem _ hq))
          (by omega : 0 < room - packet.length)
          (by rw [hlength, ← Nat.mod_eq_sub_mod hle, hdvd]) (by omega)
        rw [if_neg hlast, hnext]
        exact ⟨packet ++ bytes, rest, rfl⟩

theorem le_roundUp (size length : Nat) : length ≤ roundUp size length := by
  unfold roundUp
  split <;> omega

theorem roundUp_mod {size : Nat} (hsize : 0 < size) (length : Nat) :
    roundUp size length % size = 0 := by
  unfold roundUp
  split
  · assumption
  · have hlt := Nat.mod_lt length hsize
    have hdiv := Nat.div_add_mod length size
    have hsum : length + (size - length % size) = size * (length / size + 1) := by
      rw [Nat.mul_succ]
      omega
    rw [hsum, Nat.mul_mod_right]

theorem roundUp_lt {size : Nat} (hsize : 0 < size) (length : Nat) :
    roundUp size length < length + size := by
  unfold roundUp
  split <;> omega

/-- A transfer of a known length ends in the next multiple of the packet size. -/
theorem ends_roundUp {size : Nat} (bytes : List α) :
    Ends size (roundUp size bytes.length) bytes := by
  refine ⟨le_roundUp _ _, ?_⟩
  unfold roundUp
  split
  · exact Or.inl rfl
  · exact Or.inr (Or.inr ‹_›)

theorem roundUp_le {size length limit : Nat} (hsize : 0 < size) (hlimit : limit % size = 0)
    (h : length ≤ limit) : roundUp size length ≤ limit := by
  unfold roundUp
  split
  · exact h
  · next hmod =>
      have hlt := Nat.mod_lt length hsize
      have hdiv := Nat.div_add_mod length size
      obtain ⟨k, rfl⟩ := Nat.dvd_of_mod_eq_zero hlimit
      have hk : length / size < k := by
        rw [Nat.div_lt_iff_lt_mul hsize, Nat.mul_comm]
        refine Nat.lt_of_le_of_ne h ?_
        rintro rfl
        exact hmod (Nat.mul_mod_right _ _)
      have hstep : size * (length / size + 1) ≤ size * k := Nat.mul_le_mul_left _ hk
      rw [Nat.mul_succ] at hstep
      omega

end Adb.BulkPipes
