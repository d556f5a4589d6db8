import Adb.Numerals
import Adb.ShellProtocol

/-!
`stdin_read_thread_loop`, commandline.cpp: the input of an interactive shell on
its way to the device.  When stdin is raw, an escape character at the start of a
line introduces a command to the filter itself.
-/

namespace Adb.StdinEscapes

open Adb.DescriptorIo
open Adb.Numerals
open Adb.ShellProtocol (Packet)
open Adb.WirePackets

/-- The fields of `StdinReadArgs` and the size of the buffer that is used without
the shell protocol. -/
structure StdinReadArgs where
  rawStdin : Bool
  protocol : Bool
  escapeChar : UInt8
  rawBufferSize : Nat
  deriving DecidableEq, Repr

namespace StdinReadArgs

/-- Input is checked for escape sequences. -/
def filters (args : StdinReadArgs) : Bool := args.rawStdin && args.escapeChar ≠ 0

def bufferSize (args : StdinReadArgs) : Nat :=
  if args.filters then 1
  else if args.protocol then ShellProtocol.bufferSize - ShellProtocol.headerSize
  else args.rawBufferSize

end StdinReadArgs

/-- A `winsize`. -/
structure WindowSize where
  row : UInt16
  col : UInt16
  xpixel : UInt16
  ypixel : UInt16
  deriving DecidableEq, Repr

def WindowSize.text (ws : WindowSize) : Bytes :=
  print 10 ws.row.toNat ++ 120 :: print 10 ws.col.toNat ++
    44 :: print 10 ws.xpixel.toNat ++ 120 :: print 10 ws.ypixel.toNat

/-- A result of `unix_read_interruptible`: bytes, or `EINTR` with the size that
the window has then.  Where the results end, the read has failed or found the end
of the input. -/
inductive Stdin where
  | data (bytes : Bytes)
  | interrupted (size : Option WindowSize)
  deriving DecidableEq, Repr

def Stdin.bytes : Stdin → Bytes
  | data bytes => bytes
  | interrupted _ => []

inductive EscapeState where
  | midFlow
  | startOfLine
  | inEscape
  deriving DecidableEq, Repr

/-- The thread's buffer, the state of the filter, and what was written.  Without
the shell protocol only the payloads of stdin packets are written. -/
structure Reader where
  buffer : Bytes
  state : EscapeState
  sent : List Packet
  attempts : Nat
  deriving DecidableEq, Repr

/-- Bytes stored from the start of a buffer. -/
def store (buffer bytes : Bytes) : Bytes := bytes ++ buffer.drop bytes.length

/-- Write the first bytes of the buffer; `writes` says which writes succeed. -/
def Reader.write (writes : Nat → Bool) (st : Reader) (id : ShellProtocol.Id) (length : Nat) :
    Bool × Reader :=
  let next := { st with attempts := st.attempts + 1 }
  if writes st.attempts then
    (true, { next with sent := st.sent ++ [⟨id, st.buffer.take length⟩] })
  else (false, next)

def sendWindowSizeChange (args : StdinReadArgs) (writes : Nat → Bool) (st : Reader)
    (size : Option WindowSize) : Reader :=
  if args.protocol then
    match size with
    | none => st
    | some ws =>
        let st := { st with buffer := store st.buffer (ws.text ++ [0]) }
        (st.write writes .windowSizeChange (ws.text.length + 1)).2
  else st

/-- What becomes of the bytes that were read. -/
inductive Verdict where
  | disconnect
  | swallow (st : Reader)
  | forward (st : Reader) (r : Nat)

def isNewline (b : UInt8) : Bool := b = 10 || b = 13

/-- The check for escape sequences, after a read of `r` bytes. -/
def checkEscapes (args : StdinReadArgs) (st : Reader) (r : Nat) : Verdict :=
  if args.filters then
    let ch := st.buffer.headD 0
    if ch = args.escapeChar then
      if st.state = .startOfLine then .swallow { st with state := .inEscape }
      else .forward { st with state := .midFlow } r
    else
      let state := if isNewline ch then .startOfLine else .midFlow
      if st.state = .inEscape then
        if ch = 46 then .disconnect
        else
          .forward
            { st with buffer := store st.buffer [args.escapeChar, ch], state := state } (r + 1)
      else .forward { st with state := state } r
  else .forward st r

inductive Ending where
  | disconnected
  | stdinEnded
  | writeFailed
  deriving DecidableEq, Repr

def stdinReadLoop (args : StdinReadArgs) (writes : Nat → Bool) :
    Reader → List Stdin → Ending × Reader
  | st, [] =>
      (.stdinEnded, if args.protocol then (st.write writes .closeStdin 0).2 else st)
  | st, .interrupted size :: script =>
      stdinReadLoop args writes (sendWindowSizeChange args writes st size) script
  | st, .data bytes :: script =>
      match checkEscapes args { st with buffer := store st.buffer bytes } bytes.length with
      | .disconnect => (.disconnected, st)
      | .swallow st => stdinReadLoop args writes st script
      | .forward st r =>
          match st.write writes .stdin r with
          | (true, st) => stdinReadLoop args writes st script
          | (false, st) => (.writeFailed, st)

/-- `stdin_read_thread_loop`, from whatever the buffer holds. -/
def stdinReadThreadLoop (args : StdinReadArgs) (writes : Nat → Bool) (buffer : Bytes)
    (size : Option WindowSize) (script : List Stdin) : Ending × Reader :=
  stdinReadLoop args writes
    (sendWindowSizeChange args writes ⟨buffer, .startOfLine, [], 0⟩ size) script

/-- The input that was passed on. -/
def Reader.forwarded (st : Reader) : Bytes :=
  (st.sent.filter fun p => p.id = .stdin).flatMap Packet.payload

/-- The reads deliver an input, each of them at least one byte and at most as
many as the buffer takes. -/
structure Delivers (args : StdinReadArgs) (script : List Stdin) (input : Bytes) : Prop where
  nonempty : .data [] ∉ script
  fits : ∀ bytes, .data bytes ∈ script → bytes.length ≤ args.bufferSize
  input : script.flatMap Stdin.bytes = input

/-- What the filter is for: at the start of a line, a pair of escape characters
stands for one, and an escape character with a dot disconnects.  Everything else
is passed on. -/
def filtered (e : UInt8) : Bool → Bytes → Bytes × Bool
  | _, [] => ([], false)
  | _, [b] => ([b], false)
  | start, b :: c :: rest =>
      if start ∧ b = e ∧ c = e then
        (e :: (filtered e false rest).1, (filtered e false rest).2)
      else if start ∧ b = e ∧ c = 46 then ([], true)
      else
        (b :: (filtered e (isNewline b) (c :: rest)).1,
          (filtered e (isNewline b) (c :: rest)).2)

/-- The input ends after the first escape character of a line. -/
def endsInEscape (e : UInt8) : Bool → Bytes → Bool
  | _, [] => false
  | start, [b] => start && b = e
  | start, b :: c :: rest =>
      if start ∧ b = e ∧ c = e then endsInEscape e false rest
      else if start ∧ b = e ∧ c = 46 then false
      else endsInEscape e (isNewline b) (c :: rest)

/-- What is left to do in each state of the filter: an escape character that was
swallowed is still in front of the input. -/
def expected (e : UInt8) : EscapeState → Bytes → Bytes × Bool
  | .midFlow, input => filtered e false input
  | .startOfLine, input => filtered e true input
  | .inEscape, input => filtered e true (e :: input)

def endsExpected (e : UInt8) : EscapeState → Bytes → Bool
  | .midFlow, input => endsInEscape e false input
  | .startOfLine, input => endsInEscape e true input
  | .inEscape, input => endsInEscape e true (e :: input)

/-- The check for one byte: what is passed on, unless the filter disconnects. -/
def escapeStep (e : UInt8) (state : EscapeState) (ch : UInt8) : Option (EscapeState × Bytes) :=
  if ch = e then
    if state = .startOfLine then some (.inEscape, []) else some (.midFlow, [e])
  else
    let next := if isNewline ch then .startOfLine else .midFlow
    if state = .inEscape then if ch = 46 then none else some (next, [e, ch])
    else some (next, [ch])

section

variable {args : StdinReadArgs} {writes : Nat → Bool} {e : UInt8} {state : EscapeState}
  {st : Reader} {input : Bytes} {script : List Stdin}

theorem take_store (buffer bytes : Bytes) : (store buffer bytes).take bytes.length = bytes := by
  rw [store, List.take_left]

theorem filtered_cons {start : Bool} {b : UInt8} (h : ¬ (start = true ∧ b = e)) (input : Bytes) :
    filtered e start (b :: input) =
      (b :: (filtered e (isNewline b) input).1, (filtered e (isNewline b) input).2) := by
  cases input with
  | nil => rfl
  | cons c rest =>
      have hpair : ¬ (start = true ∧ b = e ∧ c = e) := fun hall => h ⟨hall.1, hall.2.1⟩
      have hdot : ¬ (start = true ∧ b = e ∧ c = 46) := fun hall => h ⟨hall.1, hall.2.1⟩
      rw [filtered, if_neg hpair, if_neg hdot]

theorem endsInEscape_cons {start : Bool} {b : UInt8} (h : ¬ (start = true ∧ b = e))
    (input : Bytes) :
    endsInEscape e start (b :: input) = endsInEscape e (isNewline b) input := by
  cases input with
  | nil =>
      rw [endsInEscape, endsInEscape, Bool.and_eq_false_iff, decide_eq_false_iff_not]
      rcases not_and_or.mp h with hstart | hb
      · exact .inl (Bool.eq_false_iff.mpr hstart)
      · exact .inr hb
  | cons c rest =>
      have hpair : ¬ (start = true ∧ b = e ∧ c = e) := fun hall => h ⟨hall.1, hall.2.1⟩
      have hdot : ¬ (start = true ∧ b = e ∧ c = 46) := fun hall => h ⟨hall.1, hall.2.1⟩
      rw [endsInEscape, if_neg hpair, if_neg hdot]

theorem expected_next (b : UInt8) (input : Bytes) :
    expected e (if isNewline b then .startOfLine else .midFlow) input =
      filtered e (isNewline b) input := by
  cases isNewline b with
  | true => rfl
  | false => rfl

theorem endsExpected_next (b : UInt8) (input : Bytes) :
    endsExpected e (if isNewline b then .startOfLine else .midFlow) input =
      endsInEscape e (isNewline b) input := by
  cases isNewline b with
  | true => rfl
  | false => rfl

theorem escapeStep_plain {ch : UInt8} (hne : ch ≠ e) (hstate : state ≠ .inEscape) :
    escapeStep e state ch = some (if isNewline ch then .startOfLine else .midFlow, [ch]) := by
  rw [escapeStep, if_neg hne]
  dsimp only
  rw [if_neg hstate]

theorem expected_cons (he : isNewline e = false) (state : EscapeState) (ch : UInt8)
    (input : Bytes) :
    (expected e state (ch :: input) =
      match escapeStep e state ch with
      | none => ([], true)
      | some (next, out) => (out ++ (expected e next input).1, (expected e next input).2)) ∧
    endsExpected e state (ch :: input) =
      match escapeStep e state ch with
      | none => false
      | some (next, _) => endsExpected e next input := by
  rcases eq_or_ne ch e with rfl | hne
  · cases state with
    | midFlow =>
        have hstep : escapeStep ch .midFlow ch = some (.midFlow, [ch]) := by simp [escapeStep]
        have hstart : ¬ (false = true ∧ ch = ch) := by simp
        have hfiltered := filtered_cons hstart input
        have hends := endsInEscape_cons hstart input
        rw [he] at hfiltered hends
        rw [hstep]
        exact ⟨hfiltered, hends⟩
    | startOfLine =>
        have hstep : escapeStep ch .startOfLine ch = some (.inEscape, []) := by simp [escapeStep]
        rw [hstep]
        exact ⟨rfl, rfl⟩
    | inEscape =>
        have hstep : escapeStep ch .inEscape ch = some (.midFlow, [ch]) := by simp [escapeStep]
        rw [hstep]
        exact ⟨if_pos (by simp), if_pos (by simp)⟩
  · have hplain : ∀ start : Bool, ¬ (start = true ∧ ch = e) := fun _ hall => hne hall.2
    have hnext := expected_next (e := e) ch input
    have hends := endsExpected_next (e := e) ch input
    cases state with
    | midFlow =>
        rw [escapeStep_plain hne (by simp)]
        dsimp only
        rw [hnext, hends]
        exact ⟨filtered_cons (hplain _) input, endsInEscape_cons (hplain _) input⟩
    | startOfLine =>
        rw [escapeStep_plain hne (by simp)]
        dsimp only
        rw [hnext, hends]
        exact ⟨filtered_cons (hplain _) input, endsInEscape_cons (hplain _) input⟩
    | inEscape =>
        have hpair : ¬ (true = true ∧ e = e ∧ ch = e) := fun hall => hne hall.2.2
        rcases eq_or_ne ch 46 with rfl | hdot
        · have hstep : escapeStep e .inEscape 46 = none := by simp [escapeStep, hne]
          rw [hstep]
          exact ⟨(if_neg hpair).trans (if_pos (by simp)), (if_neg hpair).trans (if_pos (by simp))⟩
        · have hthird : ¬ (true = true ∧ e = e ∧ ch = 46) := fun hall => hdot hall.2.2
          have hstep : escapeStep e .inEscape ch =
              some (if isNewline ch then .startOfLine else .midFlow, [e, ch]) := by
            simp [escapeStep, hne, hdot]
          rw [hstep]
          dsimp only
          rw [hnext, hends, expected, filtered, if_neg hpair, if_neg hthird, endsExpected,
            endsInEscape, if_neg hpair, if_neg hthird, he, filtered_cons (hplain _),
            endsInEscape_cons (hplain _)]
          exact ⟨rfl, rfl⟩

theorem checkEscapes_byte (hfilters : args.filters = true) (st : Reader) (ch : UInt8) :
    (escapeStep args.escapeChar st.state ch = none ∧
      checkEscapes args { st with buffer := store st.buffer [ch] } 1 = .disconnect) ∨
    (∃ buffer, escapeStep args.escapeChar st.state ch = some (.inEscape, []) ∧
      checkEscapes args { st with buffer := store st.buffer [ch] } 1 =
        .swallow { st with buffer := buffer, state := .inEscape }) ∨
    ∃ buffer next out, escapeStep args.escapeChar st.state ch = some (next, out) ∧
      buffer.take out.length = out ∧
      checkEscapes args { st with buffer := store st.buffer [ch] } 1 =
        .forward { st with buffer := buffer, state := next } out.length := by
  have hhead : (store st.buffer [ch]).headD 0 = ch := rfl
  rw [checkEscapes, if_pos hfilters, escapeStep]
  dsimp only
  rw [hhead]
  split
  · rename_i hescape
    split
    · exact .inr (.inl ⟨_, rfl, rfl⟩)
    · rw [← hescape]
      exact .inr (.inr ⟨_, _, _, rfl, take_store st.buffer [ch], rfl⟩)
  · split
    · split
      · exact .inl ⟨rfl, rfl⟩
      · exact .inr (.inr ⟨_, _, _, rfl,
          take_store (store st.buffer [ch]) [args.escapeChar, ch], rfl⟩)
    · exact .inr (.inr ⟨_, _, _, rfl, take_store st.buffer [ch], rfl⟩)

theorem write_cases (writes : Nat → Bool) (st : Reader) (id : ShellProtocol.Id) (length : Nat) :
    st.write writes id length =
        (true, { st with
          sent := st.sent ++ [⟨id, st.buffer.take length⟩], attempts := st.attempts + 1 }) ∨
      writes st.attempts = false ∧
        st.write writes id length = (false, { st with attempts := st.attempts + 1 }) := by
  cases hwrite : writes st.attempts with
  | true => exact .inl (if_pos hwrite)
  | false => exact .inr ⟨rfl, if_neg (by simp [hwrite])⟩

theorem forwarded_write_of_ne {id : ShellProtocol.Id} (hid : id ≠ .stdin) (length : Nat) :
    (st.write writes id length).2.forwarded = st.forwarded := by
  rcases write_cases writes st id length with h | ⟨-, h⟩
  · rw [h]
    simp [Reader.forwarded, hid]
  · rw [h]
    rfl

theorem state_write (id : ShellProtocol.Id) (length : Nat) :
    (st.write writes id length).2.state = st.state := by
  rcases write_cases writes st id length with h | ⟨-, h⟩
  · rw [h]
  · rw [h]

theorem sendWindowSizeChange_frame (args : StdinReadArgs) (writes : Nat → Bool) (st : Reader)
    (size : Option WindowSize) :
    (sendWindowSizeChange args writes st size).forwarded = st.forwarded ∧
      (sendWindowSizeChange args writes st size).state = st.state := by
  unfold sendWindowSizeChange
  split
  · cases size with
    | none => exact ⟨rfl, rfl⟩
    | some ws => exact ⟨forwarded_write_of_ne (by simp) _, state_write _ _⟩
  · exact ⟨rfl, rfl⟩

theorem Delivers.interrupted {size : Option WindowSize}
    (h : Delivers args (.interrupted size :: script) input) : Delivers args script input where
  nonempty hmem := h.nonempty (List.mem_cons_of_mem _ hmem)
  fits bytes hmem := h.fits bytes (List.mem_cons_of_mem _ hmem)
  input := h.input

theorem Delivers.byte {bytes : Bytes} (h : Delivers args (.data bytes :: script) input)
    (hfilters : args.filters = true) :
    ∃ ch rest, bytes = [ch] ∧ input = ch :: rest ∧ Delivers args script rest := by
  have hfits := h.fits bytes List.mem_cons_self
  rw [StdinReadArgs.bufferSize, if_pos hfilters] at hfits
  have hne : bytes ≠ [] := by
    rintro rfl
    exact h.nonempty List.mem_cons_self
  have hlength : bytes.length = 1 := by
    have := List.length_pos_of_ne_nil hne
    omega
  obtain ⟨ch, rfl⟩ := List.length_eq_one_iff.mp hlength
  refine ⟨ch, _, rfl, h.input.symm, ?_, ?_, rfl⟩
  · exact fun hmem => h.nonempty (List.mem_cons_of_mem _ hmem)
  · exact fun bytes hmem => h.fits bytes (List.mem_cons_of_mem _ hmem)

/-- A run has passed on what it should: a part of it in any case, and all of it
when every write succeeds. -/
structure Passes (writes : Nat → Bool) (st : Reader) (result : Ending × Reader)
    (target : Bytes × Bool) : Prop where
  part : ∃ out, out <+: target.1 ∧ result.2.forwarded = st.forwarded ++ out
  reason : result.1 = .disconnected → target.2 = true
  whole : (∀ i, writes i = true) → result.2.forwarded = st.forwarded ++ target.1 ∧
    (target.2 = true → result.1 = .disconnected)

theorem Passes.after {st' : Reader} {result : Ending × Reader} {target : Bytes × Bool}
    {out : Bytes} (h : Passes writes st' result target)
    (hstep : st'.forwarded = st.forwarded ++ out) :
    Passes writes st result (out ++ target.1, target.2) where
  part := by
    obtain ⟨more, hmore, hforwarded⟩ := h.part
    refine ⟨out ++ more, (List.prefix_append_right_inj out).mpr hmore, ?_⟩
    rw [hforwarded, hstep, List.append_assoc]
  reason := h.reason
  whole hwrites := by
    obtain ⟨hforwarded, hdisconnect⟩ := h.whole hwrites
    refine ⟨?_, hdisconnect⟩
    rw [hforwarded, hstep, List.append_assoc]

theorem passes_failed {st' : Reader} {target : Bytes × Bool}
    (hforwarded : st'.forwarded = st.forwarded) (hfailed : ∃ i, writes i = false) :
    Passes writes st (.writeFailed, st') target where
  part := ⟨[], List.nil_prefix, by rw [hforwarded, List.append_nil]⟩
  reason h := by cases h
  whole hwrites := by
    obtain ⟨i, hi⟩ := hfailed
    rw [hwrites i] at hi
    cases hi

theorem passes_stopped {ending : Ending} {st' : Reader} {disconnect : Bool}
    (hforwarded : st'.forwarded = st.forwarded)
    (hending : ending = .disconnected ↔ disconnect = true) :
    Passes writes st (ending, st') ([], disconnect) where
  part := ⟨[], List.nil_prefix, by rw [hforwarded, List.append_nil]⟩
  reason := hending.mp
  whole _ := ⟨by rw [hforwarded, List.append_nil], hending.mpr⟩

theorem expected_nil (hends : endsExpected e state [] = false) : expected e state [] = ([], false) := by
  cases state with
  | midFlow => rfl
  | startOfLine => rfl
  | inEscape => simp [endsExpected, endsInEscape] at hends

/-- Every run of the loop, from any state of the filter. -/
theorem passes_stdinReadLoop (writes : Nat → Bool) (hfilters : args.filters = true)
    (hnewline : isNewline args.escapeChar = false) (st : Reader)
    (hdelivers : Delivers args script input)
    (hends : endsExpected args.escapeChar st.state input = false) :
    Passes writes st (stdinReadLoop args writes st script)
      (expected args.escapeChar st.state input) := by
  induction script generalizing st input with
  | nil =>
      obtain rfl : [] = input := hdelivers.input
      rw [expected_nil hends, stdinReadLoop]
      apply passes_stopped
      · split
        · exact forwarded_write_of_ne (by simp) 0
        · rfl
      · simp
  | cons result script ih =>
      cases result with
      | interrupted size =>
          obtain ⟨hforwarded, hstate⟩ := sendWindowSizeChange_frame args writes st size
          have hrest := ih (sendWindowSizeChange args writes st size) hdelivers.interrupted
            (by rwa [hstate])
          rw [hstate] at hrest
          exact hrest.after (hforwarded.trans (List.append_nil _).symm)
      | data bytes =>
          obtain ⟨ch, rest, rfl, rfl, hrest⟩ := hdelivers.byte hfilters
          obtain ⟨hexpected, hending⟩ := expected_cons hnewline st.state ch rest
          rw [hexpected, stdinReadLoop, List.length_singleton]
          rw [hending] at hends
          rcases checkEscapes_byte hfilters st ch with
            ⟨hstep, hcheck⟩ | ⟨buffer, hstep, hcheck⟩ | ⟨buffer, next, out, hstep, hout, hcheck⟩
          · rw [hcheck, hstep]
            exact passes_stopped rfl (by simp)
          · rw [hstep] at hends ⊢
            rw [hcheck]
            have hrun := ih { st with buffer := buffer, state := .inEscape } hrest hends
            exact hrun.after (List.append_nil _).symm
          · rw [hstep] at hends ⊢
            rw [hcheck]
            dsimp only at hends ⊢
            rcases write_cases writes { st with buffer := buffer, state := next } .stdin out.length
              with hwrite | ⟨hfailed, hwrite⟩
            · rw [hwrite]
              dsimp only
              rw [hout]
              exact (ih ⟨buffer, next, _, _⟩ hrest hends).after (by simp [Reader.forwarded])
            · rw [hwrite]
              exact passes_failed rfl ⟨_, hfailed⟩

end

/-- The filter is exact: what reaches the device is the filtered input, up to a
write that fails, and the client disconnects where the filter says so. -/
theorem escapes_filtered (args : StdinReadArgs) (hraw : args.rawStdin = true)
    (hescape : args.escapeChar ∉ [0, 46, 13, 10]) (buffer : Bytes) (size : Option WindowSize)
    (script : List Stdin) (input : Bytes) (hdelivers : Delivers args script input)
    (hends : endsInEscape args.escapeChar true input = false) (writes : Nat → Bool) :
    let run := stdinReadThreadLoop args writes buffer size script
    let target := filtered args.escapeChar true input
    (run.2.forwarded <+: target.1 ∧ (run.1 = .disconnected → target.2 = true)) ∧
      ((∀ i, writes i = true) →
        run.2.forwarded = target.1 ∧ (run.1 = .disconnected ↔ target.2 = true)) := by
  simp only [List.mem_cons, List.not_mem_nil, or_false, not_or] at hescape
  have hfilters : args.filters = true := by
    simp [StdinReadArgs.filters, hraw, hescape.1]
  have hnewline : isNewline args.escapeChar = false := by
    simp [isNewline, hescape]
  obtain ⟨hforwarded, hstate⟩ :=
    sendWindowSizeChange_frame args writes ⟨buffer, .startOfLine, [], 0⟩ size
  have hpasses := passes_stdinReadLoop writes hfilters hnewline
    (sendWindowSizeChange args writes ⟨buffer, .startOfLine, [], 0⟩ size) hdelivers
    (by rw [hstate]; exact hends)
  rw [hstate] at hpasses
  have hnil : (sendWindowSizeChange args writes ⟨buffer, .startOfLine, [], 0⟩ size).forwarded =
      [] := hforwarded
  refine ⟨⟨?_, hpasses.reason⟩, fun hwrites => ?_⟩
  · obtain ⟨out, hprefix, hout⟩ := hpasses.part
    rw [hnil, List.nil_append] at hout
    exact hout ▸ hprefix
  · obtain ⟨hwhole, hdisconnect⟩ := hpasses.whole hwrites
    rw [hnil, List.nil_append] at hwhole
    exact ⟨hwhole, hpasses.reason, hdisconnect⟩

/-- A shell with the escape character `~`. -/
def tildeArgs : StdinReadArgs where
  rawStdin := true
  protocol := true
  escapeChar := 126
  rawBufferSize := 8192

/-- Two tildes, a carriage return and a disconnect, with a window that changes its
size in the middle of each pair. -/
def tildeScript : List Stdin :=
  [.data [126], .interrupted (some ⟨24, 80, 0, 0⟩), .data [126], .data [13], .data [126],
    .interrupted none, .data [46], .data [120]]

theorem delivers_tildeScript : Delivers tildeArgs tildeScript [126, 126, 13, 126, 46, 120] where
  nonempty := by decide
  fits bytes hmem := by
    simp only [tildeScript, List.mem_cons, List.not_mem_nil, or_false, Stdin.data.injEq,
      reduceCtorEq, false_or] at hmem
    rcases hmem with rfl | rfl | rfl | rfl | rfl | rfl <;> decide
  input := rfl

theorem escapes_filtered_tilde :
    (stdinReadThreadLoop tildeArgs (fun _ => true) [] none tildeScript).2.forwarded = [126, 13] ∧
      (stdinReadThreadLoop tildeArgs (fun _ => true) [] none tildeScript).1 = .disconnected := by
  have h := (escapes_filtered tildeArgs rfl (by decide) [] none tildeScript _
    delivers_tildeScript (by decide) fun _ => true).2 fun _ => rfl
  exact ⟨h.1, h.2.mpr (by decide)⟩

end Adb.StdinEscapes
