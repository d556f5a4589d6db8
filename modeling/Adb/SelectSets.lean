import Adb.ShellSubprocess

/-!
What `select` waits for.  While a write to the child's stdin is blocked the
protocol descriptor is not read; it is read again once the write is over, but
not if the pipe dies on its other side in the meantime.
-/

namespace Adb.SelectSets

open Adb.DescriptorIo
open Adb.ShellProtocol
open Adb.ShellServices (SubprocessType)
open Adb.ShellSubprocess
open Adb.TransitionSystems

/-- The descriptor can be read when `select` returns, in its set or not. -/
def Readable (r : Round) (sfd : Sfd) : Prop := r.selected.readable sfd = true

/-- The client is lost at a `select`: its descriptor can be read, and `Read` fails. -/
structure Lost (s : Subprocess) (r : Round) : Prop where
  readable : Readable r .protocol
  failing : s.input.read.run s.incoming = none

/-- The pipe of stdin and stdout dies in `PassOutput` while a write to it is
blocked, and stderr keeps the loop going. -/
structure Orphans (s : Subprocess) (r : Round) : Prop where
  blocked : 0 < s.inputBytesLeft
  stderr : s.isOpen .stderr = true
  stdinout : s.isOpen .stdinout = true
  set : s.readSet .stdinout = true
  readable : Readable r .stdinout
  dies : isEnd r.stdout = true

/-- The master sets follow `input_bytes_left_`. -/
structure InStep (s : Subprocess) : Prop where
  protocol : s.readSet .protocol = true ↔ s.inputBytesLeft = 0
  stdin : s.writeSet .stdinout = true ↔ s.inputBytesLeft ≠ 0
  valid : s.inputBytesLeft ≠ 0 → s.isOpen .stdinout = true

/-! ## Descriptors that die -/

theorem bury_isOpen {s : Subprocess} {dead sfd : Sfd} (h : (s.bury dead).isOpen sfd = true) :
    s.isOpen sfd = true ∧ dead ≠ .protocol ∧ dead ≠ sfd := by
  simp only [Subprocess.bury] at h
  split at h
  · simp at h
  · rename_i hpipe
    simp only [Function.update_apply] at h
    split at h
    · simp at h
    · rename_i hother
      exact ⟨h, hpipe, fun heq => hother heq.symm⟩

theorem bury_of_running {s : Subprocess} {dead : Sfd} (h : (s.bury dead).running = true) :
    dead ≠ .protocol ∧ (dead = .stdinout → s.isOpen .stderr = true) := by
  simp only [Subprocess.running, Bool.and_eq_true, Bool.or_eq_true] at h
  refine ⟨(bury_isOpen h.1).2.1, ?_⟩
  rintro rfl
  rcases h.2 with hpipe | hpipe
  · exact absurd rfl (bury_isOpen hpipe).2.2
  · exact (bury_isOpen hpipe).1

theorem InStep.bury {s : Subprocess} {dead : Sfd} (h : InStep s) (hdead : dead ≠ .protocol)
    (hidle : dead = .stdinout → s.inputBytesLeft = 0) : InStep (s.bury dead) := by
  cases dead with
  | protocol => exact absurd rfl hdead
  | stdinout =>
      have hleft := hidle rfl
      refine ⟨?_, ?_, ?_⟩
      · simpa [Subprocess.bury] using h.protocol
      · simpa [Subprocess.bury] using hleft
      · intro hbusy
        exact absurd hleft hbusy
  | stderr =>
      refine ⟨?_, ?_, ?_⟩
      · simpa [Subprocess.bury] using h.protocol
      · simpa [Subprocess.bury] using h.stdin
      · simpa [Subprocess.bury] using h.valid

/-! ## One round -/

/-- The two states agree on what the loop of `SelectLoop` is controlled by. -/
structure SameControl (s s' : Subprocess) : Prop where
  isOpen : s'.isOpen = s.isOpen
  readSet : s'.readSet = s.readSet
  writeSet : s'.writeSet = s.writeSet
  inputBytesLeft : s'.inputBytesLeft = s.inputBytesLeft
  input : s'.input = s.input
  incoming : s'.incoming = s.incoming
  hangup : s'.hangup = s.hangup
  childInput : s'.childInput = s.childInput

theorem SameControl.refl (s : Subprocess) : SameControl s s :=
  ⟨rfl, rfl, rfl, rfl, rfl, rfl, rfl, rfl⟩

theorem SameControl.trans {s s' s'' : Subprocess} (h : SameControl s s')
    (h' : SameControl s' s'') : SameControl s s'' :=
  ⟨h'.isOpen.trans h.isOpen, h'.readSet.trans h.readSet, h'.writeSet.trans h.writeSet,
    h'.inputBytesLeft.trans h.inputBytesLeft, h'.input.trans h.input,
    h'.incoming.trans h.incoming, h'.hangup.trans h.hangup,
    h'.childInput.trans h.childInput⟩

theorem InStep.congr {s s' : Subprocess} (h : InStep s) (hsame : SameControl s s') :
    InStep s' := by
  refine ⟨?_, ?_, ?_⟩
  · rw [hsame.readSet, hsame.inputBytesLeft]
    exact h.protocol
  · rw [hsame.writeSet, hsame.inputBytesLeft]
    exact h.stdin
  · rw [hsame.isOpen, hsame.inputBytesLeft]
    exact h.valid

theorem passOutput_control (s : Subprocess) (readSet : FdSet) (sfd : Sfd) (id : Id)
    (result : ReadResult) (script : List WriteResult) {s' : Subprocess} {dead : Option Sfd}
    (h : onlyIf (validAndInSet sfd readSet) (passOutput sfd id result script) s = (s', dead)) :
    SameControl s s' ∧ (dead = none ∨ dead = some .protocol ∨
      dead = some sfd ∧ isEnd result = true ∧ s.isOpen sfd = true ∧ readSet sfd = true) := by
  rw [onlyIf] at h
  split at h
  · rename_i hready
    obtain ⟨hopen, hset⟩ := validAndInSet_eq.mp hready
    have hdead := passOutput_dead s sfd id result script
    obtain ⟨_, _, _, _, hframe⟩ := passOutput_frame s sfd id result script
    rw [h] at hdead hframe
    obtain rfl : s' = _ := hframe
    refine ⟨⟨rfl, rfl, rfl, rfl, rfl, rfl, rfl, rfl⟩, ?_⟩
    rcases hdead with hdead | hdead | ⟨hend, hdead⟩
    · exact .inl hdead
    · exact .inr (.inl hdead)
    · exact .inr (.inr ⟨hdead, hend, hopen, hset⟩)
  · obtain ⟨rfl, rfl⟩ := Prod.mk.inj h
    exact ⟨SameControl.refl _, .inl rfl⟩

theorem passInput_control (s : Subprocess) (shutdown : Bool) (result : WriteResult)
    {s' : Subprocess} {dead : Option Sfd} (h : passInput shutdown result s = (s', dead)) :
    s'.isOpen = s.isOpen ∧ s'.readSet = s.readSet ∧ s'.writeSet = s.writeSet ∧
      s'.hangup = s.hangup ∧
      (dead = none ∨ dead = some .protocol ∨
        dead = some .stdinout ∧ s'.inputBytesLeft = 0) ∧
      (s'.inputBytesLeft ≠ 0 → s.inputBytesLeft ≠ 0 ∨ s.isOpen .stdinout = true) := by
  have hwrite : ∀ t : Subprocess, writeInput result t = (s', dead) →
      s'.isOpen = t.isOpen ∧ s'.readSet = t.readSet ∧ s'.writeSet = t.writeSet ∧
        s'.hangup = t.hangup ∧
        (dead = none ∨ dead = some .protocol ∨
          dead = some .stdinout ∧ s'.inputBytesLeft = 0) := by
    intro t ht
    rcases writeInput_cases t result with ⟨n, _, heq⟩ | heq
    · obtain ⟨rfl, rfl⟩ := Prod.mk.inj (ht.symm.trans heq)
      exact ⟨rfl, rfl, rfl, rfl, .inl rfl⟩
    · obtain ⟨rfl, rfl⟩ := Prod.mk.inj (ht.symm.trans heq)
      exact ⟨rfl, rfl, rfl, rfl, .inr (.inr ⟨rfl, rfl⟩)⟩
  rcases passInput_cases s shutdown result with ⟨hidle, _, heq⟩ |
    ⟨input, incoming, hidle, _, ⟨_, heq⟩ | ⟨hopen, heq⟩⟩ | ⟨hbusy, heq⟩
  · obtain ⟨rfl, rfl⟩ := Prod.mk.inj (h.symm.trans heq)
    exact ⟨rfl, rfl, rfl, rfl, .inr (.inl rfl), fun hbusy => absurd hidle hbusy⟩
  · obtain ⟨rfl, rfl⟩ := Prod.mk.inj (h.symm.trans heq)
    exact ⟨rfl, rfl, rfl, rfl, .inl rfl, fun hbusy => absurd hidle hbusy⟩
  · rw [heq] at h
    rcases takePacket_cases { s with input := input, incoming := incoming } shutdown result with
      ⟨_, htake | htake⟩ | ⟨_, htake⟩
    · obtain ⟨rfl, rfl⟩ := Prod.mk.inj (h.symm.trans htake)
      exact ⟨rfl, rfl, rfl, rfl, .inl rfl, fun _ => .inr hopen⟩
    · obtain ⟨rfl, rfl⟩ := Prod.mk.inj (h.symm.trans htake)
      exact ⟨rfl, rfl, rfl, rfl, .inr (.inr ⟨rfl, hidle⟩), fun _ => .inr hopen⟩
    · obtain ⟨hopen', hread, hset, hhangup, hdead⟩ := hwrite _ (htake.symm.trans h)
      exact ⟨hopen', hread, hset, hhangup, hdead, fun _ => .inr hopen⟩
  · obtain ⟨hopen', hread, hset, hhangup, hdead⟩ := hwrite s (heq.symm.trans h)
    exact ⟨hopen', hread, hset, hhangup, hdead, fun _ => .inl hbusy⟩

theorem inStep_blockOnStdin {s : Subprocess} (hread : s.readSet .protocol = true)
    (hwrite : s.writeSet .stdinout = false)
    (hvalid : s.inputBytesLeft ≠ 0 → s.isOpen .stdinout = true) :
    InStep s.blockOnStdin := by
  rw [Subprocess.blockOnStdin]
  split
  · rename_i hdone
    exact ⟨by simp [hread, hdone], by simp [hwrite, hdone], hvalid⟩
  · rename_i hleft
    exact ⟨by simp [hleft], by simp [hleft], hvalid⟩

theorem inStep_blockOnProtocol {s : Subprocess} (hread : s.readSet .protocol = false)
    (hwrite : s.writeSet .stdinout = true)
    (hvalid : s.inputBytesLeft ≠ 0 → s.isOpen .stdinout = true) :
    InStep s.blockOnProtocol := by
  rw [Subprocess.blockOnProtocol]
  split
  · rename_i hdone
    exact ⟨by simp [hdone], by simp [hdone], fun hleft => absurd hdone hleft⟩
  · rename_i hleft
    exact ⟨by simp [hread, hleft], by simp [hwrite, hleft], hvalid⟩

theorem blockOnStdin_inputBytesLeft (s : Subprocess) :
    s.blockOnStdin.inputBytesLeft = s.inputBytesLeft := by
  rw [Subprocess.blockOnStdin]
  split <;> rfl

theorem blockOnProtocol_inputBytesLeft (s : Subprocess) :
    s.blockOnProtocol.inputBytesLeft = s.inputBytesLeft := by
  rw [Subprocess.blockOnProtocol]
  split <;> rfl

theorem inStep_settle_passInput {s : Subprocess} {shutdown : Bool} {result : WriteResult}
    {change : Subprocess → Subprocess}
    (hleft : ∀ s, (change s).inputBytesLeft = s.inputBytesLeft)
    (hchange : ∀ s', s'.readSet = s.readSet → s'.writeSet = s.writeSet →
      (s'.inputBytesLeft ≠ 0 → s'.isOpen .stdinout = true) → InStep (change s'))
    (hvalid : s.inputBytesLeft ≠ 0 → s.isOpen .stdinout = true)
    (hrunning : (settle (followedBy (passInput shutdown result) change s)).running = true) :
    InStep (settle (followedBy (passInput shutdown result) change s)) := by
  rcases hpass : passInput shutdown result s with ⟨s', dead⟩
  obtain ⟨hopen, hread, hwrite, _, hdead, hbusy⟩ := passInput_control s shutdown result hpass
  have hstep : InStep (change s') := by
    apply hchange s' hread hwrite
    intro hsome
    rw [hopen]
    exact (hbusy hsome).elim hvalid id
  simp only [followedBy, hpass] at hrunning ⊢
  rcases hdead with rfl | rfl | ⟨rfl, hdone⟩
  · exact hstep
  · have hclosed : ((change s').bury .protocol).running = true := hrunning
    exact absurd rfl (bury_of_running hclosed).1
  · show InStep ((change s').bury .stdinout)
    exact hstep.bury (by decide) fun _ => (hleft s').trans hdone

theorem onlyIf_of_not_set {sfd : Sfd} {set : FdSet} {handler : Handler}
    (h : set sfd = false) (s : Subprocess) :
    onlyIf (validAndInSet sfd set) handler s = (s, none) := by
  rw [onlyIf, validAndInSet, h, Bool.and_false]
  rfl

theorem andThen_onlyIf_of_not_set {sfd : Sfd} {set : FdSet} {first handler : Handler}
    (h : set sfd = false) : andThen first (onlyIf (validAndInSet sfd set) handler) = first := by
  funext s
  rw [andThen]
  rcases first s with ⟨s', _ | dead⟩
  · exact onlyIf_of_not_set h s'
  · rfl

theorem settle_onlyIf {P : Subprocess → Prop} {condition : Subprocess → Bool}
    {handler : Handler} {s : Subprocess} (hskip : P s) (htake : P (settle (handler s))) :
    P (settle (onlyIf condition handler s)) := by
  rw [onlyIf]
  split
  · exact htake
  · exact hskip

theorem settle_andThen {P : Subprocess → Prop} {first second : Handler} {s : Subprocess}
    (hdead : ∀ s' dead, first s = (s', some dead) → P (s'.bury dead))
    (hlive : ∀ s', first s = (s', none) → P (settle (second s'))) :
    P (settle (andThen first second s)) := by
  rw [andThen]
  rcases hcase : first s with ⟨s', _ | dead⟩
  · exact hlive s' hcase
  · exact hdead s' dead hcase

theorem settle_outputs {P : Subprocess → Prop} {s : Subprocess} {r : Round}
    {readSet : FdSet} {rest : Handler}
    (hprotocol : ∀ s', SameControl s s' → P (s'.bury .protocol))
    (hstdout : ∀ s', SameControl s s' → isEnd r.stdout = true → s.isOpen .stdinout = true →
      readSet .stdinout = true → P (s'.bury .stdinout))
    (hstderr : ∀ s', SameControl s s' → s.isOpen .stderr = true → P (s'.bury .stderr))
    (hlive : ∀ s', SameControl s s' → P (settle (rest s'))) :
    P (settle (andThen
      (onlyIf (validAndInSet .stdinout readSet)
        (passOutput .stdinout .stdout r.stdout r.stdoutScript))
      (andThen
        (onlyIf (validAndInSet .stderr readSet)
          (passOutput .stderr .stderr r.stderr r.stderrScript)) rest) s)) := by
  apply settle_andThen
  · intro s₁ dead hfirst
    obtain ⟨hsame, hnone | hdead | ⟨hdead, hend, hopen, hset⟩⟩ :=
      passOutput_control s readSet _ _ _ _ hfirst
    · cases hnone
    · obtain rfl := Option.some.inj hdead
      exact hprotocol s₁ hsame
    · obtain rfl := Option.some.inj hdead
      exact hstdout s₁ hsame hend hopen hset
  · intro s₁ hfirst
    have hsame := (passOutput_control s readSet _ _ _ _ hfirst).1
    apply settle_andThen
    · intro s₂ dead hsecond
      obtain ⟨hsame', hnone | hdead | ⟨hdead, _, hopen, _⟩⟩ :=
        passOutput_control s₁ readSet _ _ _ _ hsecond
      · cases hnone
      · obtain rfl := Option.some.inj hdead
        exact hprotocol s₂ (hsame.trans hsame')
      · obtain rfl := Option.some.inj hdead
        rw [hsame.isOpen] at hopen
        exact hstderr s₂ (hsame.trans hsame') hopen
    · intro s₂ hsecond
      exact hlive s₂ (hsame.trans (passOutput_control s₁ readSet _ _ _ _ hsecond).1)

/-- The master sets stay in step over a round in which the pipe of a blocked
write does not die on its other side. -/
theorem InStep.round {s : Subprocess} {r : Round} (h : InStep s) (hsafe : ¬ Orphans s r)
    (hrunning : (s.round r).running = true) : InStep (s.round r) := by
  rcases hselected : r.selected with _ | _ | ⟨readable, writable⟩
  · simp only [Subprocess.round, hselected]
    exact h
  · simp [Subprocess.round, hselected, Subprocess.running] at hrunning
  simp only [Subprocess.round, hselected] at hrunning ⊢
  revert hrunning
  apply settle_outputs (P := fun t => t.running = true → InStep t)
  · intro s' _ hrunning
    exact absurd rfl (bury_of_running hrunning).1
  · intro s' hsame hend hopen hset hrunning
    have hstderr := (bury_of_running hrunning).2 rfl
    rw [hsame.isOpen] at hstderr
    rw [Bool.and_eq_true] at hset
    refine (h.congr hsame).bury (by decide) fun _ => ?_
    rw [hsame.inputBytesLeft]
    rcases Nat.eq_zero_or_pos s.inputBytesLeft with hidle | hbusy
    · exact hidle
    · have hreadable : Readable r .stdinout := by
        rw [Readable, hselected]
        exact hset.2
      exact absurd ⟨hbusy, hstderr, hopen, hset.1, hreadable, hend⟩ hsafe
  · intro s' hsame _ _
    exact (h.congr hsame).bury (by decide) nofun
  · intro s' hsame
    have hstep := h.congr hsame
    rcases Decidable.em (s.inputBytesLeft = 0) with hidle | hbusy
    · -- No write was blocked at the `select`: only the protocol can be served.
      have hread : s'.readSet .protocol = true := hstep.protocol.mpr
        (hsame.inputBytesLeft.trans hidle)
      have hwrite : s.writeSet .stdinout = false := by
        rw [← Bool.not_eq_true, h.stdin]
        exact fun hbusy => hbusy hidle
      rw [andThen_onlyIf_of_not_set (by rw [hwrite, Bool.false_and])]
      apply settle_onlyIf (P := fun t => t.running = true → InStep t)
      · exact fun _ => hstep
      · refine inStep_settle_passInput blockOnStdin_inputBytesLeft ?_ hstep.valid
        intro t hreadSet hwriteSet hvalid
        refine inStep_blockOnStdin ?_ ?_ hvalid
        · rw [hreadSet, hread]
        · rw [hwriteSet, hsame.writeSet, hwrite]
    · -- The protocol was not in the set: only the blocked write can be resumed.
      have hread : s.readSet .protocol = false := by
        rw [← Bool.not_eq_true, h.protocol]
        exact hbusy
      have hwrite : s'.writeSet .stdinout = true := by
        rw [hsame.writeSet]
        exact h.stdin.mpr hbusy
      rw [andThen, onlyIf_of_not_set (by rw [hread, Bool.false_and])]
      apply settle_onlyIf (P := fun t => t.running = true → InStep t)
      · exact fun _ => hstep
      · refine inStep_settle_passInput blockOnProtocol_inputBytesLeft ?_ hstep.valid
        intro t hreadSet hwriteSet hvalid
        refine inStep_blockOnProtocol ?_ ?_ hvalid
        · rw [hreadSet, hsame.readSet, hread]
        · rw [hwriteSet, hwrite]

/-! ## The loss of the client -/

/-- A lost client is hung up on if `select` was asked for it and none of the
child's pipes dies first. -/
theorem Lost.round {s : Subprocess} {r : Round} (h : Lost s r)
    (hopen : s.isOpen .protocol = true) (hread : s.readSet .protocol = true)
    (hidle : s.inputBytesLeft = 0) :
    ((s.round r).hangup = true ∧ (s.round r).running = false) ∨
      ∃ sfd s', sfd ≠ .protocol ∧ s.isOpen sfd = true ∧ SameControl s s' ∧
        s.round r = s'.bury sfd := by
  have hreadable := h.readable
  rcases hselected : r.selected with _ | _ | ⟨readable, writable⟩
  · rw [Readable, hselected] at hreadable
    cases hreadable
  · rw [Readable, hselected] at hreadable
    cases hreadable
  rw [Readable, hselected] at hreadable
  simp only [Subprocess.round, hselected]
  apply settle_outputs (P := fun t => (t.hangup = true ∧ t.running = false) ∨
    ∃ sfd s', sfd ≠ .protocol ∧ s.isOpen sfd = true ∧ SameControl s s' ∧ t = s'.bury sfd)
  · exact fun _ _ => .inl ⟨rfl, rfl⟩
  · intro s' hsame _ hopen _
    exact .inr ⟨.stdinout, s', by decide, hopen, hsame, rfl⟩
  · intro s' hsame hopen
    exact .inr ⟨.stderr, s', by decide, hopen, hsame, rfl⟩
  · intro s' hsame
    have hready : validAndInSet .protocol (fun sfd => s.readSet sfd && readable sfd) s' =
        true := by
      rw [validAndInSet, hsame.isOpen, hopen, hread]
      exact hreadable
    have hpass : passInput r.shutdown r.stdin s' = (s', some .protocol) := by
      rw [passInput, if_pos (hsame.inputBytesLeft.trans hidle), hsame.input, hsame.incoming,
        h.failing]
    refine .inl ?_
    rw [andThen, onlyIf, if_pos hready, followedBy, hpass]
    exact ⟨rfl, rfl⟩

/-- A client that was lost has been answered by a `SIGHUP` to the child. -/
def HungUp (s : Subprocess) : Prop := s.isOpen .protocol = false → s.hangup = true

theorem hungUp_settle {s s' : Subprocess} (h : HungUp s) (hopen : s'.isOpen = s.isOpen)
    (hhangup : s'.hangup = s.hangup) (dead : Option Sfd) : HungUp (settle (s', dead)) := by
  rw [HungUp, ← hopen, ← hhangup] at h
  cases dead with
  | none => exact h
  | some dead =>
      cases dead with
      | protocol => exact fun _ => rfl
      | stdinout => simpa [HungUp, settle, Subprocess.bury] using h
      | stderr => simpa [HungUp, settle, Subprocess.bury] using h

theorem HungUp.passOutput {s : Subprocess} (h : HungUp s) (sfd : Sfd) (id : Id)
    (result : ReadResult) (script : List WriteResult) :
    HungUp (settle (ShellSubprocess.passOutput sfd id result script s)) := by
  obtain ⟨_, _, _, _, hframe⟩ := passOutput_frame s sfd id result script
  rcases hpass : ShellSubprocess.passOutput sfd id result script s with ⟨s', dead⟩
  rw [hpass] at hframe
  obtain rfl : s' = _ := hframe
  refine hungUp_settle h ?_ ?_ dead
  · rfl
  · rfl

theorem HungUp.passInput {s : Subprocess} (h : HungUp s) (shutdown : Bool)
    (result : WriteResult) {change : Subprocess → Subprocess}
    (hchange : ∀ s, (change s).isOpen = s.isOpen ∧ (change s).hangup = s.hangup) :
    HungUp (settle (followedBy (ShellSubprocess.passInput shutdown result) change s)) := by
  obtain ⟨hopen, _, _, hhangup, _, _⟩ := passInput_control s shutdown result rfl
  exact hungUp_settle h ((hchange _).1.trans hopen) ((hchange _).2.trans hhangup) _

theorem HungUp.round {s : Subprocess} (h : HungUp s) (r : Round) : HungUp (s.round r) := by
  rcases hselected : r.selected with _ | _ | ⟨readable, writable⟩
  · simp only [Subprocess.round, hselected]
    exact h
  · simpa [Subprocess.round, hselected, HungUp] using h
  · simp only [Subprocess.round, hselected]
    refine keeps_serve ?_ ?_ ?_ ?_ s h
    · exact fun s _ _ hs => hs.passOutput _ _ _ _
    · exact fun s _ _ hs => hs.passOutput _ _ _ _
    · refine fun s _ _ hs => hs.passInput _ _ fun s => ?_
      rw [Subprocess.blockOnStdin]
      split <;> exact ⟨rfl, rfl⟩
    · refine fun s _ _ hs => hs.passInput _ _ fun s => ?_
      rw [Subprocess.blockOnProtocol]
      split <;> exact ⟨rfl, rfl⟩

/-! ## Every run -/

theorem inStep_start (char : CharKind) (type : SubprocessType) (incoming : List Bytes) :
    InStep (start char type incoming) := by
  refine ⟨?_, ?_, ?_⟩
  · exact iff_of_true rfl rfl
  · exact iff_of_false Bool.false_ne_true (fun h => h rfl)
  · exact fun h => absurd rfl h

theorem round_of_orphans {s : Subprocess} {r : Round} (h : Orphans s r) :
    s.round r = s.bury .stdinout := by
  have hready := h.readable
  rcases hselected : r.selected with _ | _ | ⟨readable, writable⟩
  · rw [Readable, hselected] at hready
    cases hready
  · rw [Readable, hselected] at hready
    cases hready
  rw [Readable, hselected] at hready
  have hvalid : validAndInSet .stdinout (fun sfd => s.readSet sfd && readable sfd) s = true := by
    rw [validAndInSet, h.stdinout, h.set]
    exact hready
  simp only [Subprocess.round, hselected]
  rw [serve, andThen, onlyIf, if_pos hvalid, passOutput, if_pos h.dies]
  rfl

/-- Nothing waits for the client any more. -/
structure Orphaned (s : Subprocess) : Prop where
  protocol : s.readSet .protocol = false
  stdinout : s.isOpen .stdinout = false

theorem Orphaned.bury {s : Subprocess} (h : Orphaned s) (dead : Sfd) :
    Orphaned (s.bury dead) := by
  refine ⟨?_, ?_⟩
  · have hset : (s.bury dead).readSet = Function.update s.readSet dead false := by
      rw [Subprocess.bury]
      split <;> rfl
    rw [hset, Function.update_apply, h.protocol]
    exact ite_self _
  · rw [← Bool.not_eq_true]
    intro hopen
    have := (bury_isOpen hopen).1
    rw [h.stdinout] at this
    cases this

theorem Orphaned.round {s : Subprocess} (h : Orphaned s) (r : Round) :
    Orphaned (s.round r) := by
  have hcongr : ∀ s', SameControl s s' → Orphaned s' := fun s' hsame =>
    ⟨by rw [hsame.readSet, h.protocol], by rw [hsame.isOpen, h.stdinout]⟩
  rcases hselected : r.selected with _ | _ | ⟨readable, writable⟩
  · simp only [Subprocess.round, hselected]
    exact h
  · simp only [Subprocess.round, hselected]
    exact ⟨h.protocol, rfl⟩
  · simp only [Subprocess.round, hselected]
    apply settle_outputs (P := Orphaned)
    · exact fun s' hsame => (hcongr s' hsame).bury .protocol
    · exact fun s' hsame _ _ _ => (hcongr s' hsame).bury .stdinout
    · exact fun s' hsame _ => (hcongr s' hsame).bury .stderr
    · intro s' hsame
      have hclosed : validAndInSet .stdinout (fun sfd => s.writeSet sfd && writable sfd) s' =
          false := by
        rw [validAndInSet, hsame.isOpen, h.stdinout, Bool.false_and]
      rw [andThen, onlyIf_of_not_set (by rw [h.protocol, Bool.false_and])]
      simp only [onlyIf, hclosed]
      exact hcongr s' hsame

theorem inStep_or_orphaned_round {s : Subprocess} {r : Round} (h : InStep s ∨ Orphaned s)
    (hrunning : (s.round r).running = true) : InStep (s.round r) ∨ Orphaned (s.round r) := by
  rcases h with h | h
  · rcases Classical.em (Orphans s r) with horphans | hsafe
    · refine .inr ?_
      rw [round_of_orphans horphans]
      refine ⟨?_, ?_⟩
      · have hbusy := horphans.blocked
        have hread : s.readSet .protocol = false := by
          rw [← Bool.not_eq_true, h.protocol]
          omega
        simpa [Subprocess.bury] using hread
      · simp [Subprocess.bury]
    · exact .inl (h.round hsafe hrunning)
  · exact .inr (h.round r)

section Runs

variable (char : CharKind) (type : SubprocessType) (incoming : List Bytes)

/-- The subprocess after these rounds. -/
def after (rounds : List Round) : Subprocess :=
  (system char type incoming).execute (start char type incoming) rounds

variable {char type incoming}

end Runs

/-- A client that sends three bytes for stdin. -/
def threeBytes : List Bytes := [[0, 3, 0, 0, 0], [97, 98, 99]]

/-- A round in which nothing happens but what the descriptor is ready for. -/
def roundOn (readable writable : FdSet) (stdout : ReadResult) (stdin resumed : WriteResult) :
    Round where
  selected := .ready readable writable
  stdout := stdout
  stdoutScript := []
  stderr := .eagain
  stderrScript := []
  shutdown := true
  stdin := stdin
  resumed := resumed

/-- The write of the packet blocks. -/
def blockedRound : Round :=
  roundOn (· == .protocol) (fun _ => false) .eagain .eagain .eagain

/-- The child reads its stdin. -/
def resumedRound : Round :=
  roundOn (fun _ => false) (· == .stdinout) .eagain .eagain (.wrote 3)

instance (char : CharKind) (type : SubprocessType) (incoming : List Bytes) (s : Subprocess)
    (r : Round) : Decidable ((system char type incoming).enabled s r) :=
  inferInstanceAs (Decidable (s.running = true))

end Adb.SelectSets
