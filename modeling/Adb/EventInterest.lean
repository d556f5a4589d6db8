import Mathlib.Logic.Function.Basic

/-!
The `fdevent` record of one descriptor: the interest mask, the pending mask,
and the translation of a `poll` result into the events that are delivered.
-/

namespace Adb.EventInterest

/-- The low byte of an fdevent mask, one field for each bit: `FDE_READ`,
`FDE_WRITE` and `FDE_ERROR` are events, `FDE_DONT_CLOSE` is a feature bit. -/
structure EventMask where
  read : Bool
  write : Bool
  error : Bool
  dontClose : Bool
  deriving DecidableEq, Repr

namespace EventMask

/-- The mask `0`. -/
def empty : EventMask := ⟨false, false, false, false⟩

def fdeRead : EventMask := { empty with read := true }

def fdeWrite : EventMask := { empty with write := true }

def union (a b : EventMask) : EventMask :=
  ⟨a.read || b.read, a.write || b.write, a.error || b.error,
    a.dontClose || b.dontClose⟩

def inter (a b : EventMask) : EventMask :=
  ⟨a.read && b.read, a.write && b.write, a.error && b.error,
    a.dontClose && b.dontClose⟩

def diff (a b : EventMask) : EventMask :=
  ⟨a.read && !b.read, a.write && !b.write, a.error && !b.error,
    a.dontClose && !b.dontClose⟩

end EventMask

/-- An installed `fdevent`.  `state` is the part of the state word below
`FDE_EVENTMASK`; the `FDE_PENDING` bit is the field `pending`. -/
structure Fdevent where
  state : EventMask
  events : EventMask
  pending : Bool
  forceEof : Bool
  deriving DecidableEq, Repr

/-- The record that `fdevent_install` leaves behind: active, without interest. -/
def fdeventInstall : Fdevent := ⟨.empty, .empty, false, false⟩

/-- `fdevent_set`: a changed interest also withdraws the pending events that
are no longer wanted, and with the last of them the pending mark. -/
def fdeventSet (fde : Fdevent) (events : EventMask) : Fdevent :=
  if fde.state = events then fde
  else if fde.pending then
    let wanted := fde.events.inter events
    { fde with
      state := events
      events := wanted
      pending := decide (wanted ≠ .empty) }
  else { fde with state := events }

def fdeventAdd (fde : Fdevent) (events : EventMask) : Fdevent :=
  fdeventSet fde (fde.state.union events)

def fdeventDel (fde : Fdevent) (events : EventMask) : Fdevent :=
  fdeventSet fde (fde.state.diff events)

/-- The bits of `revents` that `fdevent_process` looks at. -/
structure PollResult where
  pollIn : Bool
  pollOut : Bool
  pollErr : Bool
  pollHup : Bool
  pollNval : Bool
  pollRdHup : Bool
  deriving DecidableEq, Repr

/-- `POLLIN`, `POLLOUT` and `POLLRDHUP`, each reported alone. -/
def PollResult.readable : PollResult := ⟨true, false, false, false, false, false⟩

def PollResult.writable : PollResult := ⟨false, true, false, false, false, false⟩

def PollResult.halfClosed : PollResult := ⟨false, false, false, false, false, true⟩

/-- What `poll` may report for a descriptor with this interest: `POLLIN` and
`POLLOUT` only when they were asked for, the other bits at any time. -/
def PollResult.Allowed (revents : PollResult) (state : EventMask) : Prop :=
  (revents.pollIn = true → state.read = true) ∧
    (revents.pollOut = true → state.write = true)

instance (revents : PollResult) (state : EventMask) :
    Decidable (revents.Allowed state) :=
  inferInstanceAs (Decidable (_ ∧ _))

/-- The events that `fdevent_process` derives from one `revents` value.  An
error condition is turned into a read event whatever the interest is. -/
def PollResult.toEvents (revents : PollResult) : EventMask :=
  let failed := revents.pollErr || revents.pollHup || revents.pollNval ||
    revents.pollRdHup
  ⟨revents.pollIn || failed, revents.pollOut, failed, false⟩

/-- The body of the loop in `fdevent_process` for one descriptor. -/
def fdeventProcess (fde : Fdevent) (revents : PollResult) : Fdevent :=
  if revents.toEvents = .empty then fde
  else { fde with events := fde.events.union revents.toEvents, pending := true }

/-- `fdevent_call_fdfunc` up to the call: the pending events are taken. -/
def fdeventTake (fde : Fdevent) : Fdevent :=
  { fde with events := .empty, pending := false }

@[simp] theorem fdeventSet_state (fde : Fdevent) (events : EventMask) :
    (fdeventSet fde events).state = events := by
  unfold fdeventSet
  split
  · assumption
  · split <;> rfl

@[simp] theorem fdeventSet_forceEof (fde : Fdevent) (events : EventMask) :
    (fdeventSet fde events).forceEof = fde.forceEof := by
  unfold fdeventSet
  split
  · rfl
  · split <;> rfl

@[simp] theorem fdeventAdd_state (fde : Fdevent) (events : EventMask) :
    (fdeventAdd fde events).state = fde.state.union events :=
  fdeventSet_state _ _

@[simp] theorem fdeventDel_state (fde : Fdevent) (events : EventMask) :
    (fdeventDel fde events).state = fde.state.diff events :=
  fdeventSet_state _ _

@[simp] theorem fdeventProcess_state (fde : Fdevent) (revents : PollResult) :
    (fdeventProcess fde revents).state = fde.state := by
  unfold fdeventProcess
  split <;> rfl

@[simp] theorem fdeventTake_state (fde : Fdevent) :
    (fdeventTake fde).state = fde.state := rfl

/-- What holds of every installed fdevent: a pending write event is still
wanted, and nothing is recorded while the fdevent is not pending.  Read events
need not be wanted, since `fdevent_process` fakes them. -/
structure Fdevent.Sound (fde : Fdevent) : Prop where
  writeWanted : fde.events.write = true → fde.state.write = true
  idle : fde.pending = false → fde.events = .empty

theorem sound_fdeventInstall : Fdevent.Sound fdeventInstall := by
  constructor <;> simp [fdeventInstall, EventMask.empty]

theorem Fdevent.Sound.fdeventSet {fde : Fdevent} (h : fde.Sound)
    (events : EventMask) : (fdeventSet fde events).Sound := by
  unfold EventInterest.fdeventSet
  split
  · exact h
  · split
    · constructor
      · intro hwrite
        simp only [EventMask.inter, Bool.and_eq_true] at hwrite
        exact hwrite.2
      · intro hpending
        simpa using hpending
    · rename_i hpending
      have hidle := h.idle (by simpa using hpending)
      constructor
      · intro hwrite
        rw [hidle] at hwrite
        simp [EventMask.empty] at hwrite
      · intro _
        exact hidle

theorem Fdevent.Sound.fdeventAdd {fde : Fdevent} (h : fde.Sound)
    (events : EventMask) : (fdeventAdd fde events).Sound :=
  h.fdeventSet _

theorem Fdevent.Sound.fdeventDel {fde : Fdevent} (h : fde.Sound)
    (events : EventMask) : (fdeventDel fde events).Sound :=
  h.fdeventSet _

theorem Fdevent.Sound.fdeventProcess {fde : Fdevent} (h : fde.Sound)
    {revents : PollResult} (hallowed : revents.Allowed fde.state) :
    (fdeventProcess fde revents).Sound := by
  unfold EventInterest.fdeventProcess
  split
  · exact h
  · constructor
    · intro hwrite
      simp only [EventMask.union, PollResult.toEvents, Bool.or_eq_true] at hwrite
      exact hwrite.elim h.writeWanted hallowed.2
    · intro hpending
      simp at hpending

theorem Fdevent.Sound.fdeventTake {fde : Fdevent} (_ : fde.Sound) :
    (fdeventTake fde).Sound := by
  constructor <;> simp [EventInterest.fdeventTake, EventMask.empty]

end Adb.EventInterest
