import Adb.SocketTable
import Adb.TransitionSystems

/-!
The registry of transports, transport.cpp: threads put new transports into
`pending_list` and announce them through the registration socket; the main
thread moves them to `transport_list`, and the last of a transport's threads
asks for its removal in the same way.  A step is a critical section of
`transport_lock`, a message, or what a thread does between two of them.
-/

namespace Adb.TransportRegistry

open Adb.DescriptorIo
open Adb.SocketTable
open Adb.TransitionSystems

inductive Kind where
  | socket
  | usb (handle : Nat)
  deriving DecidableEq, Repr

/-- How far a transport has come: not allocated, created by the thread that
registers it, in the lists, announced, taken over by the main thread without or
with threads, without threads again, its removal asked for, and removed. -/
inductive Stage where
  | free
  | created
  | listed
  | announced
  | settled
  | running
  | closing
  | removalSent
  | removed
  deriving DecidableEq, Repr

namespace Stage

/-- The transport is registered and has not been removed. -/
def known : Stage → Bool
  | free | created | removed => false
  | _ => true

/-- The main thread has taken the registration message. -/
def started : Stage → Bool
  | settled | running | closing | removalSent => true
  | _ => false

end Stage

structure Transport where
  kind : Kind
  serial : Option Bytes
  noPerm : Bool
  refCount : Nat
  stage : Stage
  deriving DecidableEq, Repr

/-- A `tmsg`. -/
inductive Message where
  | register (t : TransportRef)
  | remove (t : TransportRef)
  deriving DecidableEq, Repr

/-- Where the main thread is in `transport_registration_func`: outside, before
the critical section of a registration or of a removal, before the `delete`. -/
inductive MainPhase where
  | idle
  | moving (t : TransportRef)
  | removing (t : TransportRef)
  | deleting (t : TransportRef)
  deriving DecidableEq, Repr

structure Registry where
  heap : TransportRef → Transport
  pendingList : List TransportRef
  transportList : List TransportRef
  pipe : List Message
  main : MainPhase

inductive Label where
  | newSocket (t : TransportRef) (serial : Option Bytes)
  | initFails (t : TransportRef)
  | listSocket (t : TransportRef)
  | newUsb (t : TransportRef) (handle : Nat) (serial : Option Bytes) (writeable : Bool)
  | listUsb (t : TransportRef)
  | announce (t : TransportRef)
  | receive
  | move
  | unlist
  | delete
  | unref (t : TransportRef)
  | sendRemoval (t : TransportRef)
  | unregisterUsb (handle : Nat)
  deriving DecidableEq, Repr

namespace Registry

def stage (st : Registry) (t : TransportRef) : Stage := (st.heap t).stage

def setTransport (st : Registry) (t : TransportRef) (a : Transport) : Registry :=
  { st with heap := Function.update st.heap t a }

def setStage (st : Registry) (t : TransportRef) (stage : Stage) : Registry :=
  st.setTransport t { st.heap t with stage := stage }

/-- A transport of one of the lists has this serial. -/
def serialInUse (st : Registry) (serial : Bytes) : Bool :=
  (st.pendingList ++ st.transportList).any fun t => (st.heap t).serial = some serial

/-- The transports that `unregister_usb_transport` takes. -/
def isUnusable (st : Registry) (handle : Nat) (t : TransportRef) : Bool :=
  (st.heap t).kind == .usb handle && (st.heap t).noPerm

/-- `transport_registration_func` up to its critical section. -/
def receive (st : Registry) : Registry :=
  match st.pipe with
  | [] => st
  | .remove t :: pipe => { st with pipe := pipe, main := .removing t }
  | .register t :: pipe =>
      let a := st.heap t
      let a :=
        if a.noPerm then { a with stage := .settled }
        else { a with refCount := 2, stage := .running }
      { st with pipe := pipe, main := .moving t }.setTransport t a

/-- One step.  `pointerText` is the serial that a socket transport gets when it
is registered without one, made of its address. -/
def next (pointerText : TransportRef → Bytes) (st : Registry) : Label → Registry
  | .newSocket t serial =>
      st.setTransport t ⟨.socket, some (serial.getD (pointerText t)), false, 0, .created⟩
  | .initFails t => st.setStage t .free
  | .listSocket t =>
      match (st.heap t).serial with
      | some serial =>
          if st.serialInUse serial then st.setStage t .free
          else { st with pendingList := t :: st.pendingList }.setStage t .listed
      -- `newSocket` has made a serial where there was none
      | none => st
  | .newUsb t handle serial writeable =>
      st.setTransport t ⟨.usb handle, serial, !writeable, 0, .created⟩
  | .listUsb t => { st with pendingList := t :: st.pendingList }.setStage t .listed
  | .announce t => { st with pipe := st.pipe ++ [Message.register t] }.setStage t .announced
  | .receive => st.receive
  | .move =>
      match st.main with
      | .moving t =>
          { st with
            pendingList := st.pendingList.filter (· ≠ t)
            transportList := t :: st.transportList
            main := .idle }
      | _ => st
  | .unlist =>
      match st.main with
      | .removing t =>
          { st with
            transportList := st.transportList.filter (· ≠ t)
            main := .deleting t }.setStage t .removed
      | _ => st
  | .delete =>
      match st.main with
      | .deleting t => { st with main := .idle }.setStage t .free
      | _ => st
  | .unref t =>
      let a := st.heap t
      st.setTransport t
        { a with
          refCount := a.refCount - 1
          stage := if a.refCount = 1 then .closing else a.stage }
  | .sendRemoval t => { st with pipe := st.pipe ++ [Message.remove t] }.setStage t .removalSent
  | .unregisterUsb handle =>
      { st with
        transportList := st.transportList.filter fun t => !st.isUnusable handle t
        heap := fun t =>
          if t ∈ st.transportList ∧ st.isUnusable handle t then
            { st.heap t with stage := .removed }
          else st.heap t }

/-- When a step can be taken.  An allocation returns memory that is not in use;
a transport has two threads, and each drops its reference once. -/
def Enabled (st : Registry) : Label → Prop
  | .newSocket t _ => st.stage t = .free
  | .initFails t => st.stage t = .created ∧ (st.heap t).kind = .socket
  | .listSocket t => st.stage t = .created ∧ (st.heap t).kind = .socket
  | .newUsb t _ _ _ => st.stage t = .free
  | .listUsb t => st.stage t = .created ∧ (st.heap t).kind ≠ .socket
  | .announce t => st.stage t = .listed
  | .receive => st.main = .idle ∧ st.pipe ≠ []
  | .move => ∃ t, st.main = .moving t
  | .unlist => ∃ t, st.main = .removing t
  | .delete => ∃ t, st.main = .deleting t
  | .unref t => st.stage t = .running
  | .sendRemoval t => st.stage t = .closing
  | .unregisterUsb _ => True

/-- Nothing is allocated. -/
def initial : Registry where
  heap := fun _ => ⟨.socket, none, false, 0, .free⟩
  pendingList := []
  transportList := []
  pipe := []
  main := .idle

end Registry

/-- What the main thread is doing with a transport. -/
inductive Role where
  | absent
  | moving
  | removing
  | deleting
  deriving DecidableEq, Repr

def MainPhase.role : MainPhase → TransportRef → Role
  | .idle, _ => .absent
  | .moving t', t => if t' = t then .moving else .absent
  | .removing t', t => if t' = t then .removing else .absent
  | .deleting t', t => if t' = t then .deleting else .absent

/-- How often a transport is in the lists, and how many messages about it are
on their way. -/
structure Traces where
  pending : Nat
  transports : Nat
  registers : Nat
  removes : Nat
  deriving DecidableEq, Repr

def Registry.traces (st : Registry) (t : TransportRef) : Traces where
  pending := st.pendingList.count t
  transports := st.transportList.count t
  registers := st.pipe.count (.register t)
  removes := st.pipe.count (.remove t)

/-- The traces of a transport at each stage; `none` is a combination that does
not occur.  The threads of a transport can end before the main thread has moved
it, so all stages with threads occur while it is moving. -/
def expected : Stage → Role → Option Traces
  | .free, .absent => some ⟨0, 0, 0, 0⟩
  | .created, .absent => some ⟨0, 0, 0, 0⟩
  | .listed, .absent => some ⟨1, 0, 0, 0⟩
  | .announced, .absent => some ⟨1, 0, 1, 0⟩
  | .settled, .absent => some ⟨0, 1, 0, 0⟩
  | .settled, .moving => some ⟨1, 0, 0, 0⟩
  | .running, .absent => some ⟨0, 1, 0, 0⟩
  | .running, .moving => some ⟨1, 0, 0, 0⟩
  | .closing, .absent => some ⟨0, 1, 0, 0⟩
  | .closing, .moving => some ⟨1, 0, 0, 0⟩
  | .removalSent, .absent => some ⟨0, 1, 0, 1⟩
  | .removalSent, .moving => some ⟨1, 0, 0, 1⟩
  | .removalSent, .removing => some ⟨0, 1, 0, 0⟩
  | .removed, .absent => some ⟨0, 0, 0, 0⟩
  | .removed, .deleting => some ⟨0, 0, 0, 0⟩
  | _, _ => none

/-- The interleavings of the registering threads, the threads of the transports
and the main thread. -/
def registrySystem (pointerText : TransportRef → Bytes) : System Registry Label where
  initial st := st = .initial
  enabled := Registry.Enabled
  next := Registry.next pointerText

/-- The traces of a transport are those of its stage. -/
def Fits (st : Registry) (t : TransportRef) : Prop :=
  expected (st.stage t) (st.main.role t) = some (st.traces t)

/-- Two registered socket transports have different serials. -/
def SerialsDiffer (st : Registry) : Prop :=
  ∀ t t', (st.stage t).known = true → (st.stage t').known = true →
    (st.heap t).kind = .socket → (st.heap t').kind = .socket →
    (st.heap t).serial = (st.heap t').serial → t = t'

/-- A transport with threads is accessible. -/
def Accessible (a : Transport) : Prop :=
  a.stage = .running ∨ a.stage = .closing ∨ a.stage = .removalSent → a.noPerm = false

structure Consistent (st : Registry) : Prop where
  fits : ∀ t, Fits st t
  accessible : ∀ t, Accessible (st.heap t)
  serials : SerialsDiffer st

/-- A step that does not concern a transport. -/
structure Same (st st' : Registry) (t : TransportRef) : Prop where
  heap : st'.heap t = st.heap t
  role : st'.main.role t = st.main.role t
  traces : st'.traces t = st.traces t

section

variable {st st' : Registry} {t : TransportRef}

theorem Same.stage (h : Same st st' t) : st'.stage t = st.stage t := by
  rw [Registry.stage, h.heap]
  rfl

theorem Fits.of_same (h : Fits st t) (hsame : Same st st' t) : Fits st' t := by
  rw [Fits, hsame.stage, hsame.role, hsame.traces]
  exact h

@[simp] theorem stage_setTransport_self (a : Transport) :
    (st.setTransport t a).stage t = a.stage := by
  simp [Registry.setTransport, Registry.stage]

theorem heap_setTransport_of_ne {t' : TransportRef} (a : Transport) (h : t' ≠ t) :
    (st.setTransport t a).heap t' = st.heap t' :=
  Function.update_of_ne h _ _

@[simp] theorem heap_setTransport_self (a : Transport) : (st.setTransport t a).heap t = a :=
  Function.update_self _ _ _

@[simp] theorem traces_setTransport (a : Transport) (t' : TransportRef) :
    (st.setTransport t a).traces t' = st.traces t' := rfl

@[simp] theorem setTransport_main (a : Transport) : (st.setTransport t a).main = st.main := rfl

theorem same_setTransport {t' : TransportRef} (a : Transport) (h : t' ≠ t) :
    Same st (st.setTransport t a) t' :=
  ⟨heap_setTransport_of_ne a h, rfl, rfl⟩

theorem Consistent.change (h : Consistent st) (hsame : ∀ t' ≠ t, Same st st' t')
    (hfits : Fits st' t) (haccessible : Accessible (st'.heap t))
    (hserial : (st'.stage t).known = true → (st'.heap t).kind = .socket → ∀ t' ≠ t,
      (st.stage t').known = true → (st.heap t').kind = .socket →
        (st'.heap t).serial ≠ (st.heap t').serial) : Consistent st' where
  fits t' := by
    rcases eq_or_ne t' t with rfl | hne
    · exact hfits
    · exact (h.fits t').of_same (hsame t' hne)
  accessible t' := by
    rcases eq_or_ne t' t with rfl | hne
    · exact haccessible
    · rw [(hsame t' hne).heap]
      exact h.accessible t'
  serials := by
    intro t₁ t₂ hknown₁ hknown₂ hkind₁ hkind₂ hequal
    rcases eq_or_ne t₁ t with rfl | hne₁
    · rcases eq_or_ne t₂ t₁ with rfl | hne₂
      · rfl
      · rw [(hsame t₂ hne₂).stage] at hknown₂
        rw [(hsame t₂ hne₂).heap] at hkind₂ hequal
        exact absurd hequal (hserial hknown₁ hkind₁ t₂ hne₂ hknown₂ hkind₂)
    · rw [(hsame t₁ hne₁).stage] at hknown₁
      rw [(hsame t₁ hne₁).heap] at hkind₁ hequal
      rcases eq_or_ne t₂ t with rfl | hne₂
      · exact absurd hequal.symm (hserial hknown₂ hkind₂ t₁ hne₁ hknown₁ hkind₁)
      · rw [(hsame t₂ hne₂).stage] at hknown₂
        rw [(hsame t₂ hne₂).heap] at hkind₂ hequal
        exact h.serials t₁ t₂ hknown₁ hknown₂ hkind₁ hkind₂ hequal

theorem Consistent.progress (h : Consistent st) (hsame : ∀ t' ≠ t, Same st st' t')
    (hfits : Fits st' t) (haccessible : Accessible (st'.heap t))
    (hknown : (st'.stage t).known = true → (st.stage t).known = true)
    (hkind : (st'.heap t).kind = (st.heap t).kind)
    (hserial : (st'.heap t).serial = (st.heap t).serial) : Consistent st' := by
  apply h.change hsame hfits haccessible
  intro hstays hsocket t' hne hknown' hsocket' hequal
  rw [hkind] at hsocket
  rw [hserial] at hequal
  exact hne (h.serials t t' (hknown hstays) hknown' hsocket hsocket' hequal).symm

/-- The table decides whether the new traces fit the new stage and the new part
of the main thread. -/
theorem Fits.advance (h : Fits st t) {stage stage' : Stage} {role role' : Role}
    (f : Traces → Traces) (hstage : st.stage t = stage) (hstage' : st'.stage t = stage')
    (hrole : st.main.role t = role) (hrole' : st'.main.role t = role')
    (htraces : st'.traces t = f (st.traces t))
    (htable : ∀ traces, expected stage role = some traces →
      expected stage' role' = some (f traces)) : Fits st' t := by
  rw [Fits, hstage', hrole', htraces]
  apply htable
  rw [← hstage, ← hrole]
  exact h

@[simp] theorem stage_setStage_self (stage : Stage) : (st.setStage t stage).stage t = stage := by
  simp [Registry.setStage]

@[simp] theorem traces_setStage (stage : Stage) (t' : TransportRef) :
    (st.setStage t stage).traces t' = st.traces t' := rfl

theorem heap_setStage_self (stage : Stage) :
    (st.setStage t stage).heap t = { st.heap t with stage := stage } := by
  simp [Registry.setStage]

theorem Consistent.setStage {stage stage' : Stage} (h : Consistent st)
    (f : Traces → Traces) (hstage : st.stage t = stage) (hheap : st'.heap = st.heap)
    (hmain : st'.main = st.main) (hothers : ∀ t' ≠ t, st'.traces t' = st.traces t')
    (htraces : st'.traces t = f (st.traces t))
    (htable : ∀ role traces, expected stage role = some traces →
      expected stage' role = some (f traces))
    (haccessible : Accessible { st.heap t with stage := stage' })
    (hserial : stage'.known = true → stage.known = false → (st.heap t).kind = .socket →
      ∀ t' ≠ t, (st.stage t').known = true → (st.heap t').kind = .socket →
        (st.heap t).serial ≠ (st.heap t').serial) :
    Consistent (st'.setStage t stage') := by
  apply h.change
  · intro t' hne
    refine ⟨?_, ?_, hothers t' hne⟩
    · rw [← hheap]
      exact heap_setTransport_of_ne _ hne
    · rw [← hmain]
      rfl
  · refine (h.fits t).advance f hstage (stage_setStage_self stage') rfl ?_ htraces
      (htable _)
    rw [← hmain]
    rfl
  · rw [heap_setStage_self, hheap]
    exact haccessible
  · rw [stage_setStage_self, heap_setStage_self, hheap]
    intro hknown' hsocket t' hne hknown hsocket'
    cases hold : stage.known with
    | false => exact hserial hknown' hold hsocket t' hne hknown hsocket'
    | true =>
        intro hequal
        rw [← hstage] at hold
        exact hne (h.serials t t' hold hknown hsocket hsocket' hequal).symm

theorem consistent_newTransport (h : Consistent st) (hfree : st.stage t = .free)
    {a : Transport} (ha : a.stage = .created) : Consistent (st.setTransport t a) := by
  apply h.change fun t' hne => same_setTransport a hne
  · have htable : ∀ role traces, expected .free role = some traces →
        expected .created role = some traces := by
      rintro (_ | _ | _ | _) traces htraces <;> cases htraces
      rfl
    refine (h.fits t).advance id hfree (stage_setTransport_self a) rfl rfl rfl ?_
    rw [ha]
    exact htable _
  · rw [heap_setTransport_self, Accessible, ha]
    simp
  · rw [stage_setTransport_self, ha]
    intro hknown
    cases hknown

theorem consistent_discard (h : Consistent st) (hcreated : st.stage t = .created) :
    Consistent (st.setStage t .free) := by
  apply h.setStage id hcreated rfl rfl (fun _ _ => rfl) rfl
  · rintro (_ | _ | _ | _) traces htraces <;> cases htraces
    rfl
  · simp [Accessible]
  · intro hknown
    cases hknown

theorem consistent_list (h : Consistent st) (hcreated : st.stage t = .created)
    (hserial : (st.heap t).kind = .socket → ∀ t' ≠ t, (st.stage t').known = true →
      (st.heap t').kind = .socket → (st.heap t).serial ≠ (st.heap t').serial) :
    Consistent ({ st with pendingList := t :: st.pendingList }.setStage t .listed) := by
  refine h.setStage (fun traces => { traces with pending := traces.pending + 1 }) hcreated rfl
    rfl ?_ ?_ ?_ ?_ ?_
  · intro t' hne
    simp [Registry.traces, hne.symm]
  · simp [Registry.traces]
  · rintro (_ | _ | _ | _) traces htraces <;> cases htraces
    rfl
  · simp [Accessible]
  · intro _ _
    exact hserial

theorem consistent_announce (h : Consistent st) (hlisted : st.stage t = .listed) :
    Consistent ({ st with pipe := st.pipe ++ [Message.register t] }.setStage t .announced) := by
  refine h.setStage (fun traces => { traces with registers := traces.registers + 1 }) hlisted
    rfl rfl ?_ ?_ ?_ ?_ ?_
  · intro t' hne
    simp [Registry.traces, hne.symm]
  · simp [Registry.traces]
  · rintro (_ | _ | _ | _) traces htraces <;> cases htraces
    rfl
  · simp [Accessible]
  · intro _ hknown
    cases hknown

theorem consistent_sendRemoval (h : Consistent st) (hclosing : st.stage t = .closing) :
    Consistent ({ st with pipe := st.pipe ++ [Message.remove t] }.setStage t .removalSent) := by
  refine h.setStage (fun traces => { traces with removes := traces.removes + 1 }) hclosing rfl
    rfl ?_ ?_ ?_ ?_ ?_
  · intro t' hne
    simp [Registry.traces, hne.symm]
  · simp [Registry.traces]
  · rintro (_ | _ | _ | _) traces htraces <;> cases htraces <;> rfl
  · intro _
    exact h.accessible t (.inr (.inl hclosing))
  · intro _ hknown
    cases hknown

theorem consistent_unref (h : Consistent st) (hrunning : st.stage t = .running)
    {a : Transport} (hstage : a.stage = .running ∨ a.stage = .closing)
    (hkind : a.kind = (st.heap t).kind) (hserial : a.serial = (st.heap t).serial)
    (hnoPerm : a.noPerm = (st.heap t).noPerm) : Consistent (st.setTransport t a) := by
  apply h.progress fun t' hne => same_setTransport a hne
  · have htable : ∀ role traces, expected .running role = some traces →
        expected .closing role = some traces := by
      rintro (_ | _ | _ | _) traces htraces <;> cases htraces <;> rfl
    refine (h.fits t).advance id hrunning (stage_setTransport_self a) rfl rfl rfl ?_
    rcases hstage with ha | ha
    · rw [ha]
      exact fun traces htraces => htraces
    · rw [ha]
      exact htable _
  · rw [heap_setTransport_self]
    intro _
    rw [hnoPerm]
    exact h.accessible t (.inl hrunning)
  · rw [hrunning]
    exact fun _ => rfl
  · rw [heap_setTransport_self, hkind]
  · rw [heap_setTransport_self, hserial]

/-- A registered transport is in one of the lists. -/
theorem one_list_of_expected {stage : Stage} {role : Role} {traces : Traces}
    (h : expected stage role = some traces) (hknown : stage.known = true) :
    (traces.pending = 1 ∧ traces.transports = 0) ∨
      (traces.pending = 0 ∧ traces.transports = 1) := by
  cases stage <;> cases role <;> simp [expected, Stage.known] at h hknown <;> simp [← h]

theorem Fits.mem_lists (h : Fits st t) (hknown : (st.stage t).known = true) :
    t ∈ st.pendingList ++ st.transportList := by
  rw [List.mem_append, ← List.count_pos_iff, ← List.count_pos_iff]
  rcases one_list_of_expected h hknown with ⟨hpending, -⟩ | ⟨-, htransports⟩
  · exact .inl (Nat.lt_of_lt_of_eq Nat.one_pos hpending.symm)
  · exact .inr (Nat.lt_of_lt_of_eq Nat.one_pos htransports.symm)

theorem Fits.known_of_mem (h : Fits st t) (hmem : t ∈ st.pendingList ++ st.transportList) :
    (st.stage t).known = true := by
  have htable : ∀ stage role traces, expected stage role = some traces →
      0 < traces.pending ∨ 0 < traces.transports → stage.known = true := by
    rintro (_ | _ | _ | _ | _ | _ | _ | _ | _) (_ | _ | _ | _) traces htraces hpos <;>
      cases htraces <;> simp_all [Stage.known]
  rw [List.mem_append] at hmem
  exact htable _ _ _ h (hmem.imp List.count_pos_iff.mpr List.count_pos_iff.mpr)

theorem consistent_listSocket (h : Consistent st) (hcreated : st.stage t = .created)
    {serial : Bytes} (hserial : (st.heap t).serial = some serial)
    (hnew : st.serialInUse serial = false) :
    Consistent ({ st with pendingList := t :: st.pendingList }.setStage t .listed) := by
  apply consistent_list h hcreated
  intro _ t' _ hknown _ hequal
  rw [Registry.serialInUse, List.any_eq_false] at hnew
  apply hnew t' ((h.fits t').mem_lists hknown)
  rw [← hequal, hserial]
  exact decide_eq_true rfl

theorem role_self : (MainPhase.moving t).role t = .moving ∧
    (MainPhase.removing t).role t = .removing ∧ (MainPhase.deleting t).role t = .deleting := by
  simp [MainPhase.role]

theorem role_of_idle (h : st.main = .idle) : st.main.role t = .absent := by
  rw [h]
  rfl

theorem role_of_ne {t' : TransportRef} (h : t' ≠ t) :
    (MainPhase.moving t).role t' = .absent ∧ (MainPhase.removing t).role t' = .absent ∧
      (MainPhase.deleting t).role t' = .absent := by
  simp [MainPhase.role, h.symm]

theorem stage_of_register {stage : Stage} {role : Role} {traces : Traces}
    (h : expected stage role = some traces) (hpos : 0 < traces.registers) :
    stage = .announced := by
  cases stage <;> cases role <;> simp [expected] at h <;> simp [← h] at hpos
  rfl

theorem stage_of_remove {stage : Stage} {role : Role} {traces : Traces}
    (h : expected stage role = some traces) (hpos : 0 < traces.removes) :
    stage = .removalSent := by
  cases stage <;> cases role <;> simp [expected] at h <;> simp [← h] at hpos <;> rfl

theorem consistent_receive_remove (h : Consistent st) (hidle : st.main = .idle)
    {pipe : List Message} (hpipe : st.pipe = .remove t :: pipe) :
    Consistent { st with pipe := pipe, main := .removing t } := by
  have hsent : st.stage t = .removalSent := by
    apply stage_of_remove (h.fits t)
    apply List.count_pos_iff.mpr
    rw [hpipe]
    exact List.mem_cons_self
  apply h.progress
  · intro t' hne
    refine ⟨rfl, ?_, ?_⟩
    · rw [hidle]
      exact (role_of_ne hne).2.1
    · simp [Registry.traces, hpipe, hne.symm]
  · refine (h.fits t).advance (fun traces => { traces with removes := traces.removes - 1 })
      hsent hsent (role_of_idle hidle) role_self.2.1 ?_ ?_
    · simp [Registry.traces, hpipe]
    · intro traces htraces
      cases htraces
      rfl
  · exact h.accessible t
  · exact id
  · rfl
  · rfl

theorem consistent_receive_register (h : Consistent st) (hidle : st.main = .idle)
    {pipe : List Message} (hpipe : st.pipe = .register t :: pipe) {a : Transport}
    (hkind : a.kind = (st.heap t).kind) (hserial : a.serial = (st.heap t).serial)
    (hstage : a.stage = .settled ∨ a.stage = .running ∧ a.noPerm = false) :
    Consistent ({ st with pipe := pipe, main := .moving t }.setTransport t a) := by
  have hannounced : st.stage t = .announced := by
    apply stage_of_register (h.fits t)
    apply List.count_pos_iff.mpr
    rw [hpipe]
    exact List.mem_cons_self
  apply h.progress
  · intro t' hne
    refine ⟨heap_setTransport_of_ne a hne, ?_, ?_⟩
    · rw [hidle]
      exact (role_of_ne hne).1
    · rw [traces_setTransport]
      simp [Registry.traces, hpipe, hne.symm]
  · refine (h.fits t).advance (fun traces => { traces with registers := traces.registers - 1 })
      hannounced (stage_setTransport_self a) (role_of_idle hidle) role_self.1 ?_ ?_
    · rw [traces_setTransport]
      simp [Registry.traces, hpipe]
    · intro traces htraces
      cases htraces
      rcases hstage with ha | ⟨ha, -⟩
      · rw [ha]
        rfl
      · rw [ha]
        rfl
  · rw [heap_setTransport_self]
    rcases hstage with ha | ⟨-, hperm⟩
    · rw [Accessible, ha]
      simp
    · exact fun _ => hperm
  · rw [hannounced]
    exact fun _ => rfl
  · rw [heap_setTransport_self, hkind]
  · rw [heap_setTransport_self, hserial]

theorem consistent_receive (h : Consistent st) (hidle : st.main = .idle) :
    Consistent st.receive := by
  rw [Registry.receive]
  cases hpipe : st.pipe with
  | nil => exact h
  | cons message pipe =>
      cases message with
      | remove t => exact consistent_receive_remove h hidle hpipe
      | register t =>
          apply consistent_receive_register h hidle hpipe
          · split
            · rfl
            · rfl
          · split
            · rfl
            · rfl
          · split
            · exact .inl rfl
            · rename_i hperm
              exact .inr ⟨rfl, Bool.not_eq_true _ ▸ hperm⟩

theorem count_filter_ne {t' : TransportRef} (l : List TransportRef) (h : t' ≠ t) :
    (l.filter (· ≠ t)).count t' = l.count t' :=
  List.count_filter (by simpa using h)

theorem count_filter_self (l : List TransportRef) : (l.filter (· ≠ t)).count t = 0 := by
  apply List.count_eq_zero_of_not_mem
  simp

theorem consistent_move (h : Consistent st) (hmain : st.main = .moving t) :
    Consistent { st with
      pendingList := st.pendingList.filter (· ≠ t)
      transportList := t :: st.transportList
      main := .idle } := by
  have hrole : st.main.role t = .moving := by
    rw [hmain]
    exact role_self.1
  apply h.progress
  · intro t' hne
    refine ⟨rfl, ?_, ?_⟩
    · rw [hmain]
      exact (role_of_ne hne).1.symm
    · rw [Registry.traces, Registry.traces, count_filter_ne _ hne, List.count_cons_of_ne hne.symm]
  · have htable : ∀ stage traces, expected stage .moving = some traces → expected stage .absent =
        some { traces with pending := 0, transports := traces.transports + 1 } := by
      rintro (_ | _ | _ | _ | _ | _ | _ | _ | _) traces htraces <;> cases htraces <;> rfl
    refine (h.fits t).advance
      (fun traces => { traces with pending := 0, transports := traces.transports + 1 })
      rfl rfl hrole rfl ?_ (htable (st.stage t))
    rw [Registry.traces, count_filter_self, List.count_cons_self]
    rfl
  · exact h.accessible t
  · exact id
  · rfl
  · rfl

theorem consistent_unlist (h : Consistent st) (hmain : st.main = .removing t) :
    Consistent ({ st with
      transportList := st.transportList.filter (· ≠ t)
      main := .deleting t }.setStage t .removed) := by
  have hrole : st.main.role t = .removing := by
    rw [hmain]
    exact role_self.2.1
  apply h.progress
  · intro t' hne
    refine ⟨heap_setTransport_of_ne _ hne, ?_, ?_⟩
    · rw [hmain]
      exact ((role_of_ne hne).2.2).trans (role_of_ne hne).2.1.symm
    · rw [traces_setStage, Registry.traces, Registry.traces, count_filter_ne _ hne]
  · refine (h.fits t).advance (fun traces => { traces with transports := 0 })
      rfl (stage_setStage_self .removed) hrole role_self.2.2 ?_ ?_
    · rw [traces_setStage, Registry.traces, count_filter_self]
      rfl
    · intro traces htraces
      cases hstage : st.stage t <;> rw [hstage] at htraces <;> cases htraces
      rfl
  · rw [heap_setStage_self]
    simp [Accessible]
  · rw [stage_setStage_self]
    intro hknown
    cases hknown
  · rw [heap_setStage_self]
  · rw [heap_setStage_self]

theorem consistent_delete (h : Consistent st) (hmain : st.main = .deleting t) :
    Consistent ({ st with main := .idle }.setStage t .free) := by
  have hrole : st.main.role t = .deleting := by
    rw [hmain]
    exact role_self.2.2
  apply h.progress
  · intro t' hne
    refine ⟨heap_setTransport_of_ne _ hne, ?_, rfl⟩
    rw [hmain]
    exact (role_of_ne hne).2.2.symm
  · refine (h.fits t).advance id rfl (stage_setStage_self .free) hrole rfl rfl ?_
    intro traces htraces
    cases hstage : st.stage t <;> rw [hstage] at htraces <;> cases htraces
    rfl
  · rw [heap_setStage_self]
    simp [Accessible]
  · rw [stage_setStage_self]
    intro hknown
    cases hknown
  · rw [heap_setStage_self]
  · rw [heap_setStage_self]

theorem Consistent.settled_of_unusable (h : Consistent st) {handle : Nat}
    (hmem : t ∈ st.transportList) (hunusable : st.isUnusable handle t = true) :
    st.stage t = .settled ∧ st.main.role t = .absent := by
  have hperm : (st.heap t).noPerm = true := by
    rw [Registry.isUnusable, Bool.and_eq_true] at hunusable
    exact hunusable.2
  have hthreads : ¬ (st.stage t = .running ∨ st.stage t = .closing ∨
      st.stage t = .removalSent) := by
    intro hstage
    rw [h.accessible t hstage] at hperm
    cases hperm
  have htable : ∀ stage role traces, expected stage role = some traces → 0 < traces.transports →
      ¬ (stage = .running ∨ stage = .closing ∨ stage = .removalSent) →
      stage = .settled ∧ role = .absent := by
    rintro (_ | _ | _ | _ | _ | _ | _ | _ | _) (_ | _ | _ | _) traces htraces hpos hnot <;>
      cases htraces <;> simp_all
  exact htable _ _ _ (h.fits t) (List.count_pos_iff.mpr hmem) hthreads

theorem consistent_unregisterUsb (h : Consistent st) (handle : Nat) :
    Consistent { st with
      transportList := st.transportList.filter fun t => !st.isUnusable handle t
      heap := fun t =>
        if t ∈ st.transportList ∧ st.isUnusable handle t then
          { st.heap t with stage := .removed }
        else st.heap t } where
  fits t := by
    rcases Decidable.em (t ∈ st.transportList ∧ st.isUnusable handle t = true) with hgone | hstays
    · obtain ⟨hsettled, hrole⟩ := h.settled_of_unusable hgone.1 hgone.2
      refine (h.fits t).advance (fun traces => { traces with transports := 0 }) hsettled
        (?_ : _ = Stage.removed) hrole hrole ?_ ?_
      · simp [Registry.stage, hgone]
      · simp [Registry.traces, List.count_eq_zero, hgone.2]
      · intro traces htraces
        cases htraces
        rfl
    · refine (h.fits t).of_same ⟨if_neg hstays, rfl, ?_⟩
      have hcount : (st.transportList.filter fun t => !st.isUnusable handle t).count t =
          st.transportList.count t := by
        rcases Decidable.em (t ∈ st.transportList) with hmem | hnot
        · apply List.count_filter
          simpa using fun hunusable => hstays ⟨hmem, hunusable⟩
        · rw [List.count_eq_zero_of_not_mem hnot, List.count_eq_zero_of_not_mem]
          exact fun hmem => hnot (List.mem_of_mem_filter hmem)
      rw [Registry.traces, hcount]
      rfl
  accessible t := by
    dsimp only
    split
    · simp [Accessible]
    · exact h.accessible t
  serials := by
    -- only a transport that stays is still registered
    have hstays : ∀ t, (Registry.stage { st with
        transportList := st.transportList.filter fun t => !st.isUnusable handle t
        heap := fun t =>
          if t ∈ st.transportList ∧ st.isUnusable handle t then
            { st.heap t with stage := .removed }
          else st.heap t } t).known = true →
        ¬ (t ∈ st.transportList ∧ st.isUnusable handle t = true) := by
      intro t hknown hgone
      simp [Registry.stage, hgone, Stage.known] at hknown
    intro t t' hknown hknown' hsocket hsocket' hequal
    have ht := hstays t hknown
    have ht' := hstays t' hknown'
    rw [Registry.stage] at hknown hknown'
    dsimp only at hknown hknown' hsocket hsocket' hequal
    rw [if_neg ht] at hknown hsocket hequal
    rw [if_neg ht'] at hknown' hsocket' hequal
    exact h.serials t t' hknown hknown' hsocket hsocket' hequal

theorem consistent_initial : Consistent .initial where
  fits _ := rfl
  accessible _ := by simp [Accessible, Registry.initial]
  serials := by
    intro t t' hknown
    cases hknown

theorem consistent_next (h : Consistent st) (pointerText : TransportRef → Bytes) {label : Label}
    (henabled : st.Enabled label) : Consistent (st.next pointerText label) := by
  cases label with
  | newSocket t serial => exact consistent_newTransport h henabled rfl
  | initFails t => exact consistent_discard h henabled.1
  | listSocket t =>
      rw [Registry.next]
      split
      · rename_i serial hserial
        split
        · exact consistent_discard h henabled.1
        · rename_i hnew
          exact consistent_listSocket h henabled.1 hserial (Bool.not_eq_true _ ▸ hnew)
      · exact h
  | newUsb t handle serial writeable => exact consistent_newTransport h henabled rfl
  | listUsb t =>
      apply consistent_list h henabled.1
      intro hsocket
      exact absurd hsocket henabled.2
  | announce t => exact consistent_announce h henabled
  | receive => exact consistent_receive h henabled.1
  | move =>
      obtain ⟨t, hmain⟩ := henabled
      rw [Registry.next, hmain]
      exact consistent_move h hmain
  | unlist =>
      obtain ⟨t, hmain⟩ := henabled
      rw [Registry.next, hmain]
      exact consistent_unlist h hmain
  | delete =>
      obtain ⟨t, hmain⟩ := henabled
      rw [Registry.next, hmain]
      exact consistent_delete h hmain
  | unref t =>
      have hrunning : (st.heap t).stage = .running := henabled
      rw [Registry.next]
      refine consistent_unref h henabled ?_ rfl rfl rfl
      dsimp only
      rw [hrunning]
      split
      · exact .inr rfl
      · exact .inl rfl
  | sendRemoval t => exact consistent_sendRemoval h henabled
  | unregisterUsb handle => exact consistent_unregisterUsb h handle

theorem consistent_of_reachable {pointerText : TransportRef → Bytes}
    (h : (registrySystem pointerText).Reachable st) : Consistent st := by
  apply h.invariant
  · rintro st rfl
    exact consistent_initial
  · intro st label hst henabled _
    exact consistent_next hst pointerText henabled

end

/-- In every interleaving a registered transport that was not removed is in
exactly one of the two lists, once, and two different socket transports in the
lists have different serials. -/
theorem registry_unique (pointerText : TransportRef → Bytes) (st : Registry)
    (h : (registrySystem pointerText).Reachable st) :
    (∀ t, (st.stage t).known = true →
        (st.pendingList.count t = 1 ∧ st.transportList.count t = 0) ∨
          (st.pendingList.count t = 0 ∧ st.transportList.count t = 1)) ∧
      ∀ t ∈ st.pendingList ++ st.transportList, ∀ t' ∈ st.pendingList ++ st.transportList,
        (st.heap t).kind = .socket → (st.heap t').kind = .socket →
          (st.heap t).serial = (st.heap t').serial → t = t' := by
  have hst := consistent_of_reachable h
  refine ⟨fun t => one_list_of_expected (hst.fits t), ?_⟩
  intro t hmem t' hmem' hsocket hsocket' hequal
  exact hst.serials t t' ((hst.fits t).known_of_mem hmem) ((hst.fits t').known_of_mem hmem')
    hsocket hsocket' hequal

/-- Two threads register a socket transport with one serial, and one of them
succeeds; its threads end before the main thread has moved it. -/
def racingRun : List Label :=
  [.newSocket 1 (some [49]), .newSocket 2 (some [49]), .listSocket 2, .listSocket 1, .announce 2,
    .receive, .unref 2, .unref 2, .sendRemoval 2]

theorem registry_unique_racing :
    ((registrySystem fun _ => []).execute .initial racingRun).pendingList.count 2 = 1 ∧
        ((registrySystem fun _ => []).execute .initial racingRun).transportList.count 2 = 0 ∨
      ((registrySystem fun _ => []).execute .initial racingRun).pendingList.count 2 = 0 ∧
        ((registrySystem fun _ => []).execute .initial racingRun).transportList.count 2 = 1 := by
  have hreach : (registrySystem fun _ => []).Reachable
      ((registrySystem fun _ => []).execute .initial racingRun) := by
    refine System.reachableWhen_execute ⟨.initial, rfl, .refl⟩ ?_
    exact ⟨⟨rfl, trivial⟩, ⟨rfl, trivial⟩, ⟨⟨rfl, rfl⟩, trivial⟩, ⟨⟨rfl, rfl⟩, trivial⟩,
      ⟨rfl, trivial⟩, ⟨⟨rfl, List.cons_ne_nil _ _⟩, trivial⟩, ⟨rfl, trivial⟩, ⟨rfl, trivial⟩,
      ⟨rfl, trivial⟩, trivial⟩
  exact (registry_unique (fun _ => []) _ hreach).1 2 rfl

end Adb.TransportRegistry
