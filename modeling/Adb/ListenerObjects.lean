import Adb.EventRegistry
import Adb.ListenerRegistration
import Adb.OwningRemoval

/-!
The listener objects of adb_listeners.cpp: the memory that a new one gets, the
fdevent and the descriptor that it owns, and its destructor.
-/

namespace Adb.ListenerObjects

open Adb.DescriptorIo
open Adb.EventInterest
open Adb.EventRegistry
open Adb.ListenerRegistration
open Adb.OwningRemoval
open Adb.ServerRuns
open Adb.ServerState
open Adb.SocketTable
open Adb.WirePackets

inductive InstallStatus where
  | ok
  | internalError
  | cannotBind
  | cannotRebind
  | listenerNotFound
  deriving DecidableEq, Repr

def fdeActive : UInt16 := 0x0100

def fdePending : UInt16 := 0x0200

def fdeCreated : UInt16 := 0x0400

def fdeDontClose : UInt16 := 0x0080

def hasBits (word mask : UInt16) : Bool := word &&& mask ≠ 0

def eventMask (word : UInt16) : EventMask :=
  ⟨hasBits word 0x0001, hasBits word 0x0002, hasBits word 0x0004, hasBits word fdeDontClose⟩

/-- The bytes where the member `fde` of a new `alistener` is.  The constructor
does not initialise it. -/
structure FdeMemory where
  fd : Int
  forceEof : Int
  state : UInt16
  events : UInt16
  deriving DecidableEq, Repr

/-- The `fdevent` as which these bytes are read; a negative number is never a
descriptor. -/
def FdeMemory.entry (memory : FdeMemory) : Entry where
  fd := if memory.fd < 0 then none else some memory.fd.toNat
  active := hasBits memory.state fdeActive
  created := hasBits memory.state fdeCreated
  fde :=
    { state := eventMask memory.state
      events := eventMask memory.events
      pending := hasBits memory.state fdePending
      forceEof := memory.forceEof ≠ 0 }
  generation := 0
  rearmed := false
  forced := false

/-- What `socket_spec_listen` does: it fails with a text, or opens a descriptor.
`resolved` is 0 unless port 0 was asked for. -/
inductive ListenResult where
  | failed (error : Bytes)
  | listening (fd resolved : Nat)
  deriving DecidableEq, Repr

/-- The server with its fdevents and its open descriptors.  `fdeOf` is the
address of the member `fde` of each listener. -/
structure Process where
  server : Server
  events : Registry
  isOpen : Nat → Bool
  fdeOf : ListenerRef → FdeventRef

/-- What `install_listener` returns, and what it writes to its out parameters. -/
structure InstallResult where
  status : InstallStatus
  error : Option Bytes
  resolvedTcpPort : Option Nat
  process : Process

namespace Process

/-- `adb_close`, which fails for a number that is not open. -/
def adbClose (st : Process) : Option Nat → Process
  | none => st
  | some fd => { st with isOpen := Function.update st.isOpen fd false }

/-- `fdevent_remove` with its `adb_close`. -/
def fdeventRemove (st : Process) (f : FdeventRef) : Process :=
  let a := st.events.heap f
  let st := { st with events := st.events.fdeventRemove f }
  if a.active && !a.fde.state.dontClose then st.adbClose a.fd else st

/-- `~alistener`. -/
def destroyListener (st : Process) (l : Alistener) : Process :=
  let st := st.fdeventRemove (st.fdeOf l.ref)
  { st with server := forget st.server l }

/-- `fdevent_install` and `fdevent_set` for a new listener; installing a
descriptor that is in the poll map fails a `CHECK`. -/
def watch (events : Registry) (f : FdeventRef) (fd : Nat) : Registry :=
  if (events.nodes fd).isSome then events.halt
  else (events.fdeventInstall f fd).fdeventSet f .fdeRead

/-- `install_listener`; `listen` is the result of `socket_spec_listen`, and
`memory` the content of the memory that `new` returns. -/
def installListener (memory : FdeMemory) (listen : ListenResult) (st : Process)
    (localName connectTo : Bytes) (transport : Option TransportRef) (noRebind : Bool) :
    InstallResult :=
  match st.server.listeners.find? (·.localName = localName) with
  | some l =>
      if isSpecial l then ⟨.internalError, some (ascii "cannot repurpose smartsocket"), none, st⟩
      else if noRebind then ⟨.cannotRebind, some (ascii "cannot rebind"), none, st⟩
      else ⟨.ok, none, none, { st with server := rebindTo st.server l connectTo transport }⟩
  | none =>
      let f := st.fdeOf st.server.nextListener
      let st := { st with events := st.events.modify f fun _ => memory.entry }
      match listen with
      | .failed error =>
          ⟨.cannotBind, some error, none,
            st.destroyListener ⟨st.server.nextListener, localName, connectTo, none⟩⟩
      | .listening fd resolved =>
          ⟨.ok, none, if resolved = 0 then none else some resolved,
            { st with
              server := addListener { listen := some resolved } st.server localName connectTo
                transport
              events := watch st.events f fd
              isOpen := Function.update st.isOpen fd true }⟩

/-- `close_smartsockets`: the list of pointers that it leaves, and the process after
the destructors.  The name that is compared is not that of the service, and only
one iterator is erased. -/
def closeSmartsockets (st : Process) : Option (List (Option Alistener) × Process) :=
  match (removeIf (·.localName = smartsocketTarget) st.server.listeners).erase with
  | none => none
  | some (entries, deleted) =>
      let st := { st with server := { st.server with listeners := entries.reduceOption } }
      some (entries, deleted.foldl destroyListener st)

/-- The descriptor that the destructor of a listener closes. -/
def ownedFd (st : Process) (l : Alistener) : Option Nat :=
  let a := st.events.heap (st.fdeOf l.ref)
  if a.active && !a.fde.state.dontClose then a.fd else none

end Process

/-- `close_smartsockets` is defined, it removes exactly the listeners of the smart
sockets, and exactly their descriptors are closed. -/
def ClosesSmartsockets (st : Process) : Prop :=
  ∃ st', st.closeSmartsockets =
      some ((st.server.listeners.filter (·.connectTo ≠ smartsocketTarget)).map some, st') ∧
    ∀ fd, st'.isOpen fd = true ↔ st.isOpen fd = true ∧
      ∀ l ∈ st.server.listeners, l.connectTo = smartsocketTarget → st.ownedFd l ≠ some fd

/-- There is one listener of the smart sockets, it is the first that has their
name as its own, and the others that have it stand at the end of the list. -/
def OneSmartsocket (listeners : List Alistener) : Prop :=
  ∃ front l between rest, listeners = front ++ l :: (between ++ rest) ∧
    l.localName = smartsocketTarget ∧ l.connectTo = smartsocketTarget ∧
    (∀ m ∈ front ++ between, m.localName ≠ smartsocketTarget) ∧
    (∀ m ∈ rest, m.localName = smartsocketTarget) ∧
    ∀ m ∈ front ++ (between ++ rest), m.connectTo ≠ smartsocketTarget

def ListenResult.port : ListenResult → Option Nat
  | .failed _ => none
  | .listening _ resolved => some resolved

/-- A call that fails has not changed the listeners, the poll map, the pending
list and the disconnects of a transport, and it has closed nothing. -/
def FailureLeavesNoTrace (memory : FdeMemory) (listen : ListenResult) (st : Process)
    (localName connectTo : Bytes) (transport : Option TransportRef) (noRebind : Bool) : Prop :=
  let result := st.installListener memory listen localName connectTo transport noRebind
  result.status ≠ .ok →
    result.process.server.listeners = st.server.listeners ∧
      result.process.events.nodes = st.events.nodes ∧
      result.process.events.pending = st.events.pending ∧
      (∀ t, (result.process.server.transports t).disconnects =
        (st.server.transports t).disconnects) ∧
      ∀ fd, st.isOpen fd = true → result.process.isOpen fd = true

/-- The memory of the next listener reads as an active fdevent, and its
descriptor or its address is in use. -/
def ReadsAsInstalled (memory : FdeMemory) (st : Process) : Prop :=
  hasBits memory.state fdeActive = true ∧
    ((0 ≤ memory.fd ∧ (st.events.nodes memory.fd.toNat ≠ none ∨
        hasBits memory.state fdeDontClose = false ∧ st.isOpen memory.fd.toNat = true)) ∨
      hasBits memory.state fdePending = true ∧
        st.fdeOf st.server.nextListener ∈ st.events.pending)

section

variable {memory : FdeMemory} {listen : ListenResult} {st : Process} {localName connectTo : Bytes}
  {transport : Option TransportRef} {noRebind : Bool}

open Process

theorem fdeventRemove_effects (st : Process) (f : FdeventRef) :
    let a := st.events.heap f
    (st.fdeventRemove f).server = st.server ∧
      (st.fdeventRemove f).events.nodes =
        (if a.active then Registry.erase st.events.nodes a.fd else st.events.nodes) ∧
      (st.fdeventRemove f).events.pending =
        (if a.active && a.fde.pending then st.events.pending.filter (· ≠ f)
          else st.events.pending) ∧
      ∀ fd, (st.fdeventRemove f).isOpen fd =
        (st.isOpen fd && !(a.active && !a.fde.state.dontClose && a.fd = some fd)) := by
  rw [Process.fdeventRemove, Registry.fdeventRemove]
  cases hactive : (st.events.heap f).active with
  | false => simp [hactive]
  | true =>
      cases hclose : (st.events.heap f).fde.state.dontClose with
      | true => simp [hactive, hclose]
      | false =>
          cases hfd : (st.events.heap f).fd with
          | none => simp [hactive, hfd, adbClose]
          | some fd =>
              have hopen : ∀ fd', Function.update st.isOpen fd false fd' =
                  (st.isOpen fd' && !decide (fd = fd')) := by
                intro fd'
                rcases eq_or_ne fd' fd with rfl | hne
                · simp
                · simp [hne, hne.symm]
              simp [hactive, hclose, hfd, adbClose, hopen]

/-- The call for a new name when nothing can listen on it: only the destructor of
the half-built listener runs, which has no transport yet. -/
theorem installListener_cannotBind (memory : FdeMemory) (error : Bytes)
    (h : st.server.listeners.find? (·.localName = localName) = none) :
    st.installListener memory (.failed error) localName connectTo transport noRebind =
      ⟨.cannotBind, some error, none,
        Process.fdeventRemove
          { st with
            events := st.events.modify (st.fdeOf st.server.nextListener) fun _ => memory.entry }
          (st.fdeOf st.server.nextListener)⟩ := by
  rw [Process.installListener, h]
  rfl

theorem installListener_server (memory : FdeMemory) (listen : ListenResult) (st : Process)
    (localName connectTo : Bytes) (transport : Option TransportRef) (noRebind : Bool) :
    (st.installListener memory listen localName connectTo transport noRebind).process.server =
      installListenerOn { listen := listen.port } st.server localName connectTo transport
        noRebind := by
  rw [installListenerOn]
  cases hfind : st.server.listeners.find? (·.localName = localName) with
  | none =>
      cases listen with
      | failed error =>
          rw [installListener_cannotBind memory error hfind]
          exact (fdeventRemove_effects _ _).1
      | listening fd resolved =>
          rw [Process.installListener, hfind]
          rfl
  | some l =>
      rw [Process.installListener, hfind]
      cases hspecial : isSpecial l with
      | true => simp [hspecial]
      | false =>
          cases noRebind with
          | true => simp [hspecial]
          | false => simp [hspecial]

theorem erase_eq_self {nodes : Nat → Option PollNode} {fd : Option Nat} :
    Registry.erase nodes fd = nodes ↔ ∀ n, fd = some n → nodes n = none := by
  cases fd with
  | none => simp [Registry.erase]
  | some n =>
      rw [Registry.erase, Function.update_eq_self_iff]
      simp [eq_comm]

theorem entry_fd_eq (memory : FdeMemory) (n : Nat) :
    memory.entry.fd = some n ↔ 0 ≤ memory.fd ∧ memory.fd.toNat = n := by
  rw [FdeMemory.entry]
  dsimp only
  split
  · simp; omega
  · simp; omega

/-- An fdevent is removed without a trace exactly when it is not active, or its
descriptor and its address are not in use. -/
theorem fdeventRemove_harmless_iff (st : Process) (f : FdeventRef) :
    let a := st.events.heap f
    ((st.fdeventRemove f).events.nodes = st.events.nodes ∧
        (st.fdeventRemove f).events.pending = st.events.pending ∧
        ∀ fd, st.isOpen fd = true → (st.fdeventRemove f).isOpen fd = true) ↔
      ¬ (a.active = true ∧
        ((∃ fd, a.fd = some fd ∧
            (st.events.nodes fd ≠ none ∨ a.fde.state.dontClose = false ∧ st.isOpen fd = true)) ∨
          a.fde.pending = true ∧ f ∈ st.events.pending)) := by
  obtain ⟨-, hnodes, hpending, hopen⟩ := fdeventRemove_effects st f
  dsimp only at hnodes hpending hopen ⊢
  rw [hnodes, hpending]
  simp only [hopen]
  generalize st.events.heap f = a
  cases hactive : a.active with
  | false => simp
  | true =>
      have hfilter : (if (true && a.fde.pending) = true then st.events.pending.filter (· ≠ f)
          else st.events.pending) = st.events.pending ↔
            ¬ (a.fde.pending = true ∧ f ∈ st.events.pending) := by
        cases a.fde.pending with
        | false => simp
        | true =>
            simp only [Bool.and_self, if_true, List.filter_eq_self, true_and, decide_eq_true_eq]
            constructor
            · intro h hmem
              exact h f hmem rfl
            · rintro h g hmem rfl
              exact h hmem
      rw [if_pos rfl, erase_eq_self, hfilter]
      constructor
      · rintro ⟨hn, hp, ho⟩ ⟨-, ⟨fd, hfd, hnode | ⟨hclose, hfdOpen⟩⟩ | hpend⟩
        · exact hnode (hn fd hfd)
        · simpa [hfdOpen, hclose, hfd] using ho fd hfdOpen
        · exact hp hpend
      · intro h
        refine ⟨?_, ?_, ?_⟩
        · intro fd hfd
          apply Classical.byContradiction
          intro hnode
          exact h ⟨rfl, .inl ⟨fd, hfd, .inl hnode⟩⟩
        · exact fun hpend => h ⟨rfl, .inr hpend⟩
        · intro fd hfdOpen
          cases hclose : a.fde.state.dontClose with
          | true => simpa using hfdOpen
          | false =>
              have hne : a.fd ≠ some fd := fun hfd =>
                h ⟨rfl, .inl ⟨fd, hfd, .inr ⟨hclose, hfdOpen⟩⟩⟩
              simp [hfdOpen, hne]

theorem destroy_uninstalled_iff (memory : FdeMemory) (st : Process) :
    let f := st.fdeOf st.server.nextListener
    let st' := Process.fdeventRemove
      { st with events := st.events.modify f fun _ => memory.entry } f
    (st'.events.nodes = st.events.nodes ∧ st'.events.pending = st.events.pending ∧
        ∀ fd, st.isOpen fd = true → st'.isOpen fd = true) ↔ ¬ ReadsAsInstalled memory st := by
  have h := fdeventRemove_harmless_iff
    { st with
      events := st.events.modify (st.fdeOf st.server.nextListener) fun _ => memory.entry }
    (st.fdeOf st.server.nextListener)
  have hheap : (st.events.modify (st.fdeOf st.server.nextListener) fun _ => memory.entry).heap
      (st.fdeOf st.server.nextListener) = memory.entry := Function.update_self _ _ _
  dsimp only at h ⊢
  rw [hheap] at h
  apply h.trans
  rw [not_iff_not, ReadsAsInstalled]
  apply and_congr Iff.rfl
  apply or_congr _ Iff.rfl
  simp only [entry_fd_eq]
  constructor
  · rintro ⟨fd, ⟨hfd, rfl⟩, hused⟩
    exact ⟨hfd, hused⟩
  · rintro ⟨hfd, hused⟩
    exact ⟨_, ⟨hfd, rfl⟩, hused⟩

end

/-- A failed installation leaves no trace exactly when it is not the destructor
of a half-built listener that finds an installed fdevent in its memory. -/
theorem install_failure_traceless_iff (memory : FdeMemory) (listen : ListenResult) (st : Process)
    (localName connectTo : Bytes) (transport : Option TransportRef) (noRebind : Bool) :
    FailureLeavesNoTrace memory listen st localName connectTo transport noRebind ↔
      ¬ ((∀ l ∈ st.server.listeners, l.localName ≠ localName) ∧
        (∃ error, listen = .failed error) ∧ ReadsAsInstalled memory st) := by
  rw [FailureLeavesNoTrace]
  cases hfind : st.server.listeners.find? (·.localName = localName) with
  | some l =>
      have hused : ¬ ∀ l ∈ st.server.listeners, l.localName ≠ localName := by
        intro h
        have hname := List.find?_some hfind
        exact h l (List.mem_of_find?_eq_some hfind) (of_decide_eq_true hname)
      refine ⟨fun _ h => hused h.1, fun _ => ?_⟩
      rw [Process.installListener, hfind]
      dsimp only
      split
      · exact fun _ => ⟨rfl, rfl, rfl, fun _ => rfl, fun _ => id⟩
      · split
        · exact fun _ => ⟨rfl, rfl, rfl, fun _ => rfl, fun _ => id⟩
        · exact fun h => absurd rfl h
  | none =>
      cases listen with
      | listening fd resolved =>
          constructor
          · rintro - ⟨-, ⟨error, herror⟩, -⟩
            cases herror
          · intro _ hstatus
            rw [Process.installListener, hfind] at hstatus
            exact absurd rfl hstatus
      | failed error =>
          have hunused : ∀ l ∈ st.server.listeners, l.localName ≠ localName := by
            intro l hl hname
            exact List.find?_eq_none.mp hfind l hl (decide_eq_true hname)
          have hserver := (fdeventRemove_effects
            { st with
              events := st.events.modify (st.fdeOf st.server.nextListener) fun _ => memory.entry }
            (st.fdeOf st.server.nextListener)).1
          rw [installListener_cannotBind memory error hfind]
          dsimp only at hserver ⊢
          rw [hserver]
          constructor
          · intro h hinstalled
            obtain ⟨-, hnodes, hpending, -, hopen⟩ := h (by decide)
            exact (destroy_uninstalled_iff memory st).mp ⟨hnodes, hpending, hopen⟩ hinstalled.2.2
          · intro h _
            obtain ⟨hnodes, hpending, hopen⟩ := (destroy_uninstalled_iff memory st).mpr
              fun hinstalled => h ⟨hunused, ⟨error, rfl⟩, hinstalled⟩
            exact ⟨rfl, hnodes, hpending, fun _ => rfl, hopen⟩

/-- A process before it installs anything. -/
def Process.initial : Process where
  server := .initial
  events := EventRegistry.initial
  isOpen := fun _ => false
  fdeOf := id

/-- Memory of zeros, and memory in which there was an fdevent for descriptor 5. -/
def clearedMemory : FdeMemory := ⟨0, 0, 0, 0⟩

def usedMemory : FdeMemory := ⟨5, 0, 0x0101, 0⟩

/-- The server listens for its clients on descriptor 5. -/
def listeningProcess : Process :=
  (Process.initial.installListener clearedMemory (.listening 5 0) (ascii "tcp:5037")
    smartsocketTarget none false).process

/-- A forward to a port that is taken removes the listener of the clients from
the poll map and closes its descriptor. -/
theorem install_failure_closes_smartsocket :
    ¬ ∀ (memory : FdeMemory) (listen : ListenResult) (st : Process) (localName connectTo : Bytes)
      (transport : Option TransportRef) (noRebind : Bool),
      FailureLeavesNoTrace memory listen st localName connectTo transport noRebind := by
  intro h
  have hfailed := h usedMemory (.failed (ascii "cannot bind")) listeningProcess (ascii "tcp:8000")
    (ascii "tcp:9000") (some 1) false (by decide)
  have hclosed := hfailed.2.2.2.2 5 (by decide)
  revert hclosed
  decide

theorem oneSmartsocket_iff (listeners : List Alistener) :
    OneSmartsocket listeners ↔ ∃ l, SingleMatch (·.localName = smartsocketTarget)
      (·.connectTo = smartsocketTarget) listeners l := by
  simp only [OneSmartsocket, SingleMatch, decide_eq_true_eq, decide_eq_false_iff_not]
  constructor
  · rintro ⟨front, l, between, rest, hlist, hname, htarget, hother, hrest, hstay⟩
    exact ⟨l, front, between, rest, hlist, hother, hname, hrest, htarget, hstay⟩
  · rintro ⟨l, front, between, rest, hlist, hother, hname, hrest, htarget, hstay⟩
    exact ⟨front, l, between, rest, hlist, hname, htarget, hother, hrest, hstay⟩

theorem isOpen_destroyListener (st : Process) (l : Alistener) (fd : Nat) :
    (st.destroyListener l).isOpen fd = true ↔ st.isOpen fd = true ∧ st.ownedFd l ≠ some fd := by
  have hopen := (fdeventRemove_effects st (st.fdeOf l.ref)).2.2.2 fd
  rw [Process.destroyListener, Process.ownedFd]
  dsimp only at hopen ⊢
  rw [hopen]
  cases (st.events.heap (st.fdeOf l.ref)).active &&
      !(st.events.heap (st.fdeOf l.ref)).fde.state.dontClose with
  | false => simp
  | true => simp

/-- `close_smartsockets` does what it is for exactly when one listener is to be
removed and its own name is that of the smart sockets. -/
theorem close_smartsockets_iff (st : Process) :
    ClosesSmartsockets st ↔ OneSmartsocket st.server.listeners := by
  rw [ClosesSmartsockets, oneSmartsocket_iff, Process.closeSmartsockets]
  constructor
  · rintro ⟨st', hresult, -⟩
    split at hresult
    · cases hresult
    · rename_i entries deleted herase
      obtain ⟨rfl, -⟩ := Prod.mk.inj (Option.some.inj hresult)
      simp only [decide_not] at herase
      exact singleMatch_of_erase_removeIf herase
  · rintro ⟨l, hsingle⟩
    have herase := erase_removeIf_of_singleMatch hsingle
    obtain ⟨front, between, rest, hlist, -, -, -, htarget, hstay⟩ := hsingle
    have honly : ∀ m ∈ st.server.listeners, m.connectTo = smartsocketTarget ↔ m = l := by
      intro m hm
      constructor
      · intro hm'
        rw [hlist, List.mem_append, List.mem_cons] at hm
        rcases hm with hm | rfl | hm
        · have hother := hstay m (List.mem_append_left _ hm)
          exact absurd hm' (of_decide_eq_false hother)
        · rfl
        · have hother := hstay m (List.mem_append_right _ hm)
          exact absurd hm' (of_decide_eq_false hother)
      · rintro rfl
        exact of_decide_eq_true htarget
    have hmem : l ∈ st.server.listeners := by
      rw [hlist]
      exact List.mem_append_right _ List.mem_cons_self
    simp only [← decide_not] at herase
    rw [herase]
    refine ⟨_, rfl, ?_⟩
    intro fd
    rw [List.foldl_cons, List.foldl_nil, isOpen_destroyListener]
    apply and_congr Iff.rfl
    constructor
    · intro howned m hm hm'
      rw [(honly m hm).mp hm']
      exact howned
    · intro howned
      exact howned l hmem ((honly l hmem).mpr rfl)

/-- The listener of the clients has the name of its port, so nothing matches and
the end of the list is erased. -/
theorem close_smartsockets_undefined : ¬ ∀ st : Process, ClosesSmartsockets st := by
  intro h
  obtain ⟨st', hresult, -⟩ := h listeningProcess
  have hundefined : listeningProcess.closeSmartsockets = none := rfl
  rw [hundefined] at hresult
  cases hresult

end Adb.ListenerObjects
