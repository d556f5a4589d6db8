import Adb.TransportRegistry

/-!
`local_transports`, transport_local.cpp: the table of the emulators, which
`register_socket_transport` fills before it puts the transport into the lists of
transport.cpp, and which only a kick clears.
-/

namespace Adb.EmulatorSlots

open Adb.DescriptorIo
open Adb.SocketTable
open Adb.TransitionSystems
open Adb.TransportRegistry

/-- `ADB_LOCAL_TRANSPORT_MAX`. -/
abbrev adbLocalTransportMax : Nat := 16

inductive Thread where
  | reader
  | writer
  deriving DecidableEq, Repr

/-- A thread of a transport calls `kick_transport` when its loop is left, and
then drops its reference. -/
inductive Phase where
  | pumping
  | leaving
  | gone
  deriving DecidableEq, Repr

/-- The registry with `local_transports`, and of each transport
`local_port_for_emulator_`, `kicked_`, and where its threads stand. -/
structure Tables where
  registry : Registry
  localTransports : Fin adbLocalTransportMax → Option TransportRef
  localPort : TransportRef → Int
  kicked : TransportRef → Bool
  threads : TransportRef → Thread → Phase

inductive Label where
  | initSocket (t : TransportRef) (serial : Option Bytes) (port : Int) (isLocal : Bool)
  | listSocket (t : TransportRef)
  | registry (label : TransportRegistry.Label)
  | leave (t : TransportRef) (thread : Thread)
  | unref (t : TransportRef) (thread : Thread)
  | kick (t : TransportRef)
  deriving DecidableEq, Repr

namespace Tables

/-- `new atransport()`, as far as these fields go. -/
def construct (st : Tables) (t : TransportRef) : Tables :=
  { st with
    localPort := Function.update st.localPort t (-1)
    kicked := Function.update st.kicked t false
    threads := Function.update st.threads t fun _ => .pumping }

def setThread (st : Tables) (t : TransportRef) (thread : Thread) (phase : Phase) : Tables :=
  { st with
    threads := Function.update st.threads t (Function.update (st.threads t) thread phase) }

/-- `find_emulator_transport_by_adb_port_locked`. -/
def findEmulatorTransport (st : Tables) (adbPort : Int) : Option TransportRef :=
  (List.finRange adbLocalTransportMax).findSome? fun i =>
    (st.localTransports i).filter fun t => st.localPort t ≠ -1 && st.localPort t = adbPort

/-- `get_available_local_transport_index_locked`. -/
def getAvailableIndex (st : Tables) : Option (Fin adbLocalTransportMax) :=
  (List.finRange adbLocalTransportMax).find? fun i => st.localTransports i = none

/-- The part of `init_socket_transport` that can fail. -/
def initSocketTransport (st : Tables) (t : TransportRef) (adbPort : Int) (isLocal : Bool) :
    Int × Tables :=
  if isLocal then
    let st := { st with localPort := Function.update st.localPort t adbPort }
    if (st.findEmulatorTransport adbPort).isSome then (-1, st)
    else
      match st.getAvailableIndex with
      | none => (-1, st)
      | some index =>
          (0, { st with localTransports := Function.update st.localTransports index (some t) })
  else (0, st)

section

variable (pointerText : TransportRef → Bytes)

def advance (st : Tables) (label : TransportRegistry.Label) : Tables :=
  { st with registry := st.registry.next pointerText label }

/-- `register_socket_transport` up to the end of `init_socket_transport`. -/
def initSocket (st : Tables) (t : TransportRef) (serial : Option Bytes) (port : Int)
    (isLocal : Bool) : Int × Tables :=
  let st := (st.construct t).advance pointerText (.newSocket t serial)
  let (fail, st) := st.initSocketTransport t port isLocal
  if fail < 0 then (-1, st.advance pointerText (.initFails t)) else (0, st)

/-- The comparison with the serials in the lists. -/
def serialTaken (st : Tables) (t : TransportRef) : Bool :=
  ((st.registry.heap t).serial.map st.registry.serialInUse).getD false

def registerSocketTransport (st : Tables) (t : TransportRef) (serial : Option Bytes)
    (port : Int) (isLocal : Bool) : Int × Tables :=
  let (fail, st) := st.initSocket pointerText t serial port isLocal
  if fail < 0 then (-1, st)
  else
    let listed := st.advance pointerText (.listSocket t)
    if st.serialTaken t then (-1, listed)
    else (0, listed.advance pointerText (.announce t))

/-- `remote_kick` on the table. -/
def clearSlot (st : Tables) (t : TransportRef) : Tables :=
  match (List.finRange adbLocalTransportMax).find? fun i => st.localTransports i = some t with
  | none => st
  | some i => { st with localTransports := Function.update st.localTransports i none }

/-- `Kick`; the table is only touched by the kick function of sockets. -/
def kickOne (st : Tables) (t : TransportRef) : Tables :=
  if st.kicked t then st
  else
    let st := { st with kicked := Function.update st.kicked t true }
    if (st.registry.heap t).kind = .socket then st.clearSlot t else st

/-- `kick_transport`, which kicks a transport of `transport_list` only. -/
def kickTransport (st : Tables) (t : TransportRef) : Tables :=
  if t ∈ st.registry.transportList then st.kickOne t else st

/-- One step of a thread. -/
def next (st : Tables) : Label → Tables
  | .initSocket t serial port isLocal => (st.initSocket pointerText t serial port isLocal).2
  | .listSocket t => st.advance pointerText (.listSocket t)
  | .registry (.newUsb t handle serial writeable) =>
      (st.construct t).advance pointerText (.newUsb t handle serial writeable)
  | .registry label => st.advance pointerText label
  | .leave t thread => (st.kickTransport t).setThread t thread .leaving
  | .unref t thread => (st.advance pointerText (.unref t)).setThread t thread .gone
  | .kick t => st.kickTransport t

end

/-- The steps of the registry that this module does not refine. -/
def isPlain : TransportRegistry.Label → Bool
  | .newSocket _ _ | .initFails _ | .listSocket _ | .unref _ => false
  | _ => true

/-- The write thread ends by what the main thread sends to it, which it does only
after it has moved the transport to `transport_list`. -/
def Enabled (st : Tables) : Label → Prop
  | .initSocket t _ _ _ => st.registry.stage t = .free
  | .listSocket t => st.registry.Enabled (.listSocket t)
  | .registry label => isPlain label = true ∧ st.registry.Enabled label
  | .leave t thread => st.registry.stage t = .running ∧ st.threads t thread = .pumping ∧
      (thread = .writer → t ∈ st.registry.transportList)
  | .unref t thread => st.registry.Enabled (.unref t) ∧ st.threads t thread = .leaving
  | .kick _ => True

def initial : Tables where
  registry := .initial
  localTransports := fun _ => none
  localPort := fun _ => -1
  kicked := fun _ => false
  threads := fun _ _ => .pumping

end Tables

def tableSystem (pointerText : TransportRef → Bytes) : System Tables Label where
  initial st := st = .initial
  enabled := Tables.Enabled
  next := Tables.next pointerText

/-- A call that fails has changed none of the three tables. -/
def LeavesNoTrace (pointerText : TransportRef → Bytes) (st : Tables) (t : TransportRef)
    (serial : Option Bytes) (port : Int) (isLocal : Bool) : Prop :=
  (st.registerSocketTransport pointerText t serial port isLocal).1 = -1 →
    let st' := (st.registerSocketTransport pointerText t serial port isLocal).2
    st'.registry.pendingList = st.registry.pendingList ∧
      st'.registry.transportList = st.registry.transportList ∧
      st'.localTransports = st.localTransports

/-- The call gets a slot: it is for an emulator, its port is not registered, and
there is a free one. -/
def TakesSlot (st : Tables) (t : TransportRef) (port : Int) (isLocal : Bool) : Prop :=
  let st := { st with localPort := Function.update st.localPort t port }
  isLocal = true ∧ st.findEmulatorTransport port = none ∧ st.getAvailableIndex ≠ none

/-- What keeps the table clean: a registration that has a slot is not refused for
its serial. -/
def Orderly (st : Tables) : Label → Prop
  | .listSocket t => (∃ i, st.localTransports i = some t) → st.serialTaken t = false
  | _ => True

section

variable {pointerText : TransportRef → Bytes} {st : Tables} {t : TransportRef}
  {serial : Option Bytes} {port : Int} {isLocal : Bool}

open Tables

theorem initSocket_cases (pointerText : TransportRef → Bytes) (st : Tables) (t : TransportRef)
    (serial : Option Bytes) (port : Int) (isLocal : Bool) :
    let result := st.initSocket pointerText t serial port isLocal
    let registry := st.registry.next pointerText (.newSocket t serial)
    (TakesSlot st t port isLocal ∧ result.1 = 0 ∧ result.2.registry = registry ∧
      ∃ i, st.localTransports i = none ∧
        result.2.localTransports = Function.update st.localTransports i (some t)) ∨
    (¬ TakesSlot st t port isLocal ∧ result.1 = 0 ∧ result.2.registry = registry ∧
      result.2.localTransports = st.localTransports) ∨
    (¬ TakesSlot st t port isLocal ∧ result.1 = -1 ∧
      result.2.registry = registry.next pointerText (.initFails t) ∧
      result.2.localTransports = st.localTransports) := by
  cases isLocal with
  | false => exact .inr (.inl ⟨fun h => Bool.false_ne_true h.1, rfl, rfl, rfl⟩)
  | true =>
      have hport : Function.update (Function.update st.localPort t (-1)) t port =
          Function.update st.localPort t port := Function.update_idem _ _ _
      simp only [initSocket, initSocketTransport, TakesSlot, construct, advance, if_true, hport,
        findEmulatorTransport, getAvailableIndex, true_and]
      split
      · rename_i hexisting
        refine .inr (.inr ⟨?_, rfl, rfl, rfl⟩)
        intro h
        rw [h.1] at hexisting
        cases hexisting
      · rename_i hexisting
        have hnone := Option.not_isSome_iff_eq_none.mp hexisting
        split
        · rename_i hfull
          exact .inr (.inr ⟨fun h => h.2 hfull, rfl, rfl, rfl⟩)
        · rename_i i hfree
          refine .inl ⟨⟨hnone, fun h => nomatch h.symm.trans hfree⟩, rfl, rfl, i, ?_, rfl⟩
          have hi := List.find?_some hfree
          exact of_decide_eq_true hi

theorem serialTaken_of_fresh {st' : Tables}
    (hfresh : t ∉ st.registry.pendingList ++ st.registry.transportList)
    (h : st'.registry = st.registry.next pointerText (.newSocket t serial)) :
    st'.serialTaken t = st.registry.serialInUse (serial.getD (pointerText t)) := by
  rw [serialTaken, h, Registry.next, heap_setTransport_self]
  simp only [Option.map_some, Option.getD_some, Registry.serialInUse]
  rw [Bool.eq_iff_iff, List.any_eq_true, List.any_eq_true]
  apply exists_congr
  intro t'
  apply and_congr_right
  intro ht'
  have hne : t' ≠ t := fun heq => hfresh (heq ▸ ht')
  rw [heap_setTransport_of_ne _ hne]

theorem pendingList_listSocket (pointerText : TransportRef → Bytes) {st' : Tables}
    (h : st'.serialTaken t = true) :
    (st'.advance pointerText (.listSocket t)).registry.pendingList =
        st'.registry.pendingList ∧
      (st'.advance pointerText (.listSocket t)).registry.transportList =
        st'.registry.transportList := by
  rw [advance, Registry.next]
  rw [serialTaken] at h
  cases hserial : (st'.registry.heap t).serial with
  | none => exact ⟨rfl, rfl⟩
  | some serial =>
      rw [hserial, Option.map_some, Option.getD_some] at h
      dsimp only
      rw [if_pos h]
      exact ⟨rfl, rfl⟩

theorem register_failed
    (h : (st.initSocket pointerText t serial port isLocal).1 = -1) :
    st.registerSocketTransport pointerText t serial port isLocal =
      (-1, (st.initSocket pointerText t serial port isLocal).2) := by
  rw [registerSocketTransport]
  simp [h]

theorem register_taken (h : (st.initSocket pointerText t serial port isLocal).1 = 0)
    (htaken : (st.initSocket pointerText t serial port isLocal).2.serialTaken t = true) :
    st.registerSocketTransport pointerText t serial port isLocal =
      (-1, (st.initSocket pointerText t serial port isLocal).2.advance pointerText
        (.listSocket t)) := by
  rw [registerSocketTransport]
  simp [h, htaken]

theorem register_new (h : (st.initSocket pointerText t serial port isLocal).1 = 0)
    (hnew : (st.initSocket pointerText t serial port isLocal).2.serialTaken t = false) :
    (st.registerSocketTransport pointerText t serial port isLocal).1 = 0 := by
  rw [registerSocketTransport]
  simp [h, hnew]

theorem leavesNoTrace_iff
    (hfresh : t ∉ st.registry.pendingList ++ st.registry.transportList) :
    LeavesNoTrace pointerText st t serial port isLocal ↔
      ¬ (TakesSlot st t port isLocal ∧
        st.registry.serialInUse (serial.getD (pointerText t)) = true) := by
  rw [LeavesNoTrace]
  rcases initSocket_cases pointerText st t serial port isLocal with
    ⟨htakes, hresult, hregistry, i, hfree, hslots⟩ | ⟨htakes, hresult, hregistry, hslots⟩ |
    ⟨htakes, hresult, hregistry, hslots⟩
  · have htaken := serialTaken_of_fresh hfresh hregistry
    cases hserial : st.registry.serialInUse (serial.getD (pointerText t)) with
    | false => simp [register_new hresult (htaken.trans hserial)]
    | true =>
        rw [register_taken hresult (htaken.trans hserial)]
        constructor
        · intro hsame
          have hchanged := congrFun (hslots.symm.trans (hsame rfl).2.2) i
          rw [Function.update_self, hfree] at hchanged
          cases hchanged
        · exact fun h => absurd ⟨htakes, rfl⟩ h
  · have htaken := serialTaken_of_fresh hfresh hregistry
    refine ⟨fun _ h => htakes h.1, fun _ => ?_⟩
    cases hserial : st.registry.serialInUse (serial.getD (pointerText t)) with
    | false => simp [register_new hresult (htaken.trans hserial)]
    | true =>
        obtain ⟨hpending, htransports⟩ :=
          pendingList_listSocket pointerText (htaken.trans hserial)
        rw [register_taken hresult (htaken.trans hserial)]
        rw [hregistry] at hpending htransports
        exact fun _ => ⟨hpending, htransports, hslots⟩
  · refine ⟨fun _ h => htakes h.1, fun _ _ => ?_⟩
    rw [register_failed hresult]
    dsimp only
    rw [hregistry]
    exact ⟨rfl, rfl, hslots⟩

end

/-- The stages of a transport that may be in the table. -/
def holdsSlot : Stage → Bool
  | .created | .listed | .announced | .running => true
  | _ => false

/-- The write thread holds its reference, and so does the read thread until it is
gone. -/
structure Counted (a : Transport) (threads : Thread → Phase) : Prop where
  writer : threads .writer = .pumping
  running : a.stage = .running → a.refCount = if threads .reader = .gone then 1 else 2
  reader : a.stage ≠ .running → threads .reader = .pumping

/-- A transport in the table: an emulator that is being registered or is
connected, and that nobody has kicked. -/
structure Held (st : Tables) (t : TransportRef) : Prop where
  kind : (st.registry.heap t).kind = .socket
  accessible : (st.registry.heap t).noPerm = false
  stage : holdsSlot (st.registry.heap t).stage = true
  kicked : st.kicked t = false
  counted : Counted (st.registry.heap t) (st.threads t)

structure Slotted (st : Tables) : Prop where
  consistent : Consistent st.registry
  held : ∀ i t, st.localTransports i = some t → Held st t
  once : ∀ i j t, st.localTransports i = some t → st.localTransports j = some t → i = j

section

variable {pointerText : TransportRef → Bytes} {st st' : Tables} {t : TransportRef}

open Tables

theorem Held.of_same (h : Held st t) (hheap : st'.registry.heap t = st.registry.heap t)
    (hkicked : st'.kicked t = st.kicked t) (hthreads : st'.threads t = st.threads t) :
    Held st' t where
  kind := by rw [hheap, h.kind]
  accessible := by rw [hheap, h.accessible]
  stage := by rw [hheap, h.stage]
  kicked := by rw [hkicked, h.kicked]
  counted := by rw [hheap, hthreads]; exact h.counted

theorem Slotted.not_in_table (h : Slotted st) (hstage : holdsSlot (st.registry.stage t) = false)
    (i : Fin adbLocalTransportMax) : st.localTransports i ≠ some t := by
  intro hslot
  exact Bool.false_ne_true (hstage.symm.trans (h.held i t hslot).stage)

theorem Slotted.frame (h : Slotted st) (hconsistent : Consistent st'.registry)
    (hslots : st'.localTransports = st.localTransports)
    (hheld : ∀ i t', st.localTransports i = some t' → Held st t' → Held st' t') :
    Slotted st' where
  consistent := hconsistent
  held i t' hslot := by
    rw [hslots] at hslot
    exact hheld i t' hslot (h.held i t' hslot)
  once i j t' hi hj := by
    rw [hslots] at hi hj
    exact h.once i j t' hi hj

theorem Slotted.frame_of_ne (h : Slotted st) (hconsistent : Consistent st'.registry)
    (hslots : st'.localTransports = st.localTransports)
    (hnot : ∀ i, st.localTransports i ≠ some t)
    (hsame : ∀ t' ≠ t, st'.registry.heap t' = st.registry.heap t' ∧
      st'.kicked t' = st.kicked t' ∧ st'.threads t' = st.threads t') : Slotted st' := by
  apply h.frame hconsistent hslots
  intro i t' hslot hheld
  have hne : t' ≠ t := fun heq => hnot i (heq ▸ hslot)
  obtain ⟨hheap, hkicked, hthreads⟩ := hsame t' hne
  exact hheld.of_same hheap hkicked hthreads

/-- The main thread removes and deletes only transports whose threads have ended. -/
theorem not_holdsSlot_of_role {registry : Registry} (h : Fits registry t)
    (hrole : registry.main.role t = .removing ∨ registry.main.role t = .deleting) :
    holdsSlot (registry.stage t) = false := by
  rw [Fits] at h
  rcases hrole with hrole | hrole
  · rw [hrole] at h
    cases hstage : registry.stage t <;> rw [hstage] at h <;> first | rfl | cases h
  · rw [hrole] at h
    cases hstage : registry.stage t <;> rw [hstage] at h <;> first | rfl | cases h

theorem held_next (pointerText : TransportRef → Bytes) {registry : Registry}
    (hconsistent : Consistent registry) {label : TransportRegistry.Label} (hplain : isPlain label = true)
    (henabled : registry.Enabled label) (hkind : (registry.heap t).kind = .socket)
    (haccessible : (registry.heap t).noPerm = false)
    (hstage : holdsSlot (registry.stage t) = true) {threads : Thread → Phase}
    (hcounted : Counted (registry.heap t) threads) :
    ((registry.next pointerText label).heap t).kind = .socket ∧
      ((registry.next pointerText label).heap t).noPerm = false ∧
      holdsSlot ((registry.next pointerText label).stage t) = true ∧
      Counted ((registry.next pointerText label).heap t) threads := by
  have hother : ∀ t', holdsSlot (registry.stage t') = false → t ≠ t' := by
    rintro t' hnot rfl
    rw [hstage] at hnot
    cases hnot
  have hframe : ∀ registry' : Registry, registry'.heap t = registry.heap t →
      (registry'.heap t).kind = .socket ∧ (registry'.heap t).noPerm = false ∧
        holdsSlot (registry'.stage t) = true ∧ Counted (registry'.heap t) threads := by
    intro registry' hheap
    rw [Registry.stage, hheap]
    exact ⟨hkind, haccessible, hstage, hcounted⟩
  cases label with
  | newSocket t' serial => cases hplain
  | initFails t' => cases hplain
  | listSocket t' => cases hplain
  | unref t' => cases hplain
  | newUsb t' handle serial writeable =>
      have hfree : registry.stage t' = .free := henabled
      exact hframe _ (heap_setTransport_of_ne _ (hother t' (by rw [hfree]; rfl)))
  | listUsb t' =>
      apply hframe
      apply heap_setTransport_of_ne
      rintro rfl
      exact henabled.2 hkind
  | announce t' =>
      rcases eq_or_ne t t' with rfl | hne
      · have hlisted : (registry.heap t).stage = .listed := henabled
        have hreader := hcounted.reader (by rw [hlisted]; decide)
        rw [Registry.next, stage_setStage_self, heap_setStage_self]
        exact ⟨hkind, haccessible, rfl, hcounted.writer, (fun hrunning => by cases hrunning),
          fun _ => hreader⟩
      · exact hframe _ (heap_setTransport_of_ne _ hne)
  | receive =>
      rw [Registry.next, Registry.receive]
      cases hpipe : registry.pipe with
      | nil => exact hframe _ rfl
      | cons message pipe =>
          cases message with
          | remove t' => exact hframe _ rfl
          | register t' =>
              rcases eq_or_ne t t' with rfl | hne
              · have hannounced := stage_of_register (hconsistent.fits t)
                  (List.count_pos_iff.mpr (by rw [hpipe]; exact List.mem_cons_self))
                have hreader := hcounted.reader (by
                  rw [Registry.stage] at hannounced
                  rw [hannounced]
                  decide)
                dsimp only
                rw [stage_setTransport_self, heap_setTransport_self, if_neg (by simp [haccessible])]
                exact ⟨hkind, haccessible, rfl, hcounted.writer,
                  fun _ => by rw [hreader]; rfl, fun _ => hreader⟩
              · exact hframe _ (heap_setTransport_of_ne _ hne)
  | move =>
      obtain ⟨t', hmain⟩ := henabled
      rw [Registry.next, hmain]
      exact hframe _ rfl
  | unlist =>
      obtain ⟨t', hmain⟩ := henabled
      rw [Registry.next, hmain]
      have hrole : registry.main.role t' = .removing := by rw [hmain]; exact role_self.2.1
      exact hframe _ (heap_setTransport_of_ne _
        (hother t' (not_holdsSlot_of_role (hconsistent.fits t') (.inl hrole))))
  | delete =>
      obtain ⟨t', hmain⟩ := henabled
      rw [Registry.next, hmain]
      have hrole : registry.main.role t' = .deleting := by rw [hmain]; exact role_self.2.2
      exact hframe _ (heap_setTransport_of_ne _
        (hother t' (not_holdsSlot_of_role (hconsistent.fits t') (.inr hrole))))
  | sendRemoval t' =>
      have hclosing : registry.stage t' = .closing := henabled
      exact hframe _ (heap_setTransport_of_ne _ (hother t' (by rw [hclosing]; rfl)))
  | unregisterUsb handle =>
      apply hframe
      simp [Registry.next, Registry.isUnusable, hkind]

theorem initSocket_fields (pointerText : TransportRef → Bytes) (st : Tables) (t : TransportRef)
    (serial : Option Bytes) (port : Int) (isLocal : Bool) :
    (st.initSocket pointerText t serial port isLocal).2.kicked =
        Function.update st.kicked t false ∧
      (st.initSocket pointerText t serial port isLocal).2.threads =
        Function.update st.threads t fun _ => .pumping := by
  unfold initSocket initSocketTransport
  dsimp only
  split
  · split
    · exact ⟨rfl, rfl⟩
    · split
      · exact ⟨rfl, rfl⟩
      · exact ⟨rfl, rfl⟩
  · exact ⟨rfl, rfl⟩

theorem slotted_initSocket (h : Slotted st) (hfree : st.registry.stage t = .free)
    (serial : Option Bytes) (port : Int) (isLocal : Bool) :
    Slotted (st.initSocket pointerText t serial port isLocal).2 := by
  have hnot := h.not_in_table (t := t) (by rw [hfree]; rfl)
  have hcreated := consistent_next h.consistent pointerText
    (show st.registry.Enabled (.newSocket t serial) from hfree)
  obtain ⟨hkicked, hthreads⟩ := initSocket_fields pointerText st t serial port isLocal
  have hfields : ∀ t' ≠ t,
      (st.initSocket pointerText t serial port isLocal).2.kicked t' = st.kicked t' ∧
        (st.initSocket pointerText t serial port isLocal).2.threads t' = st.threads t' := by
    intro t' hne
    rw [hkicked, hthreads]
    exact ⟨Function.update_of_ne hne _ _, Function.update_of_ne hne _ _⟩
  have hheap : ∀ t' ≠ t, (st.registry.next pointerText (.newSocket t serial)).heap t' =
      st.registry.heap t' := fun t' hne => heap_setTransport_of_ne _ hne
  rcases initSocket_cases pointerText st t serial port isLocal with
    ⟨-, -, hregistry, i, hempty, hslots⟩ | ⟨-, -, hregistry, hslots⟩ | ⟨-, -, hregistry, hslots⟩
  · constructor
    · rw [hregistry]
      exact hcreated
    · intro j t' hslot
      rw [hslots, Function.update_apply] at hslot
      split at hslot
      · obtain rfl := Option.some.inj hslot
        constructor
        · rw [hregistry, Registry.next, heap_setTransport_self]
        · rw [hregistry, Registry.next, heap_setTransport_self]
        · rw [hregistry, Registry.next, heap_setTransport_self]
          rfl
        · rw [hkicked, Function.update_self]
        · rw [hregistry, Registry.next, heap_setTransport_self, hthreads, Function.update_self]
          exact ⟨rfl, (fun hrunning => by cases hrunning), fun _ => rfl⟩
      · have hne : t' ≠ t := fun heq => hnot j (heq ▸ hslot)
        exact (h.held j t' hslot).of_same (by rw [hregistry, hheap t' hne]) (hfields t' hne).1
          (hfields t' hne).2
    · intro j k t' hj hk
      rw [hslots, Function.update_apply] at hj hk
      split at hj
      · rename_i hji
        obtain rfl := Option.some.inj hj
        split at hk
        · rename_i hki
          rw [hji, hki]
        · exact absurd hk (hnot k)
      · split at hk
        · obtain rfl := Option.some.inj hk
          exact absurd hj (hnot j)
        · exact h.once j k t' hj hk
  · apply h.frame_of_ne (by rw [hregistry]; exact hcreated) hslots hnot
    intro t' hne
    rw [hregistry]
    exact ⟨hheap t' hne, hfields t' hne⟩
  · have hdeleted := consistent_next hcreated pointerText
      (show (st.registry.next pointerText (.newSocket t serial)).Enabled (.initFails t) from
        ⟨stage_setTransport_self _, by rw [Registry.next, heap_setTransport_self]⟩)
    apply h.frame_of_ne (by rw [hregistry]; exact hdeleted) hslots hnot
    intro t' hne
    rw [hregistry]
    exact ⟨(heap_setTransport_of_ne _ hne).trans (hheap t' hne), hfields t' hne⟩

theorem slotted_listSocket (h : Slotted st) (henabled : st.registry.Enabled (.listSocket t))
    (hcondition : (∃ i, st.localTransports i = some t) → st.serialTaken t = false) :
    Slotted (st.advance pointerText (.listSocket t)) := by
  have hconsistent := consistent_next h.consistent pointerText henabled
  have hheap : ∀ t' ≠ t, (st.advance pointerText (.listSocket t)).registry.heap t' =
      st.registry.heap t' := by
    intro t' hne
    rw [advance, Registry.next]
    dsimp only
    split
    · split
      · exact heap_setTransport_of_ne _ hne
      · exact heap_setTransport_of_ne _ hne
    · rfl
  refine h.frame ?_ ?_ ?_
  · exact hconsistent
  · rfl
  intro i t' hslot hheld
  rcases eq_or_ne t' t with rfl | hne
  · have hnew := hcondition ⟨i, hslot⟩
    cases hserial : (st.registry.heap t').serial with
    | none =>
        refine Held.of_same hheld ?_ ?_ ?_
        · rw [advance, Registry.next]
          simp only [hserial]
        · rfl
        · rfl
    | some serial =>
        rw [serialTaken, hserial, Option.map_some, Option.getD_some] at hnew
        have hlisted : (st.advance pointerText (.listSocket t')).registry.heap t' =
            { st.registry.heap t' with stage := .listed } := by
          rw [advance, Registry.next]
          dsimp only
          split
          · rename_i serial' hserial'
            obtain rfl := Option.some.inj (hserial.symm.trans hserial')
            rw [if_neg (by rw [hnew]; exact Bool.false_ne_true)]
            exact heap_setStage_self _
          · rename_i hnone
            cases hserial.symm.trans hnone
        have hcreated : (st.registry.heap t').stage = .created := henabled.1
        have hreader := hheld.counted.reader (by rw [hcreated]; decide)
        refine ⟨?_, ?_, ?_, hheld.kicked, ?_⟩
        · rw [hlisted, hheld.kind]
        · rw [hlisted, hheld.accessible]
        · rw [hlisted]
          rfl
        · rw [hlisted]
          exact ⟨hheld.counted.writer, (fun hrunning => by cases hrunning), fun _ => hreader⟩
  · exact hheld.of_same (hheap t' hne) rfl rfl

theorem localTransports_clearSlot (st : Tables) (t : TransportRef)
    (honce : ∀ i j, st.localTransports i = some t → st.localTransports j = some t → i = j)
    (i : Fin adbLocalTransportMax) :
    (st.clearSlot t).localTransports i =
      if st.localTransports i = some t then none else st.localTransports i := by
  rw [clearSlot]
  split
  · rename_i hnone
    rw [if_neg]
    intro hslot
    exact List.find?_eq_none.mp hnone i (List.mem_finRange i) (decide_eq_true hslot)
  · rename_i j hj
    have hslot : st.localTransports j = some t := by
      have hfound := List.find?_some hj
      exact of_decide_eq_true hfound
    dsimp only
    rw [Function.update_apply]
    split
    · rename_i hij
      rw [hij, if_pos hslot]
    · rename_i hij
      rw [if_neg (fun hi => hij (honce i j hi hslot))]

theorem clearSlot_frame (st : Tables) (t : TransportRef) :
    (st.clearSlot t).registry = st.registry ∧ (st.clearSlot t).kicked = st.kicked ∧
      (st.clearSlot t).threads = st.threads := by
  rw [clearSlot]
  split
  · exact ⟨rfl, rfl, rfl⟩
  · exact ⟨rfl, rfl, rfl⟩

/-- A transport that is kicked leaves the table, and nothing else does. -/
theorem slotted_kickOne (h : Slotted st) (t : TransportRef) :
    Slotted (st.kickOne t) ∧ (st.kickOne t).registry = st.registry ∧
      (st.kickOne t).threads = st.threads ∧
      ∀ i, (st.kickOne t).localTransports i =
        if st.localTransports i = some t then none else st.localTransports i := by
  have hunused : (∀ i, st.localTransports i ≠ some t) → ∀ i, st.localTransports i =
      if st.localTransports i = some t then none else st.localTransports i := by
    intro hnot i
    rw [if_neg (hnot i)]
  rw [kickOne]
  split
  · rename_i hkicked
    refine ⟨h, rfl, rfl, hunused ?_⟩
    intro i hslot
    exact Bool.false_ne_true ((h.held i t hslot).kicked.symm.trans hkicked)
  · dsimp only
    split
    · obtain ⟨hregistry, hkicked, hthreads⟩ :=
        clearSlot_frame { st with kicked := Function.update st.kicked t true } t
      have hslots := localTransports_clearSlot
        { st with kicked := Function.update st.kicked t true } t fun i j => h.once i j t
      dsimp only at hregistry hkicked hthreads hslots
      refine ⟨⟨?_, ?_, ?_⟩, hregistry, hthreads, hslots⟩
      · rw [hregistry]
        exact h.consistent
      · intro i t' hslot
        rw [hslots] at hslot
        split at hslot
        · cases hslot
        · rename_i hother
          have hne : t' ≠ t := fun heq => hother (heq ▸ hslot)
          apply (h.held i t' hslot).of_same
          · rw [hregistry]
          · rw [hkicked, Function.update_of_ne hne]
          · rw [hthreads]
      · intro i j t' hi hj
        rw [hslots] at hi hj
        split at hi
        · cases hi
        · split at hj
          · cases hj
          · exact h.once i j t' hi hj
    · rename_i hkind
      have hnot : ∀ i, st.localTransports i ≠ some t := fun i hslot =>
        hkind (h.held i t hslot).kind
      refine ⟨h.frame_of_ne h.consistent rfl hnot ?_, rfl, rfl, hunused hnot⟩
      intro t' hne
      exact ⟨rfl, Function.update_of_ne hne _ _, rfl⟩

theorem slotted_kickTransport (h : Slotted st) (t : TransportRef) :
    Slotted (st.kickTransport t) ∧ (st.kickTransport t).registry = st.registry ∧
      (st.kickTransport t).threads = st.threads ∧
      (t ∈ st.registry.transportList → ∀ i, (st.kickTransport t).localTransports i ≠ some t) := by
  rw [kickTransport]
  split
  · obtain ⟨hslotted, hregistry, hthreads, hslots⟩ := slotted_kickOne h t
    refine ⟨hslotted, hregistry, hthreads, fun _ i hslot => ?_⟩
    rw [hslots] at hslot
    split at hslot
    · cases hslot
    · exact absurd hslot ‹_›
  · rename_i hmem
    exact ⟨h, rfl, rfl, fun hlisted => absurd hlisted hmem⟩

theorem slotted_setThread (h : Slotted st) {thread : Thread} {phase : Phase}
    (hheld : ∀ i, st.localTransports i = some t → Held (st.setThread t thread phase) t) :
    Slotted (st.setThread t thread phase) := by
  refine h.frame ?_ ?_ ?_
  · exact h.consistent
  · rfl
  intro i t' hslot hother
  rcases eq_or_ne t' t with rfl | hne
  · exact hheld i hslot
  · exact hother.of_same rfl rfl (Function.update_of_ne hne _ _)

theorem slotted_leave (h : Slotted st) {thread : Thread} (henabled : st.Enabled (.leave t thread)) :
    Slotted (st.next pointerText (.leave t thread)) := by
  obtain ⟨hrunning, hpumping, hlisted⟩ := henabled
  obtain ⟨hslotted, hregistry, hthreads, hkicked⟩ := slotted_kickTransport h t
  apply slotted_setThread hslotted
  intro i hslot
  -- Still in the table: the transport was not moved yet, and it is the read thread.
  have hreader : thread = .reader := by
    cases thread with
    | reader => rfl
    | writer => exact absurd hslot (hkicked (hlisted rfl) i)
  subst hreader
  have hheld := hslotted.held i t hslot
  have hstage : ((st.kickTransport t).registry.heap t).stage = .running := by
    rw [hregistry]
    exact hrunning
  have hcount := hheld.counted.running hstage
  rw [hthreads, hpumping] at hcount
  refine ⟨hheld.kind, hheld.accessible, hheld.stage, hheld.kicked, ?_, fun _ => ?_, ?_⟩
  · simpa [setThread] using hheld.counted.writer
  · simpa [setThread] using hcount
  · exact fun hnot => absurd hstage hnot

theorem slotted_unref (h : Slotted st) {thread : Thread} (henabled : st.Enabled (.unref t thread)) :
    Slotted (st.next pointerText (.unref t thread)) := by
  obtain ⟨hrunning, hleaving⟩ := henabled
  have hconsistent := consistent_next h.consistent pointerText hrunning
  refine h.frame ?_ ?_ ?_
  · exact hconsistent
  · rfl
  intro i t' _ hheld
  rcases eq_or_ne t' t with rfl | hne
  · have hreader : thread = .reader := by
      cases thread with
      | reader => rfl
      | writer =>
          rw [hheld.counted.writer] at hleaving
          cases hleaving
    subst hreader
    have hcount := hheld.counted.running hrunning
    rw [hleaving] at hcount
    have hheap : (st.registry.next pointerText (.unref t')).heap t' =
        { st.registry.heap t' with refCount := 1 } := by
      rw [Registry.next, heap_setTransport_self, hcount]
      rfl
    refine ⟨?_, ?_, ?_, hheld.kicked, ?_⟩
    · exact (congrArg Transport.kind hheap).trans hheld.kind
    · exact (congrArg Transport.noPerm hheap).trans hheld.accessible
    · exact (congrArg (fun a => holdsSlot a.stage) hheap).trans hheld.stage
    · have hthreads : (st.next pointerText (.unref t' .reader)).threads t' =
          Function.update (st.threads t') .reader .gone := Function.update_self _ _ _
      show Counted ((st.registry.next pointerText (.unref t')).heap t') _
      rw [hheap, hthreads]
      refine ⟨?_, fun _ => ?_, fun hnot => absurd hrunning hnot⟩
      · simpa using hheld.counted.writer
      · simp
  · exact hheld.of_same (heap_setTransport_of_ne _ hne) rfl (Function.update_of_ne hne _ _)

theorem slotted_registry (h : Slotted st) {label : TransportRegistry.Label}
    (henabled : st.Enabled (.registry label)) :
    Slotted (st.next pointerText (.registry label)) := by
  have hconsistent := consistent_next h.consistent pointerText henabled.2
  have hheld : ∀ t', Held st t' → Held (st.advance pointerText label) t' := by
    intro t' hheld
    obtain ⟨hkind, haccessible, hstage, hcounted⟩ := held_next pointerText h.consistent
      henabled.1 henabled.2 hheld.kind hheld.accessible hheld.stage hheld.counted
    exact ⟨hkind, haccessible, hstage, hheld.kicked, hcounted⟩
  have hadvance : Slotted (st.advance pointerText label) := by
    refine h.frame ?_ ?_ ?_
    · exact hconsistent
    · rfl
    · exact fun i t' _ => hheld t'
  cases label with
  | newUsb t handle serial writeable =>
      have hfree : st.registry.stage t = .free := henabled.2
      have hnot := h.not_in_table (t := t) (by rw [hfree]; rfl)
      refine h.frame_of_ne hconsistent rfl hnot ?_
      intro t' hne
      exact ⟨heap_setTransport_of_ne _ hne, Function.update_of_ne hne _ _,
        Function.update_of_ne hne _ _⟩
  | _ => exact hadvance

theorem slotted_next (h : Slotted st) {label : Label} (henabled : st.Enabled label)
    (hcondition : Orderly st label) : Slotted (st.next pointerText label) := by
  cases label with
  | initSocket t serial port isLocal => exact slotted_initSocket h henabled serial port isLocal
  | listSocket t => exact slotted_listSocket h henabled hcondition
  | registry label => exact slotted_registry h henabled
  | leave t thread => exact slotted_leave h henabled
  | unref t thread => exact slotted_unref h henabled
  | kick t => exact (slotted_kickTransport h t).1

theorem slotted_initial : Slotted .initial where
  consistent := consistent_initial
  held _ _ hslot := by cases hslot
  once _ _ _ hslot := by cases hslot

theorem slotted_of_reachable (h : (tableSystem pointerText).ReachableWhen Orderly st) :
    Slotted st := by
  apply h.invariant
  · rintro st rfl
    exact slotted_initial
  · intro st label hst henabled hcondition
    exact slotted_next hst henabled hcondition

theorem Slotted.registered (h : Slotted st) {i : Fin adbLocalTransportMax}
    (hslot : st.localTransports i = some t) (hdone : st.registry.stage t ≠ .created) :
    t ∈ st.registry.pendingList ++ st.registry.transportList := by
  apply (h.consistent.fits t).mem_lists
  have hstage := (h.held i t hslot).stage
  rw [Registry.stage] at hdone ⊢
  cases hcase : (st.registry.heap t).stage <;> rw [hcase] at hstage hdone <;>
    first | rfl | exact absurd rfl hdone | cases hstage

end

/-- A failed registration leaves the two lists and the table as they were exactly
when it did not lose a comparison of serials after it had taken a slot; in a run
whose steps are all orderly, every transport in the table is registered, or
its registration is under way. -/
theorem failed_registration_clean (pointerText : TransportRef → Bytes) :
    (∀ (st : Tables) (t : TransportRef) (serial : Option Bytes) (port : Int) (isLocal : Bool),
        t ∉ st.registry.pendingList ++ st.registry.transportList →
        (LeavesNoTrace pointerText st t serial port isLocal ↔
          ¬ (TakesSlot st t port isLocal ∧
            st.registry.serialInUse (serial.getD (pointerText t)) = true))) ∧
      ∀ st, (tableSystem pointerText).ReachableWhen Orderly st →
        ∀ i t, st.localTransports i = some t → st.registry.stage t ≠ .created →
          t ∈ st.registry.pendingList ++ st.registry.transportList := by
  constructor
  · intro st t serial port isLocal hfresh
    exact leavesNoTrace_iff hfresh
  · intro st h i t hslot hdone
    exact (slotted_of_reachable h).registered hslot hdone

/-- `emulator-5554`. -/
def emulatorSerial : Bytes := [101, 109, 117, 108, 97, 116, 111, 114, 45, 53, 53, 53, 52]

/-- An emulator is registered and its threads run, but it is still in
`pending_list`. -/
def emulatorRun : List Label :=
  [.initSocket 1 (some emulatorSerial) 5555 true, .listSocket 1, .registry (.announce 1),
    .registry .receive]

/-- The table after this run. -/
def emulatorTables : Tables := (tableSystem fun _ => []).execute .initial emulatorRun

theorem emulatorTables_reachable :
    (tableSystem fun _ => []).ReachableWhen Orderly emulatorTables := by
  rw [emulatorTables]
  refine System.reachableWhen_execute ⟨.initial, rfl, .refl⟩ ?_
  refine ⟨⟨rfl, trivial⟩, ⟨⟨rfl, rfl⟩, fun _ => rfl⟩, ⟨⟨rfl, rfl⟩, trivial⟩,
    ⟨⟨rfl, rfl, ?_⟩, trivial⟩, trivial⟩
  exact List.cons_ne_nil _ _

theorem failed_registration_clean_emulator :
    LeavesNoTrace (fun _ => []) emulatorTables 2 (some emulatorSerial) 5555 true ∧
      1 ∈ emulatorTables.registry.pendingList ++ emulatorTables.registry.transportList := by
  obtain ⟨hcall, hrun⟩ := failed_registration_clean fun _ => []
  constructor
  · apply (hcall emulatorTables 2 (some emulatorSerial) 5555 true (by decide)).mpr
    rintro ⟨⟨-, hunused, -⟩, -⟩
    revert hunused
    decide
  · exact hrun emulatorTables emulatorTables_reachable 0 1 rfl (by decide)

/-- A second registration of the serial at another port takes a slot, finds the
serial in `pending_list`, and returns -1 with the deleted transport in the slot. -/
theorem failed_registration_keeps_slot :
    ¬ (∀ (st : Tables) (t : TransportRef) (serial : Option Bytes) (port : Int) (isLocal : Bool),
        t ∉ st.registry.pendingList ++ st.registry.transportList →
        LeavesNoTrace (fun _ => []) st t serial port isLocal) ∧
      ¬ ∀ st, (tableSystem fun _ => []).Reachable st →
        ∀ i t, st.localTransports i = some t → st.registry.stage t ≠ .created →
          t ∈ st.registry.pendingList ++ st.registry.transportList := by
  constructor
  · intro h
    have hslots := (h emulatorTables 2 (some emulatorSerial) 7777 true (by decide) (by decide)).2.2
    have hslot := congrFun hslots 1
    revert hslot
    decide
  · intro h
    have hreachable : (tableSystem fun _ => []).Reachable
        ((tableSystem fun _ => []).execute emulatorTables
          [.initSocket 2 (some emulatorSerial) 7777 true, .listSocket 2]) := by
      apply System.reachableWhen_execute emulatorTables_reachable.reachable
      exact ⟨⟨rfl, trivial⟩, ⟨⟨rfl, rfl⟩, trivial⟩, trivial⟩
    have hlisted := h _ hreachable 1 2 rfl (by decide)
    revert hlisted
    decide

end Adb.EmulatorSlots
