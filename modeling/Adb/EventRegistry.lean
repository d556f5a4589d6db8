import Adb.EventInterest
import Adb.Histories
import Adb.TransitionSystems

/-!
The registry of fdevent.cpp: the fdevents, the poll map and the pending list,
changed by the operations of any callback between two steps of the loop.
-/

namespace Adb.EventRegistry

open Adb.EventInterest
open Adb.TransitionSystems

abbrev FdeventRef := Nat

/-- An `fdevent` in memory.  `fd` is `none` for `-1`, and `fde` holds the event
mask of the state word, the pending bit and the pending events.  The other
fields belong to the history: which installation this is, whether its interest
was changed since it became pending, and whether a read was forced since. -/
structure Entry where
  fd : Option Nat
  active : Bool
  created : Bool
  fde : Fdevent
  generation : Nat
  rearmed : Bool
  forced : Bool
  deriving DecidableEq, Repr

/-- A node of the poll map: `POLLIN` and `POLLOUT` in `pollfd.events`. -/
structure PollNode where
  fde : FdeventRef
  pollIn : Bool
  pollOut : Bool
  deriving DecidableEq, Repr

/-- What happened to an installation of an fdevent. -/
inductive Event where
  | installed (generation : Nat)
  | removed (generation : Nat)
  | called (generation : Nat) (events interest : EventMask) (rearmed forced : Bool)
  deriving DecidableEq, Repr

/-- `subproc` is the fdevent of the device's shell-exit socket, `current` the
one whose function was called last, and `halted` a failed `CHECK`. -/
structure Registry where
  heap : FdeventRef → Entry
  nodes : Nat → Option PollNode
  pending : List FdeventRef
  generations : Nat
  trace : List Event
  subproc : Option FdeventRef
  current : Option FdeventRef
  halted : Bool

namespace Registry

def modify (st : Registry) (f : FdeventRef) (update : Entry → Entry) : Registry :=
  { st with heap := Function.update st.heap f (update (st.heap f)) }

def record (st : Registry) (event : Event) : Registry :=
  { st with trace := st.trace ++ [event] }

def halt (st : Registry) : Registry := { st with halted := true }

def fdeventInstall (st : Registry) (f : FdeventRef) (fd : Nat) : Registry :=
  { st with
    heap := Function.update st.heap f
      { fd := some fd, active := true, created := false,
        fde := EventInterest.fdeventInstall, generation := st.generations,
        rearmed := false, forced := false }
    nodes := Function.update st.nodes fd (some ⟨f, false, false⟩)
    generations := st.generations + 1
    trace := st.trace ++ [.installed st.generations] }

def fdeventCreate (st : Registry) (f : FdeventRef) (fd : Nat) : Registry :=
  (st.fdeventInstall f fd).modify f fun a => { a with created := true }

/-- `g_poll_node_map.erase(fde->fd)`. -/
def erase (nodes : Nat → Option PollNode) : Option Nat → Nat → Option PollNode
  | some fd => Function.update nodes fd none
  | none => nodes

def fdeventRemove (st : Registry) (f : FdeventRef) : Registry :=
  let a := st.heap f
  if a.active then
    { st with
      heap := Function.update st.heap f
        { a with
          fd := if a.fde.state.dontClose then a.fd else none
          active := false
          created := false
          fde := { a.fde with state := .empty, events := .empty, pending := false }
          rearmed := false
          forced := false }
      nodes := erase st.nodes a.fd
      pending := if a.fde.pending then st.pending.filter (· ≠ f) else st.pending
      trace := st.trace ++ [.removed a.generation] }
  else st

def fdeventDestroy (st : Registry) (f : FdeventRef) : Registry :=
  if (st.heap f).created then st.fdeventRemove f else st.halt

/-- The part of `fdevent_update` that changes the node. -/
def updateNode (nodes : Nat → Option PollNode) (fd : Nat) (events : EventMask) :
    Nat → Option PollNode :=
  Function.update nodes fd ((nodes fd).map fun node =>
    { node with pollIn := events.read, pollOut := events.write })

def fdeventSet (st : Registry) (f : FdeventRef) (events : EventMask) : Registry :=
  let a := st.heap f
  if a.fde.state = events then st
  else if !a.active then st.halt
  else
    match a.fd with
    | none => st.halt
    | some fd =>
        if (st.nodes fd).isNone then st.halt
        else
          let fde := EventInterest.fdeventSet a.fde events
          { st with
            heap := Function.update st.heap f
              { a with fde := fde, rearmed := fde.pending, forced := false }
            nodes := updateNode st.nodes fd events
            pending :=
              if a.fde.pending && !fde.pending then st.pending.filter (· ≠ f)
              else st.pending }

def fdeventAdd (st : Registry) (f : FdeventRef) (events : EventMask) : Registry :=
  st.fdeventSet f ((st.heap f).fde.state.union events)

def fdeventDel (st : Registry) (f : FdeventRef) (events : EventMask) : Registry :=
  st.fdeventSet f ((st.heap f).fde.state.diff events)

/-- The body of the loop in `fdevent_process` for one `pollfd`. -/
def processOne (st : Registry) (result : Nat × PollResult) : Registry :=
  if result.2.toEvents = .empty then st
  else
    match st.nodes result.1 with
    | none => st.halt
    | some node =>
        { st with
          heap := Function.update st.heap node.fde
            { st.heap node.fde with fde := fdeventProcess (st.heap node.fde).fde result.2 }
          pending := st.pending ++ [node.fde] }

/-- `fdevent_process` for the results of one `poll`, in the order in which the
map is walked. -/
def fdeventProcess (st : Registry) (results : List (Nat × PollResult)) : Registry :=
  results.foldl processOne st

def fdeventCallFdfunc (st : Registry) (f : FdeventRef) : Registry :=
  let a := st.heap f
  if a.fde.pending then
    { st with
      heap := Function.update st.heap f
        { a with fde := fdeventTake a.fde, rearmed := false, forced := false }
      trace := st.trace ++
        [.called a.generation a.fde.events a.fde.state a.rearmed a.forced]
      current := some f }
  else st.halt

/-- One round of the loop over the pending list. -/
def dispatch (st : Registry) : Registry :=
  match st.pending with
  | [] => st
  | f :: rest => fdeventCallFdfunc { st with pending := rest } f

def fdeventSubprocSetup (st : Registry) (f : FdeventRef) (fd : Nat) : Registry :=
  { (st.fdeventCreate f fd).fdeventAdd f .fdeRead with subproc := some f }

/-- `fdevent_subproc_event_func` for the exit of the shell behind a descriptor,
which has unread data left or not. -/
def fdeventSubprocEventFunc (st : Registry) (subprocFd : Nat) (dataLeft : Bool) : Registry :=
  match st.nodes subprocFd with
  | none => st
  | some node =>
      let st := st.modify node.fde fun a => { a with fde := { a.fde with forceEof := true } }
      if dataLeft then st
      else
        let pending := (st.heap node.fde).fde.pending
        let st := st.modify node.fde fun a =>
          { a with
            fde := { a.fde with events := a.fde.events.union .fdeRead, pending := true }
            forced := true }
        if pending then st else st.fdeventCallFdfunc node.fde

end Registry

/-- The operations that callbacks call, and the steps of the loop. -/
inductive Action where
  | install (f : FdeventRef) (fd : Nat)
  | create (f : FdeventRef) (fd : Nat)
  | remove (f : FdeventRef)
  | destroy (f : FdeventRef)
  | set (f : FdeventRef) (events : EventMask)
  | add (f : FdeventRef) (events : EventMask)
  | del (f : FdeventRef) (events : EventMask)
  | process (results : List (Nat × PollResult))
  | dispatch
  | subprocSetup (f : FdeventRef) (fd : Nat)
  | subprocExit (subprocFd : Nat) (dataLeft : Bool)
  deriving DecidableEq, Repr

def step (st : Registry) : Action → Registry
  | .install f fd => st.fdeventInstall f fd
  | .create f fd => st.fdeventCreate f fd
  | .remove f => st.fdeventRemove f
  | .destroy f => st.fdeventDestroy f
  | .set f events => st.fdeventSet f events
  | .add f events => st.fdeventAdd f events
  | .del f events => st.fdeventDel f events
  | .process results => st.fdeventProcess results
  | .dispatch => st.dispatch
  | .subprocSetup f fd => st.fdeventSubprocSetup f fd
  | .subprocExit subprocFd dataLeft => st.fdeventSubprocEventFunc subprocFd dataLeft

/-- A descriptor and an fdevent are installed only while they are not; `poll` is
called with the descriptors of the map when nothing is pending; the shell-exit
function runs in the callback of its own fdevent. -/
def Allowed (st : Registry) : Action → Prop
  | .install f fd => st.nodes fd = none ∧ (st.heap f).active = false
  | .create f fd => st.nodes fd = none ∧ (st.heap f).active = false
  | .process results =>
      st.pending = [] ∧ (results.map Prod.fst).Nodup ∧
        ∀ fd ∈ results.map Prod.fst, (st.nodes fd).isSome = true
  | .subprocSetup f fd =>
      st.subproc = none ∧ st.nodes fd = none ∧ (st.heap f).active = false
  | .subprocExit _ _ => st.current.isSome = true ∧ st.current = st.subproc
  | _ => True

instance : ∀ (st : Registry) (action : Action), Decidable (Allowed st action)
  | _, .install _ _ => inferInstanceAs (Decidable (_ ∧ _))
  | _, .create _ _ => inferInstanceAs (Decidable (_ ∧ _))
  | _, .remove _ => inferInstanceAs (Decidable True)
  | _, .destroy _ => inferInstanceAs (Decidable True)
  | _, .set _ _ => inferInstanceAs (Decidable True)
  | _, .add _ _ => inferInstanceAs (Decidable True)
  | _, .del _ _ => inferInstanceAs (Decidable True)
  | _, .process _ => inferInstanceAs (Decidable (_ ∧ _ ∧ _))
  | _, .dispatch => inferInstanceAs (Decidable True)
  | _, .subprocSetup _ _ => inferInstanceAs (Decidable (_ ∧ _ ∧ _))
  | _, .subprocExit _ _ => inferInstanceAs (Decidable (_ ∧ _))

/-- Memory that no fdevent was installed in. -/
def blankEntry : Entry where
  fd := none
  active := false
  created := false
  fde := EventInterest.fdeventInstall
  generation := 0
  rearmed := false
  forced := false

def initial : Registry where
  heap := fun _ => blankEntry
  nodes := fun _ => none
  pending := []
  generations := 0
  trace := []
  subproc := none
  current := none
  halted := false

def registrySystem : System Registry Action where
  initial st := st = initial
  enabled st action := st.halted = false ∧ Allowed st action
  next := step

instance (st : Registry) (action : Action) : Decidable (registrySystem.enabled st action) :=
  inferInstanceAs (Decidable (_ ∧ _))

/-- The events are wanted, apart from a read event that was forced. -/
def Wanted (events interest : EventMask) (forced : Bool) : Prop :=
  (events.read = true → interest.read = true ∨ forced = true) ∧
    (events.write = true → interest.write = true) ∧
    (events.error = true → interest.error = true) ∧
    (events.dontClose = true → interest.dontClose = true)

/-- A function is called for an installation that was made and not removed, and
after a change of the interest only with wanted events. -/
def CallsAllowed (trace : List Event) : Prop :=
  ∀ before generation events interest rearmed forced after,
    trace = before ++ .called generation events interest rearmed forced :: after →
      .installed generation ∈ before ∧ .removed generation ∉ before ∧
        (rearmed = true → Wanted events interest forced)

structure Sound (st : Registry) : Prop where
  node : ∀ fd node, st.nodes fd = some node →
    (st.heap node.fde).active = true ∧ (st.heap node.fde).fd = some fd ∧
      node.pollIn = (st.heap node.fde).fde.state.read ∧
      node.pollOut = (st.heap node.fde).fde.state.write
  keyed : ∀ f, (st.heap f).active = true →
    ∃ fd node, (st.heap f).fd = some fd ∧ st.nodes fd = some node ∧ node.fde = f
  listed : ∀ f, f ∈ st.pending ↔ (st.heap f).fde.pending = true
  once : st.pending.Nodup
  live : ∀ f, (st.heap f).fde.pending = true → (st.heap f).active = true
  rearmed : ∀ f, (st.heap f).rearmed = true → (st.heap f).fde.pending = true ∧
    Wanted (st.heap f).fde.events (st.heap f).fde.state (st.heap f).forced
  fresh : ∀ f, (st.heap f).active = true → (st.heap f).generation < st.generations
  unique : ∀ f g, (st.heap f).active = true → (st.heap g).active = true →
    (st.heap f).generation = (st.heap g).generation → f = g
  present : ∀ f, (st.heap f).active = true →
    .installed (st.heap f).generation ∈ st.trace ∧
      .removed (st.heap f).generation ∉ st.trace
  past : ∀ generation, .removed generation ∈ st.trace → generation < st.generations
  calls : CallsAllowed st.trace

theorem CallsAllowed.append {trace : List Event} (h : CallsAllowed trace) {event : Event}
    (hevent : ∀ generation events interest rearmed forced,
      event = .called generation events interest rearmed forced →
        .installed generation ∈ trace ∧ .removed generation ∉ trace ∧
          (rearmed = true → Wanted events interest forced)) :
    CallsAllowed (trace ++ [event]) := by
  intro before generation events interest rearmed forced after hsplit
  rcases Histories.split_append hsplit with ⟨middle, hold, -⟩ | ⟨middle, hnew, hbefore⟩
  · exact h before generation events interest rearmed forced middle hold
  · cases middle with
    | nil =>
        obtain ⟨hcalled, -⟩ := List.cons.inj hnew
        rw [hbefore, List.append_nil]
        exact hevent _ _ _ _ _ hcalled
    | cons other middle =>
        have := congrArg List.length hnew
        simp at this

/-- The map has a node for every active fdevent, with its interest. -/
structure Mapped (nodes : Nat → Option PollNode) (heap : FdeventRef → Entry) : Prop where
  node : ∀ fd node, nodes fd = some node →
    (heap node.fde).active = true ∧ (heap node.fde).fd = some fd ∧
      node.pollIn = (heap node.fde).fde.state.read ∧
      node.pollOut = (heap node.fde).fde.state.write
  keyed : ∀ f, (heap f).active = true →
    ∃ fd node, (heap f).fd = some fd ∧ nodes fd = some node ∧ node.fde = f

/-- What holds of one fdevent, after the installations in the history. -/
structure EntryOk (generations : Nat) (trace : List Event) (a : Entry) : Prop where
  live : a.fde.pending = true → a.active = true
  rearmed : a.rearmed = true → a.fde.pending = true ∧ Wanted a.fde.events a.fde.state a.forced
  fresh : a.active = true → a.generation < generations
  present : a.active = true →
    .installed a.generation ∈ trace ∧ .removed a.generation ∉ trace

section Mapped

variable {nodes : Nat → Option PollNode} {heap : FdeventRef → Entry} {f : FdeventRef} {fd : Nat}

theorem Mapped.fd_eq_iff (h : Mapped nodes heap) (hactive : (heap f).active = true)
    (hfd : (heap f).fd = some fd) (g : FdeventRef) (hg : (heap g).active = true) :
    (heap g).fd = some fd ↔ g = f := by
  constructor
  · intro hsame
    obtain ⟨fd₁, node₁, hkey₁, hnode₁, rfl⟩ := h.keyed f hactive
    obtain ⟨fd₂, node₂, hkey₂, hnode₂, rfl⟩ := h.keyed g hg
    obtain rfl := Option.some.inj (hfd.symm.trans hkey₁)
    obtain rfl := Option.some.inj (hsame.symm.trans hkey₂)
    rw [Option.some.inj (hnode₁.symm.trans hnode₂)]
  · rintro rfl
    exact hfd

theorem Mapped.fd_eq_iff_of_free (h : Mapped nodes heap) (hfree : nodes fd = none)
    (hidle : (heap f).active = false) (g : FdeventRef) (hg : (heap g).active = true) :
    (heap g).fd = some fd ↔ g = f := by
  constructor
  · intro hsame
    obtain ⟨fd', node, hkey, hnode, -⟩ := h.keyed g hg
    obtain rfl := Option.some.inj (hsame.symm.trans hkey)
    simp [hfree] at hnode
  · rintro rfl
    simp [hidle] at hg

/-- The descriptor that belongs to one fdevent gets the node of its new state, or none. -/
theorem Mapped.update (h : Mapped nodes heap) {a : Entry} {node : Option PollNode}
    (hown : ∀ g, (heap g).active = true → ((heap g).fd = some fd ↔ g = f))
    (ha : a.active = true → a.fd = some fd ∧
      node = some ⟨f, a.fde.state.read, a.fde.state.write⟩)
    (hidle : a.active = false → node = none) :
    Mapped (Function.update nodes fd node) (Function.update heap f a) := by
  constructor
  · intro fd' node' hnode'
    rcases eq_or_ne fd' fd with rfl | hne
    · rw [Function.update_self] at hnode'
      cases hactive : a.active with
      | false => simp [hidle hactive] at hnode'
      | true =>
          obtain ⟨hfd, hnode⟩ := ha hactive
          obtain rfl := Option.some.inj (hnode.symm.trans hnode')
          simp [hactive, hfd]
    · rw [Function.update_of_ne hne] at hnode'
      obtain ⟨hactive, hfd, hinterest⟩ := h.node fd' node' hnode'
      have hother : node'.fde ≠ f := fun heq =>
        hne (Option.some.inj (hfd.symm.trans ((hown _ hactive).mpr heq)))
      rw [Function.update_of_ne hother]
      exact ⟨hactive, hfd, hinterest⟩
  · intro g hg
    rcases eq_or_ne g f with rfl | hne
    · rw [Function.update_self] at hg ⊢
      obtain ⟨hfd, hnode⟩ := ha hg
      exact ⟨fd, _, hfd, by rw [Function.update_self, hnode], rfl⟩
    · rw [Function.update_of_ne hne] at hg ⊢
      obtain ⟨fd', node', hkey, hnode', hfde⟩ := h.keyed g hg
      refine ⟨fd', node', hkey, ?_, hfde⟩
      rw [Function.update_of_ne, hnode']
      rintro rfl
      exact hne ((hown g hg).mp hkey)

end Mapped

namespace Sound

variable {st : Registry}

theorem initial : Sound EventRegistry.initial := by
  constructor <;> simp [EventRegistry.initial, blankEntry, EventInterest.fdeventInstall,
    CallsAllowed]

theorem mapped (h : Sound st) : Mapped st.nodes st.heap := ⟨h.node, h.keyed⟩

theorem entry (h : Sound st) (f : FdeventRef) : EntryOk st.generations st.trace (st.heap f) :=
  ⟨h.live f, h.rearmed f, h.fresh f, h.present f⟩

/-- One fdevent is replaced, together with its node and its place in the pending list. -/
theorem replace (h : Sound st) {f : FdeventRef} {a : Entry} {nodes : Nat → Option PollNode}
    {pending : List FdeventRef} {generations : Nat} {trace : List Event}
    (hmapped : Mapped nodes (Function.update st.heap f a))
    (hself : f ∈ pending ↔ a.fde.pending = true)
    (hothers : ∀ g, g ≠ f → (g ∈ pending ↔ g ∈ st.pending)) (honce : pending.Nodup)
    (ha : EntryOk generations trace a)
    (hkept : ∀ g, g ≠ f → EntryOk generations trace (st.heap g))
    (hunique : a.active = true → ∀ g, g ≠ f → (st.heap g).active = true →
      (st.heap g).generation ≠ a.generation)
    (hpast : ∀ generation, .removed generation ∈ trace → generation < generations)
    (hcalls : CallsAllowed trace) :
    Sound { st with
      heap := Function.update st.heap f a
      nodes := nodes
      pending := pending
      generations := generations
      trace := trace } := by
  have hentry : ∀ g, EntryOk generations trace (Function.update st.heap f a g) := by
    intro g
    rcases eq_or_ne g f with rfl | hne
    · rwa [Function.update_self]
    · rw [Function.update_of_ne hne]
      exact hkept g hne
  refine ⟨hmapped.node, hmapped.keyed, ?_, honce, fun g => (hentry g).live,
    fun g => (hentry g).rearmed, fun g => (hentry g).fresh, ?_, fun g => (hentry g).present,
    hpast, hcalls⟩
  · intro g
    rcases eq_or_ne g f with rfl | hne
    · simpa using hself
    · simp only [Function.update_of_ne hne]
      rw [hothers g hne]
      exact h.listed g
  · intro g k hg hk hsame
    dsimp only at hg hk hsame
    rcases eq_or_ne g f with rfl | hgne <;> rcases eq_or_ne k g with rfl | hkne
    · rfl
    · rw [Function.update_self] at hg hsame
      rw [Function.update_of_ne hkne] at hk hsame
      exact absurd hsame.symm (hunique hg k hkne hk)
    · rfl
    · rw [Function.update_of_ne hgne] at hg hsame
      rcases eq_or_ne k f with rfl | hkf
      · rw [Function.update_self] at hk hsame
        exact absurd hsame (hunique hk g hgne hg)
      · rw [Function.update_of_ne hkf] at hk hsame
        exact h.unique g k hg hk hsame

theorem change (h : Sound st) {f : FdeventRef} {fd : Nat} {a : Entry}
    {nodes : Nat → Option PollNode} {pending : List FdeventRef}
    (hactive : (st.heap f).active = true) (hfd : (st.heap f).fd = some fd)
    (ha : a.active = true ∧ a.fd = some fd ∧ a.generation = (st.heap f).generation)
    (hrearmed : a.rearmed = true →
      a.fde.pending = true ∧ Wanted a.fde.events a.fde.state a.forced)
    (hnodes : nodes = Function.update st.nodes fd
      (some ⟨f, a.fde.state.read, a.fde.state.write⟩))
    (hself : f ∈ pending ↔ a.fde.pending = true)
    (hothers : ∀ g, g ≠ f → (g ∈ pending ↔ g ∈ st.pending)) (honce : pending.Nodup) :
    Sound { st with heap := Function.update st.heap f a, nodes := nodes, pending := pending } := by
  obtain ⟨hstill, hkey, hgeneration⟩ := ha
  subst hnodes
  refine h.replace ?_ hself hothers honce ?_ (fun g _ => h.entry g) ?_ h.past h.calls
  · refine h.mapped.update (h.mapped.fd_eq_iff hactive hfd) (fun _ => ⟨hkey, rfl⟩) ?_
    intro hidle
    simp [hstill] at hidle
  · refine ⟨fun _ => hstill, hrearmed, fun _ => ?_, fun _ => ?_⟩
    · rw [hgeneration]
      exact h.fresh f hactive
    · rw [hgeneration]
      exact h.present f hactive
  · intro _ g hne hg hsame
    exact hne (h.unique g f hg hactive (hsame.trans hgeneration))

theorem called (h : Sound st) {f : FdeventRef} (hactive : (st.heap f).active = true)
    {events interest : EventMask} {rearmed forced : Bool}
    (hwanted : rearmed = true → Wanted events interest forced) :
    Sound { st with
      trace := st.trace ++ [.called (st.heap f).generation events interest rearmed forced]
      current := some f } := by
  obtain ⟨hinstalled, hremoved⟩ := h.present f hactive
  refine ⟨h.node, h.keyed, h.listed, h.once, h.live, h.rearmed, h.fresh, h.unique, ?_, ?_, ?_⟩
  · intro g hg
    obtain ⟨hmade, hkept⟩ := h.present g hg
    simp [hmade, hkept]
  · intro generation hgeneration
    exact h.past generation (by simpa using hgeneration)
  · apply h.calls.append
    intro generation events' interest' rearmed' forced' heq
    cases heq
    exact ⟨hinstalled, hremoved, hwanted⟩

theorem nodes_eq (h : Sound st) {f : FdeventRef} {fd : Nat}
    (hactive : (st.heap f).active = true) (hfd : (st.heap f).fd = some fd) :
    st.nodes fd = some ⟨f, (st.heap f).fde.state.read, (st.heap f).fde.state.write⟩ := by
  obtain ⟨fd', node, hkey, hnode, hfde⟩ := h.keyed f hactive
  rw [hfd] at hkey
  obtain rfl := Option.some.inj hkey
  obtain ⟨-, -, hin, hout⟩ := h.node fd node hnode
  rw [hnode]
  cases node with
  | mk fde pollIn pollOut =>
      simp only at hfde hin hout
      subst hfde hin hout
      rfl

theorem touch (h : Sound st) {f : FdeventRef} {a : Entry} {pending : List FdeventRef}
    (hactive : (st.heap f).active = true)
    (ha : a.active = true ∧ a.fd = (st.heap f).fd ∧
      a.generation = (st.heap f).generation ∧ a.fde.state = (st.heap f).fde.state)
    (hrearmed : a.rearmed = true →
      a.fde.pending = true ∧ Wanted a.fde.events a.fde.state a.forced)
    (hself : f ∈ pending ↔ a.fde.pending = true)
    (hothers : ∀ g, g ≠ f → (g ∈ pending ↔ g ∈ st.pending)) (honce : pending.Nodup) :
    Sound { st with heap := Function.update st.heap f a, pending := pending } := by
  obtain ⟨fd, node, hfd, hnode, hfde⟩ := h.keyed f hactive
  have hnodes : st.nodes = Function.update st.nodes fd
      (some ⟨f, a.fde.state.read, a.fde.state.write⟩) := by
    rw [ha.2.2.2, ← h.nodes_eq hactive hfd, Function.update_eq_self]
  exact h.change hactive hfd ⟨ha.1, ha.2.1.trans hfd, ha.2.2.1⟩ hrearmed hnodes hself
    hothers honce

theorem fdeventInstall (h : Sound st) {f : FdeventRef} {fd : Nat}
    (hfree : st.nodes fd = none) (hidle : (st.heap f).active = false) :
    Sound (st.fdeventInstall f fd) := by
  have hnew : ∀ {generation : Nat}, .removed generation ∈ st.trace ++ [.installed st.generations] →
      generation < st.generations := fun hremoved => h.past _ (by simpa using hremoved)
  refine h.replace ?_ ?_ (fun _ _ => Iff.rfl) h.once ?_ ?_ ?_ ?_ ?_
  · refine h.mapped.update (h.mapped.fd_eq_iff_of_free hfree hidle) (fun _ => ⟨rfl, rfl⟩) ?_
    intro hnone
    cases hnone
  · rw [h.listed f]
    constructor
    · intro hpending
      rw [h.live f hpending] at hidle
      cases hidle
    · intro hpending
      cases hpending
  · refine ⟨fun _ => rfl, ?_, fun _ => Nat.lt_succ_self _, fun _ => ⟨by simp, ?_⟩⟩
    · intro hrearmed
      cases hrearmed
    · exact fun hremoved => Nat.lt_irrefl _ (hnew hremoved)
  · intro g _
    have hentry := h.entry g
    refine ⟨hentry.live, hentry.rearmed, fun hg => Nat.lt_succ_of_lt (hentry.fresh hg), ?_⟩
    intro hg
    obtain ⟨hmade, hkept⟩ := hentry.present hg
    simp [hmade, hkept]
  · exact fun _ g _ hg => Nat.ne_of_lt (h.fresh g hg)
  · exact fun generation hremoved => Nat.lt_succ_of_lt (hnew hremoved)
  · apply h.calls.append
    intro generation events interest rearmed forced heq
    cases heq

theorem fdeventCreate (h : Sound st) {f : FdeventRef} {fd : Nat}
    (hfree : st.nodes fd = none) (hidle : (st.heap f).active = false) :
    Sound (st.fdeventCreate f fd) := by
  have hnew := h.fdeventInstall hfree hidle
  apply hnew.touch
  · simp [Registry.fdeventInstall]
  · simp [Registry.fdeventInstall]
  · simp [Registry.fdeventInstall]
  · exact hnew.listed f
  · exact fun _ _ => Iff.rfl
  · exact hnew.once

theorem mem_unlisted (h : Sound st) (f g : FdeventRef) :
    g ∈ (if (st.heap f).fde.pending = true then st.pending.filter (· ≠ f) else st.pending) ↔
      g ≠ f ∧ g ∈ st.pending := by
  split
  · simp [and_comm]
  · rename_i hnot
    refine ⟨fun hg => ⟨?_, hg⟩, And.right⟩
    rintro rfl
    exact hnot ((h.listed g).mp hg)

theorem fdeventRemove (h : Sound st) (f : FdeventRef) : Sound (st.fdeventRemove f) := by
  unfold Registry.fdeventRemove
  dsimp only
  split
  · rename_i hactive
    obtain ⟨fd, -, hfd, -⟩ := h.keyed f hactive
    rw [show Registry.erase st.nodes (st.heap f).fd = Function.update st.nodes fd none by
      rw [hfd, Registry.erase]]
    refine h.replace ?_ ?_ ?_ ?_ ?_ ?_ ?_ ?_ ?_
    · refine h.mapped.update (h.mapped.fd_eq_iff hactive hfd) ?_ fun _ => rfl
      intro hremoved
      cases hremoved
    · rw [h.mem_unlisted]
      simp
    · intro g hne
      rw [h.mem_unlisted]
      exact and_iff_right hne
    · split
      · exact h.once.filter _
      · exact h.once
    · constructor <;> simp
    · intro g hne
      have hentry := h.entry g
      refine ⟨hentry.live, hentry.rearmed, hentry.fresh, fun hg => ?_⟩
      obtain ⟨hmade, hkept⟩ := hentry.present hg
      have hother : (st.heap g).generation ≠ (st.heap f).generation :=
        fun hsame => hne (h.unique g f hg hactive hsame)
      simp [hmade, hkept, hother]
    · intro hremoved
      cases hremoved
    · intro generation hremoved
      rcases List.mem_append.mp hremoved with hold | hnew
      · exact h.past generation hold
      · obtain rfl := Event.removed.inj (List.mem_singleton.mp hnew)
        exact h.fresh f hactive
    · apply h.calls.append
      intro generation events interest rearmed forced heq
      cases heq
  · exact h

theorem halt (h : Sound st) : Sound st.halt :=
  ⟨h.node, h.keyed, h.listed, h.once, h.live, h.rearmed, h.fresh, h.unique, h.present,
    h.past, h.calls⟩

theorem fdeventDestroy (h : Sound st) (f : FdeventRef) : Sound (st.fdeventDestroy f) := by
  unfold Registry.fdeventDestroy
  split
  · exact h.fdeventRemove f
  · exact h.halt

theorem wanted_inter (events interest : EventMask) :
    Wanted (events.inter interest) interest false := by
  simp only [Wanted, EventMask.inter, Bool.and_eq_true]
  exact ⟨fun hbit => .inl hbit.2, And.right, And.right, And.right⟩

theorem wanted_fdeventSet {fde : Fdevent} {events : EventMask} (hchanged : fde.state ≠ events)
    (hpending : (EventInterest.fdeventSet fde events).pending = true) :
    fde.pending = true ∧ Wanted (EventInterest.fdeventSet fde events).events events false := by
  simp only [EventInterest.fdeventSet, if_neg hchanged] at hpending ⊢
  split
  · rename_i hold
    exact ⟨hold, wanted_inter _ _⟩
  · rename_i hold
    simp only [if_neg hold] at hpending
    exact absurd hpending hold

theorem fdeventSet (h : Sound st) (f : FdeventRef) (events : EventMask) :
    Sound (st.fdeventSet f events) := by
  unfold Registry.fdeventSet
  dsimp only
  split
  · exact h
  · split
    · exact h.halt
    · rename_i hchanged hactive
      have hactive : (st.heap f).active = true := by simpa using hactive
      split
      · exact h.halt
      · rename_i fd hfd
        split
        · exact h.halt
        · have hnode := h.nodes_eq hactive hfd
          apply h.change hactive hfd
          · exact ⟨hactive, hfd, rfl⟩
          · intro hrearmed
            refine ⟨hrearmed, ?_⟩
            rw [fdeventSet_state]
            exact (wanted_fdeventSet hchanged hrearmed).2
          · simp only [Registry.updateNode, hnode, Option.map_some, fdeventSet_state]
          · split
            · rename_i hleft
              simp only [Bool.and_eq_true, Bool.not_eq_true'] at hleft
              simp [hleft.2]
            · rename_i hkept
              simp only [Bool.and_eq_true, Bool.not_eq_true', not_and, Bool.not_eq_false] at hkept
              rw [h.listed f]
              exact ⟨hkept, fun hpending => (wanted_fdeventSet hchanged hpending).1⟩
          · intro g hne
            split
            · simp [hne]
            · exact Iff.rfl
          · split
            · exact h.once.filter _
            · exact h.once

/-- One ready descriptor whose fdevent is not pending yet. -/
theorem processOne (h : Sound st) {result : Nat × PollResult}
    (hidle : ∀ node, st.nodes result.1 = some node → node.fde ∉ st.pending) :
    Sound (st.processOne result) := by
  unfold Registry.processOne
  split
  · exact h
  · rename_i hevents
    split
    · exact h.halt
    · rename_i node hnode
      have hnot := hidle node hnode
      have hactive := (h.node _ _ hnode).1
      apply h.touch hactive
      · exact ⟨hactive, rfl, rfl, fdeventProcess_state _ _⟩
      · intro hrearmed
        exact absurd ((h.listed _).mpr (h.rearmed _ hrearmed).1) hnot
      · simp [EventInterest.fdeventProcess, hevents]
      · intro g hne
        simp [hne]
      · rw [List.nodup_append]
        refine ⟨h.once, by simp, ?_⟩
        intro g hg k hk
        obtain rfl := List.mem_singleton.mp hk
        exact fun heq => hnot (heq ▸ hg)

theorem nodes_processOne (st : Registry) (result : Nat × PollResult) :
    (st.processOne result).nodes = st.nodes := by
  unfold Registry.processOne
  split
  · rfl
  · split
    · rfl
    · rfl

theorem mem_pending_processOne {result : Nat × PollResult} {f : FdeventRef}
    (hf : f ∈ (st.processOne result).pending) :
    f ∈ st.pending ∨ ∃ node, st.nodes result.1 = some node ∧ f = node.fde := by
  unfold Registry.processOne at hf
  split at hf
  · exact .inl hf
  · split at hf
    · exact .inl hf
    · rename_i node hnode
      rcases List.mem_append.mp hf with hold | hnew
      · exact .inl hold
      · exact .inr ⟨node, hnode, List.mem_singleton.mp hnew⟩

theorem fdeventProcess (h : Sound st) (results : List (Nat × PollResult))
    (hkeys : (results.map Prod.fst).Nodup)
    (hidle : ∀ fd ∈ results.map Prod.fst, ∀ node, st.nodes fd = some node →
      node.fde ∉ st.pending) : Sound (st.fdeventProcess results) := by
  unfold Registry.fdeventProcess
  induction results generalizing st with
  | nil => exact h
  | cons result results ih =>
      rw [List.map_cons, List.nodup_cons] at hkeys
      rw [List.foldl_cons]
      apply ih (h.processOne (hidle result.1 (by simp))) hkeys.2
      intro fd hfd node hnode
      rw [nodes_processOne] at hnode
      intro hpending
      rcases mem_pending_processOne hpending with hold | ⟨other, hother, hsame⟩
      · exact hidle fd (by simp [hfd]) node hnode hold
      · have hkey := (h.node fd node hnode).2.1
        rw [hsame, (h.node _ _ hother).2.1] at hkey
        exact hkeys.1 (Option.some.inj hkey ▸ hfd)

theorem fdeventCallFdfunc (h : Sound st) {f : FdeventRef} {a : Entry}
    {pending : List FdeventRef} (hactive : (st.heap f).active = true)
    (ha : a.active = true ∧ a.fd = (st.heap f).fd ∧
      a.generation = (st.heap f).generation ∧ a.fde.state = (st.heap f).fde.state)
    (hwanted : a.rearmed = true → Wanted a.fde.events a.fde.state a.forced)
    (hself : f ∉ pending) (hothers : ∀ g, g ≠ f → (g ∈ pending ↔ g ∈ st.pending))
    (honce : pending.Nodup) :
    Sound { st with
      heap := Function.update st.heap f
        { a with fde := fdeventTake a.fde, rearmed := false, forced := false }
      pending := pending
      trace := st.trace ++ [.called a.generation a.fde.events a.fde.state a.rearmed a.forced]
      current := some f } := by
  have hchanged : Sound { st with
      heap := Function.update st.heap f
        { a with fde := fdeventTake a.fde, rearmed := false, forced := false }
      pending := pending } := by
    apply h.touch hactive
    · exact ha
    · intro hfalse
      cases hfalse
    · simpa [fdeventTake] using hself
    · exact hothers
    · exact honce
  have hcalled := hchanged.called (f := f) (by simpa using ha.1) hwanted
  simpa using hcalled

theorem dispatch (h : Sound st) : Sound st.dispatch := by
  unfold Registry.dispatch
  split
  · exact h
  · rename_i f rest hpending
    have honce := h.once
    rw [hpending, List.nodup_cons] at honce
    have hbit : (st.heap f).fde.pending = true := (h.listed f).mp (by rw [hpending]; simp)
    have hcalled := h.fdeventCallFdfunc (h.live f hbit) (a := st.heap f)
      ⟨h.live f hbit, rfl, rfl, rfl⟩ (fun hrearmed => (h.rearmed f hrearmed).2) honce.1
      (fun g hne => by rw [hpending]; simp [hne]) honce.2
    unfold Registry.fdeventCallFdfunc
    dsimp only
    rw [if_pos hbit]
    exact hcalled

theorem wanted_force {events interest : EventMask} {forced : Bool}
    (h : Wanted events interest forced) : Wanted (events.union .fdeRead) interest true := by
  simp only [Wanted, EventMask.union, EventMask.fdeRead, EventMask.empty, Bool.or_false] at h ⊢
  exact ⟨fun _ => .inr trivial, h.2⟩

theorem fdeventSubprocEventFunc (h : Sound st) (subprocFd : Nat) (dataLeft : Bool) :
    Sound (st.fdeventSubprocEventFunc subprocFd dataLeft) := by
  unfold Registry.fdeventSubprocEventFunc
  split
  · exact h
  · rename_i node hnode
    have hactive := (h.node _ _ hnode).1
    dsimp only
    split
    · apply h.touch hactive
      · exact ⟨hactive, rfl, rfl, rfl⟩
      · exact h.rearmed node.fde
      · exact h.listed node.fde
      · exact fun _ _ => Iff.rfl
      · exact h.once
    · simp only [Registry.modify, Function.update_self, Function.update_idem]
      split
      · rename_i hpending
        apply h.touch hactive
        · exact ⟨hactive, rfl, rfl, rfl⟩
        · intro hrearmed
          exact ⟨rfl, wanted_force (h.rearmed _ hrearmed).2⟩
        · simpa using (h.listed node.fde).mpr hpending
        · exact fun _ _ => Iff.rfl
        · exact h.once
      · rename_i hpending
        unfold Registry.fdeventCallFdfunc
        simp only [Function.update_self, Function.update_idem, if_true]
        have hself : node.fde ∉ st.pending := fun hmem => hpending ((h.listed _).mp hmem)
        have hnever : (st.heap node.fde).rearmed ≠ true :=
          fun hrearmed => hpending (h.rearmed _ hrearmed).1
        exact h.fdeventCallFdfunc hactive
          (a :=
            { st.heap node.fde with
              fde :=
                { state := (st.heap node.fde).fde.state
                  events := (st.heap node.fde).fde.events.union .fdeRead
                  pending := true
                  forceEof := true }
              forced := true })
          ⟨hactive, rfl, rfl, rfl⟩ (fun hrearmed => absurd hrearmed hnever) hself
          (fun _ _ => Iff.rfl) h.once

theorem step (h : Sound st) {action : Action} (hallowed : Allowed st action) :
    Sound (step st action) := by
  cases action with
  | install f fd => exact h.fdeventInstall hallowed.1 hallowed.2
  | create f fd => exact h.fdeventCreate hallowed.1 hallowed.2
  | remove f => exact h.fdeventRemove f
  | destroy f => exact h.fdeventDestroy f
  | set f events => exact h.fdeventSet f events
  | add f events => exact h.fdeventSet f _
  | del f events => exact h.fdeventSet f _
  | process results =>
      apply h.fdeventProcess results hallowed.2.1
      intro fd _ node _
      rw [hallowed.1]
      simp
  | dispatch => exact h.dispatch
  | subprocSetup f fd =>
      have hset := (h.fdeventCreate hallowed.2.1 hallowed.2.2).fdeventSet f
        (((st.fdeventCreate f fd).heap f).fde.state.union .fdeRead)
      exact ⟨hset.node, hset.keyed, hset.listed, hset.once, hset.live, hset.rearmed,
        hset.fresh, hset.unique, hset.present, hset.past, hset.calls⟩
  | subprocExit subprocFd dataLeft => exact h.fdeventSubprocEventFunc subprocFd dataLeft

end Sound

/-- In every run, the poll map, the interest sets and the pending list agree,
and functions are called only for fdevents that are still installed; after a
change of its interest, a pending fdevent is called with wanted events, or with
the read event that the exit of its shell forced since the change. -/
theorem registry_sound {st : Registry} (hreach : registrySystem.Reachable st) :
    (∀ fd node, st.nodes fd = some node →
      (st.heap node.fde).active = true ∧ (st.heap node.fde).fd = some fd) ∧
    (∀ f, (st.heap f).active = true →
      ∃ fd node, (st.heap f).fd = some fd ∧ st.nodes fd = some node ∧ node.fde = f) ∧
    (∀ fd node, st.nodes fd = some node →
      node.pollIn = (st.heap node.fde).fde.state.read ∧
        node.pollOut = (st.heap node.fde).fde.state.write) ∧
    (∀ f, st.pending.count f = if (st.heap f).fde.pending then 1 else 0) ∧
    CallsAllowed st.trace := by
  have h : Sound st := hreach.invariant
    (fun st hinitial => hinitial ▸ Sound.initial)
    fun st action hst henabled _ => hst.step henabled.2
  refine ⟨?_, h.keyed, ?_, ?_, h.calls⟩
  · intro fd node hnode
    exact ⟨(h.node fd node hnode).1, (h.node fd node hnode).2.1⟩
  · intro fd node hnode
    exact (h.node fd node hnode).2.2
  · intro f
    rw [h.once.count]
    simp only [h.listed f]

def readWrite : EventMask := EventMask.fdeRead.union .fdeWrite

/-- A descriptor that is ready in both directions loses interest in reading
while it waits, is removed after its call, and its number is installed again. -/
def rearmRun : List Action :=
  [.install 1 5, .create 2 7, .set 1 readWrite, .add 2 .fdeRead,
    .process [(7, .readable), (5, ⟨true, true, false, false, false, false⟩)],
    .dispatch, .del 1 .fdeRead, .dispatch, .remove 1, .install 3 5]

theorem registry_sound_rearmRun :
    CallsAllowed (registrySystem.execute initial rearmRun).trace :=
  (registry_sound
    (System.reachableWhen_execute ⟨initial, rfl, .refl⟩ (by decide))).2.2.2.2

/-- The same descriptor belongs to a shell that exits while it waits. -/
def forcedRun : List Action :=
  [.subprocSetup 0 3, .install 1 5, .create 2 7, .set 1 readWrite, .add 2 .fdeRead,
    .process [(7, .readable), (3, .readable),
      (5, ⟨true, true, false, false, false, false⟩)],
    .dispatch, .set 1 .fdeWrite, .dispatch, .subprocExit 5 false, .dispatch]

theorem rearmed_read_forcedRun :
    ∃ st, registrySystem.Reachable st ∧
      .called 1 readWrite .fdeWrite true true ∈ st.trace ∧
      ¬ (readWrite.read = true → EventMask.fdeWrite.read = true) :=
  ⟨registrySystem.execute initial forcedRun,
    System.reachableWhen_execute ⟨initial, rfl, .refl⟩ (by decide), by decide, by decide⟩

end Adb.EventRegistry
