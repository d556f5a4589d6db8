import Adb.DescriptorIo
import Adb.EventInterest
import Adb.TransitionSystems
import Mathlib.Data.List.Count
import Mathlib.Data.List.Nodup

/-!
The processes of jdwp_service.cpp.  A debugger gets one end of a socket pair, and
the other end waits in `out_fds` until it can be sent to the process.
-/

namespace Adb.JdwpHandoff

open Adb.DescriptorIo
open Adb.EventInterest
open Adb.TransitionSystems

/-- A `JdwpProcess` at its address, without its own socket.  Descriptors are
numbered in the order in which they are made, so that a number that the kernel
gives out again is another descriptor. -/
structure JdwpProcess where
  ref : Nat
  pid : Int
  fde : Fdevent
  outFds : List Nat
  deriving DecidableEq, Repr

/-- What happened to the descriptors: one was put into `out_fds`, one was sent, one
was closed, and a process was deleted and its socket closed. -/
inductive Event where
  | put (fd : Nat)
  | sent (fd : Nat)
  | closed (fd : Nat)
  | deleted (ref : Nat)
  deriving DecidableEq, Repr

/-- What `recv` returns. -/
inductive Received where
  | data (bytes : Bytes)
  | eof
  | again
  | failed
  deriving DecidableEq, Repr

/-- What an event brings: the events, what `recv` will return, and the results of
`set_file_block_mode(.., true)`, of `sendmsg` and of `set_file_block_mode(.., false)`. -/
structure Arrival where
  fdeRead : Bool
  fdeWrite : Bool
  received : List Received
  blocking : Bool
  sendmsg : Bool
  nonBlocking : Bool
  deriving DecidableEq, Repr

/-- `_jdwp_list`, the next addresses and descriptors, and the history. -/
structure Jdwp where
  list : List JdwpProcess
  nextRef : Nat
  nextFd : Nat
  trace : List Event

inductive Label where
  | accept
  | create (pid : Int) (socketpair : Bool)
  | event (ref : Nat) (arrival : Arrival)
  deriving DecidableEq, Repr

/-- The constructor of `JdwpProcess`. -/
def JdwpProcess.new (ref : Nat) : JdwpProcess where
  ref := ref
  pid := -1
  fde := fdeventAdd { fdeventInstall with state := { EventMask.empty with dontClose := true } }
    .fdeRead
  outFds := []

/-- How the part of `jdwp_process_event` for one event ends. -/
inductive Outcome where
  | goesOn
  | returns
  | closes
  deriving DecidableEq, Repr

/-- The loop that waits for the end of the connection; a script that is used up
stands for `EAGAIN`. -/
def drain : List Received → Outcome
  | [] => .returns
  | .data _ :: received => drain received
  | .again :: _ => .returns
  | .eof :: _ => .closes
  | .failed :: _ => .closes

namespace Jdwp

def initial : Jdwp := ⟨[], 0, 0, []⟩

def setProcess (st : Jdwp) (proc : JdwpProcess) : Jdwp :=
  { st with list := st.list.map fun p => if p.ref = proc.ref then proc else p }

/-- `jdwp_control_event` for a new connection. -/
def jdwpControlEvent (st : Jdwp) : Jdwp :=
  { st with list := st.list ++ [.new st.nextRef], nextRef := st.nextRef + 1 }

/-- `create_jdwp_connection_fd`. -/
def createJdwpConnectionFd (st : Jdwp) (pid : Int) (socketpair : Bool) :
    Option Nat × Jdwp :=
  match st.list.find? (·.pid = pid) with
  | none => (none, st)
  | some proc =>
      if socketpair then
        let outFds := proc.outFds ++ [st.nextFd + 1]
        let fde := if outFds.length = 1 then fdeventAdd proc.fde .fdeWrite else proc.fde
        let st := st.setProcess { proc with outFds := outFds, fde := fde }
        (some st.nextFd, { st with
          nextFd := st.nextFd + 2
          trace := st.trace ++ [.put (st.nextFd + 1)] })
      else (none, st)

/-- `RemoveFromList`, with the destructor, which closes what is in `out_fds`. -/
def removeFromList (st : Jdwp) (proc : JdwpProcess) : Jdwp :=
  { st with
    list := st.list.filter (·.ref ≠ proc.ref)
    trace := st.trace ++ .deleted proc.ref :: proc.outFds.map .closed }

section

variable (scanPid : Bytes → Option Int)

/-- `jdwp_process_event` for `FDE_READ`; `scanPid` is `sscanf` for the process id. -/
def readEvent (proc : JdwpProcess) (received : List Received) : JdwpProcess × Outcome :=
  if proc.pid < 0 then
    match received with
    | .data bytes :: _ =>
        if bytes.length = 4 then
          match scanPid bytes with
          | some pid => ({ proc with pid := pid }, .goesOn)
          | none => (proc, .closes)
        else (proc, .closes)
    | _ => (proc, .closes)
  else (proc, drain received)

/-- `jdwp_process_event` for `FDE_WRITE`.  A descriptor that was sent is closed, and
closed once more when it is taken out of the vector. -/
def writeEvent (st : Jdwp) (proc : JdwpProcess) (arrival : Arrival) : Jdwp :=
  match proc.outFds.getLast? with
  | none => st
  | some fd =>
      if !arrival.blocking then st.removeFromList proc
      else if !arrival.sendmsg then st.removeFromList proc
      else
        let st := { st with trace := st.trace ++ [Event.sent fd, Event.closed fd] }
        let proc := { proc with outFds := proc.outFds.dropLast }
        let st := { st with trace := st.trace ++ [Event.closed fd] }
        if !arrival.nonBlocking then st.removeFromList proc
        else if proc.outFds.isEmpty then
          st.setProcess { proc with fde := fdeventDel proc.fde .fdeWrite }
        else st.setProcess proc

def jdwpProcessEvent (st : Jdwp) (proc : JdwpProcess) (arrival : Arrival) : Jdwp :=
  let (proc, outcome) :=
    if arrival.fdeRead then readEvent scanPid proc arrival.received else (proc, .goesOn)
  match outcome with
  | .returns => st
  | .closes => st.removeFromList proc
  | .goesOn =>
      let st := st.setProcess proc
      if arrival.fdeWrite then st.writeEvent proc arrival else st

def next (st : Jdwp) : Label → Jdwp
  | .accept => st.jdwpControlEvent
  | .create pid socketpair => (st.createJdwpConnectionFd pid socketpair).2
  | .event ref arrival =>
      match st.list.find? (·.ref = ref) with
      | none => st
      | some proc => st.jdwpProcessEvent scanPid proc arrival

end

/-- The descriptors that wait in the vectors. -/
def held (st : Jdwp) : List Nat := st.list.flatMap (·.outFds)

def Enabled (st : Jdwp) : Label → Prop
  | .event ref _ => ∃ proc ∈ st.list, proc.ref = ref
  | _ => True

end Jdwp

/-- The connections of processes and of debuggers, and the events of the sockets, in
any order. -/
def jdwpSystem (scanPid : Bytes → Option Int) : System Jdwp Label where
  initial st := st = .initial
  enabled := Jdwp.Enabled
  next := Jdwp.next scanPid

/-- A descriptor is closed once, when it is in no vector any more. -/
def ClosedOnce (st : Jdwp) : Prop :=
  ∀ fd, .put fd ∈ st.trace →
    st.trace.count (.closed fd) = if fd ∈ st.held then 0 else 1

/-- The event sends a descriptor: the process goes on after `FDE_READ`, `FDE_WRITE` has
come, a descriptor is waiting, and the first two system calls succeed. -/
def SendsFd (scanPid : Bytes → Option Int) (st : Jdwp) : Label → Prop
  | .event ref arrival => ∃ proc ∈ st.list, proc.ref = ref ∧ proc.outFds ≠ [] ∧
      (arrival.fdeRead = true →
        (Jdwp.readEvent scanPid proc arrival.received).2 = .goesOn) ∧
      arrival.fdeWrite = true ∧ arrival.blocking = true ∧ arrival.sendmsg = true
  | _ => False

section Accounts

/-- The account of the descriptors: each is put into a vector once, it is sent or
still waits at most once, and it is closed once if it does not wait and once
more if it was sent. -/
structure Accounted (held : List Nat) (nextFd : Nat) (trace : List Event) :
    Prop where
  fresh : ∀ fd, nextFd ≤ fd → trace.count (.put fd) = 0
  once : ∀ fd, trace.count (.put fd) ≤ 1
  handed : ∀ fd, trace.count (.sent fd) + held.count fd ≤ trace.count (.put fd)
  closed : ∀ fd, trace.count (.closed fd) + held.count fd =
    trace.count (.put fd) + trace.count (.sent fd)

variable {held held' : List Nat} {nextFd : Nat} {trace : List Event}

theorem Accounted.leave (h : Accounted held nextFd trace) (events : List Event)
    (hput : ∀ fd, events.count (.put fd) = 0)
    (hhanded : ∀ fd, events.count (.sent fd) + held'.count fd ≤ held.count fd)
    (hclosed : ∀ fd, events.count (.closed fd) + held'.count fd =
      events.count (.sent fd) + held.count fd) :
    Accounted held' nextFd (trace ++ events) where
  fresh fd hfd := by
    rw [List.count_append, h.fresh fd hfd, hput]
  once fd := by
    rw [List.count_append, hput]
    exact h.once fd
  handed fd := by
    have hold := h.handed fd
    have hnew := hhanded fd
    rw [List.count_append, List.count_append, hput]
    omega
  closed fd := by
    have hold := h.closed fd
    have hnew := hclosed fd
    rw [List.count_append, List.count_append, List.count_append, hput]
    omega

theorem Accounted.put (h : Accounted held nextFd trace)
    (hheld : ∀ fd, held'.count fd = held.count fd + if fd = nextFd + 1 then 1 else 0) :
    Accounted held' (nextFd + 2) (trace ++ [.put (nextFd + 1)]) := by
  have hcount : ∀ fd, [Event.put (nextFd + 1)].count (.put fd) =
      if fd = nextFd + 1 then 1 else 0 := by
    intro fd
    rcases eq_or_ne fd (nextFd + 1) with rfl | hne
    · rw [if_pos rfl, List.count_singleton_self]
    · rw [if_neg hne, List.count_eq_zero, List.mem_singleton]
      exact fun heq => hne (Event.put.inj heq)
  have hother : ∀ fd, [Event.put (nextFd + 1)].count (.sent fd) = 0 ∧
      [Event.put (nextFd + 1)].count (.closed fd) = 0 := by
    intro fd
    exact ⟨rfl, rfl⟩
  constructor
  · intro fd hfd
    rw [List.count_append, h.fresh fd (by omega), hcount, if_neg (by omega)]
  · intro fd
    rw [List.count_append, hcount]
    split
    · rename_i hfd
      have hnone := h.fresh fd (by omega)
      omega
    · exact h.once fd
  · intro fd
    have hold := h.handed fd
    rw [List.count_append, List.count_append, hcount, hheld, (hother fd).1]
    omega
  · intro fd
    have hold := h.closed fd
    rw [List.count_append, List.count_append, List.count_append, hcount, hheld, (hother fd).1,
      (hother fd).2]
    omega

end Accounts

/-- The processes have different addresses, and wait for `FDE_WRITE` exactly while
there is something to send. -/
structure Tidy (list : List JdwpProcess) (nextRef : Nat) : Prop where
  refs : (list.map (·.ref)).Nodup
  fresh : ∀ proc ∈ list, proc.ref < nextRef
  interest : ∀ proc ∈ list, proc.fde.state.write = true ↔ proc.outFds ≠ []

/-- What holds after every step. -/
structure Consistent (st : Jdwp) : Prop where
  tidy : Tidy st.list st.nextRef
  accounted : Accounted st.held st.nextFd st.trace

section Steps

variable {scanPid : Bytes → Option Int} {st : Jdwp} {proc proc' : JdwpProcess}
  {list before after : List JdwpProcess} {nextRef : Nat}

open Jdwp

theorem Tidy.split (h : Tidy list nextRef) (hproc : proc ∈ list) :
    ∃ before after, list = before ++ proc :: after ∧
      ∀ p ∈ before ++ after, p.ref ≠ proc.ref := by
  obtain ⟨before, after, hlist⟩ := List.append_of_mem hproc
  refine ⟨before, after, hlist, ?_⟩
  have hrefs := h.refs
  rw [hlist, List.map_append, List.map_cons, List.nodup_middle, List.nodup_cons,
    ← List.map_append] at hrefs
  intro p hp href
  exact hrefs.1 (List.mem_map.mpr ⟨p, hp, href⟩)

theorem map_ref_split (hother : ∀ p ∈ before ++ after, p.ref ≠ proc.ref) :
    (before ++ proc :: after).map (fun p => if p.ref = proc.ref then proc' else p) =
      before ++ proc' :: after := by
  have hsame : ∀ list : List JdwpProcess, (∀ p ∈ list, p.ref ≠ proc.ref) →
      list.map (fun p => if p.ref = proc.ref then proc' else p) = list := by
    intro list hlist
    calc
      _ = list.map id := List.map_congr_left fun p hp => if_neg (hlist p hp)
      _ = list := List.map_id list
  rw [List.map_append, List.map_cons, if_pos rfl,
    hsame before fun p hp => hother p (List.mem_append_left _ hp),
    hsame after fun p hp => hother p (List.mem_append_right _ hp)]

theorem filter_ref_split (hother : ∀ p ∈ before ++ after, p.ref ≠ proc.ref) :
    (before ++ proc :: after).filter (·.ref ≠ proc.ref) = before ++ after := by
  rw [List.filter_append, List.filter_cons_of_neg (by simp), ← List.filter_append,
    List.filter_eq_self]
  intro p hp
  exact decide_eq_true (hother p hp)

theorem Tidy.setProcess (h : Tidy st.list st.nextRef) (hproc : proc ∈ st.list)
    (proc' : JdwpProcess) (href : proc'.ref = proc.ref)
    (hinterest : proc'.fde.state.write = true ↔ proc'.outFds ≠ []) :
    Tidy (st.setProcess proc').list st.nextRef ∧
      ∀ fd, (st.setProcess proc').held.count fd + proc.outFds.count fd =
        st.held.count fd + proc'.outFds.count fd := by
  obtain ⟨before, after, hlist, hother⟩ := h.split hproc
  have hlist' : (st.setProcess proc').list = before ++ proc' :: after := by
    rw [Jdwp.setProcess, href, hlist]
    exact map_ref_split hother
  have hmem : ∀ p ∈ before ++ proc' :: after, p = proc' ∨ p ∈ st.list := by
    intro p hp
    rw [hlist]
    rcases List.mem_append.mp hp with hp | hp
    · exact .inr (List.mem_append_left _ hp)
    · rcases List.mem_cons.mp hp with rfl | hp
      · exact .inl rfl
      · exact .inr (List.mem_append_right _ (List.mem_cons_of_mem _ hp))
  refine ⟨⟨?_, ?_, ?_⟩, ?_⟩
  · rw [hlist', List.map_append, List.map_cons, href]
    have hrefs := h.refs
    rwa [hlist, List.map_append, List.map_cons] at hrefs
  · rw [hlist']
    intro p hp
    rcases hmem p hp with rfl | hp
    · rw [href]
      exact h.fresh proc hproc
    · exact h.fresh p hp
  · rw [hlist']
    intro p hp
    rcases hmem p hp with rfl | hp
    · exact hinterest
    · exact h.interest p hp
  · intro fd
    rw [held, held, hlist', hlist]
    simp only [List.flatMap_append, List.flatMap_cons, List.count_append]
    omega

theorem Tidy.removeFromList (h : Tidy st.list st.nextRef) (hproc : proc ∈ st.list)
    (proc' : JdwpProcess) (href : proc'.ref = proc.ref) :
    Tidy (st.removeFromList proc').list st.nextRef ∧
      ∀ fd, (st.removeFromList proc').held.count fd + proc.outFds.count fd =
        st.held.count fd := by
  obtain ⟨before, after, hlist, hother⟩ := h.split hproc
  have hlist' : (st.removeFromList proc').list = before ++ after := by
    rw [Jdwp.removeFromList, href, hlist]
    exact filter_ref_split hother
  have hsublist : (before ++ after).Sublist st.list := by
    rw [hlist]
    exact List.Sublist.append (.refl _) (List.sublist_cons_self _ _)
  rw [hlist']
  refine ⟨⟨?_, ?_, ?_⟩, ?_⟩
  · exact h.refs.sublist (hsublist.map _)
  · exact fun p hp => h.fresh p (hsublist.subset hp)
  · exact fun p hp => h.interest p (hsublist.subset hp)
  · intro fd
    rw [held, held, hlist', hlist]
    simp only [List.flatMap_append, List.flatMap_cons, List.count_append]
    omega

theorem count_deleted (proc : JdwpProcess) (fd : Nat) :
    (.deleted proc.ref :: proc.outFds.map Event.closed).count (.put fd) = 0 ∧
      (.deleted proc.ref :: proc.outFds.map Event.closed).count (.sent fd) = 0 ∧
      (.deleted proc.ref :: proc.outFds.map Event.closed).count (.closed fd) =
        proc.outFds.count fd := by
  refine ⟨?_, ?_, ?_⟩
  · simp [List.count_eq_zero]
  · simp [List.count_eq_zero]
  · rw [List.count_cons_of_ne (by simp)]
    exact List.count_map_of_injective _ _ (fun _ _ => Event.closed.inj) fd

theorem Consistent.replace (h : Consistent st) (hproc : proc ∈ st.list)
    (proc' : JdwpProcess) (events : List Event) (href : proc'.ref = proc.ref)
    (hinterest : proc'.fde.state.write = true ↔ proc'.outFds ≠ [])
    (hput : ∀ fd, events.count (.put fd) = 0)
    (hhanded : ∀ fd, events.count (.sent fd) + proc'.outFds.count fd ≤ proc.outFds.count fd)
    (hclosed : ∀ fd, events.count (.closed fd) + proc'.outFds.count fd =
      events.count (.sent fd) + proc.outFds.count fd) :
    Consistent ({ st with trace := st.trace ++ events }.setProcess proc') := by
  obtain ⟨htidy, hheld⟩ := h.tidy.setProcess hproc proc' href hinterest
  refine ⟨htidy, h.accounted.leave events hput ?_ ?_⟩
  · intro fd
    have hfd := hhanded fd
    have hcount : ({ st with trace := st.trace ++ events }.setProcess proc').held.count fd +
      proc.outFds.count fd = _ := hheld fd
    omega
  · intro fd
    have hfd := hclosed fd
    have hcount : ({ st with trace := st.trace ++ events }.setProcess proc').held.count fd +
      proc.outFds.count fd = _ := hheld fd
    omega

theorem Consistent.remove (h : Consistent st) (hproc : proc ∈ st.list)
    (proc' : JdwpProcess) (events : List Event) (href : proc'.ref = proc.ref)
    (hput : ∀ fd, events.count (.put fd) = 0)
    (hhanded : ∀ fd, events.count (.sent fd) ≤ proc.outFds.count fd)
    (hclosed : ∀ fd, events.count (.closed fd) + proc'.outFds.count fd =
      events.count (.sent fd) + proc.outFds.count fd) :
    Consistent ({ st with trace := st.trace ++ events }.removeFromList proc') := by
  obtain ⟨htidy, hheld⟩ := h.tidy.removeFromList hproc proc' href
  have htrace : ({ st with trace := st.trace ++ events }.removeFromList proc').trace =
      st.trace ++ (events ++ .deleted proc'.ref :: proc'.outFds.map .closed) := by
    rw [Jdwp.removeFromList, List.append_assoc]
  refine ⟨htidy, ?_⟩
  rw [htrace]
  apply h.accounted.leave
  · intro fd
    rw [List.count_append, hput, (count_deleted proc' fd).1]
  · intro fd
    have hfd := hhanded fd
    have hcount : ({ st with trace := st.trace ++ events }.removeFromList proc').held.count fd +
      proc.outFds.count fd = _ := hheld fd
    rw [List.count_append, (count_deleted proc' fd).2.1]
    omega
  · intro fd
    have hfd := hclosed fd
    have hcount : ({ st with trace := st.trace ++ events }.removeFromList proc').held.count fd +
      proc.outFds.count fd = _ := hheld fd
    rw [List.count_append, List.count_append, (count_deleted proc' fd).2.1,
      (count_deleted proc' fd).2.2]
    omega

theorem consistent_accept (h : Consistent st) : Consistent st.jdwpControlEvent := by
  have hheld : st.jdwpControlEvent.held = st.held := by
    simp [held, jdwpControlEvent, JdwpProcess.new]
  refine ⟨⟨?_, ?_, ?_⟩, ?_⟩
  · rw [jdwpControlEvent, List.map_append, List.nodup_append]
    refine ⟨h.tidy.refs, List.nodup_singleton _, ?_⟩
    rintro r hr r' hr' rfl
    obtain ⟨p, hp, rfl⟩ := List.mem_map.mp hr
    have hfresh := h.tidy.fresh p hp
    rw [List.map_singleton, List.mem_singleton] at hr'
    exact absurd hr' (Nat.ne_of_lt hfresh)
  · intro p hp
    rcases List.mem_append.mp hp with hp | hp
    · exact Nat.lt_succ_of_lt (h.tidy.fresh p hp)
    · rw [List.mem_singleton.mp hp]
      exact Nat.lt_succ_self _
  · intro p hp
    rcases List.mem_append.mp hp with hp | hp
    · exact h.tidy.interest p hp
    · rw [List.mem_singleton.mp hp]
      simp [JdwpProcess.new, EventMask.union, EventMask.fdeRead, EventMask.empty]
  · rw [hheld]
    exact h.accounted

theorem count_single (n fd : Nat) : [n].count fd = if fd = n then 1 else 0 := by
  rcases eq_or_ne fd n with rfl | hne
  · rw [if_pos rfl, List.count_singleton_self]
  · rw [if_neg hne, List.count_eq_zero, List.mem_singleton]
    exact hne

theorem consistent_create (h : Consistent st) (pid : Int) (socketpair : Bool) :
    Consistent (st.createJdwpConnectionFd pid socketpair).2 := by
  rw [createJdwpConnectionFd]
  split
  · exact h
  · rename_i proc hfound
    have hproc := List.mem_of_find?_eq_some hfound
    have hinterest := h.tidy.interest proc hproc
    split
    · -- the first descriptor of a vector switches `FDE_WRITE` on
      have hwrite : (if (proc.outFds ++ [st.nextFd + 1]).length = 1 then
          fdeventAdd proc.fde .fdeWrite else proc.fde).state.write = true := by
        split
        · simp [EventMask.union, EventMask.fdeWrite]
        · rename_i hlength
          apply hinterest.mpr
          rintro hnil
          simp [hnil] at hlength
      have hnonempty : proc.outFds ++ [st.nextFd + 1] ≠ [] := by simp
      obtain ⟨htidy, hheld⟩ := h.tidy.setProcess hproc
        { proc with
          outFds := proc.outFds ++ [st.nextFd + 1]
          fde := if (proc.outFds ++ [st.nextFd + 1]).length = 1 then
            fdeventAdd proc.fde .fdeWrite else proc.fde }
        rfl (iff_of_true hwrite hnonempty)
      refine ⟨htidy, h.accounted.put ?_⟩
      intro fd
      have hcount := hheld fd
      rw [List.count_append, count_single] at hcount
      exact Nat.add_right_cancel (hcount.trans (by omega))
    · exact h

theorem consistent_writeEvent (h : Consistent st) (hproc : proc ∈ st.list) (arrival : Arrival) :
    Consistent (st.writeEvent proc arrival) := by
  have hplain : Consistent (st.removeFromList proc) := by
    have hremoved := h.remove hproc proc [] rfl (fun _ => rfl) (fun _ => Nat.zero_le _)
      fun _ => rfl
    rwa [List.append_nil] at hremoved
  rw [writeEvent]
  split
  · exact h
  · rename_i fd hlast
    split
    · exact hplain
    · split
      · exact hplain
      · have hout := List.dropLast_append_getLast? fd hlast
        have hcount : ∀ fd', proc.outFds.dropLast.count fd' + (if fd' = fd then 1 else 0) =
            proc.outFds.count fd' := by
          intro fd'
          rw [← count_single, ← List.count_append, hout]
        have hevents : ∀ fd', [Event.sent fd, .closed fd, .closed fd].count (.put fd') = 0 ∧
            [Event.sent fd, .closed fd, .closed fd].count (.sent fd') =
              (if fd' = fd then 1 else 0) ∧
            [Event.sent fd, .closed fd, .closed fd].count (.closed fd') =
              (if fd' = fd then 2 else 0) := by
          intro fd'
          rcases eq_or_ne fd' fd with rfl | hne
          · simp
          · simp [hne, hne.symm]
        have htrace : st.trace ++ [Event.sent fd, .closed fd] ++ [.closed fd] =
            st.trace ++ [.sent fd, .closed fd, .closed fd] := List.append_assoc _ _ _
        have hhanded : ∀ fd', [Event.sent fd, .closed fd, .closed fd].count (.sent fd') +
            proc.outFds.dropLast.count fd' ≤ proc.outFds.count fd' := by
          intro fd'
          apply Nat.le_of_eq
          rw [(hevents fd').2.1, ← hcount fd', Nat.add_comm]
        have hclosed : ∀ fd', [Event.sent fd, .closed fd, .closed fd].count (.closed fd') +
            proc.outFds.dropLast.count fd' =
              [Event.sent fd, .closed fd, .closed fd].count (.sent fd') +
                proc.outFds.count fd' := by
          intro fd'
          rw [(hevents fd').2.1, (hevents fd').2.2, ← hcount fd']
          split
          · omega
          · omega
        dsimp only
        rw [htrace]
        split
        · apply h.remove hproc
          · rfl
          · exact fun fd' => (hevents fd').1
          · exact fun fd' => Nat.le_trans (Nat.le_add_right _ _) (hhanded fd')
          · exact hclosed
        · split
          · rename_i hempty
            rw [List.isEmpty_iff] at hempty
            apply h.replace hproc
            · rfl
            · simp [hempty, EventMask.diff, EventMask.fdeWrite]
            · exact fun fd' => (hevents fd').1
            · exact hhanded
            · exact hclosed
          · rename_i hmore
            rw [List.isEmpty_iff] at hmore
            have hne : proc.outFds ≠ [] := by
              rintro hnil
              simp [hnil] at hmore
            apply h.replace hproc
            · rfl
            · exact iff_of_true ((h.tidy.interest proc hproc).mpr hne) hmore
            · exact fun fd' => (hevents fd').1
            · exact hhanded
            · exact hclosed

theorem readEvent_fields (scanPid : Bytes → Option Int) (proc : JdwpProcess)
    (received : List Received) :
    (readEvent scanPid proc received).1 =
      { proc with pid := (readEvent scanPid proc received).1.pid } := by
  unfold readEvent
  split
  · split
    · split
      · split
        · rfl
        · rfl
      · rfl
    · rfl
  · rfl

theorem consistent_event (h : Consistent st) (hproc : proc ∈ st.list) (arrival : Arrival) :
    Consistent (st.jdwpProcessEvent scanPid proc arrival) := by
  have hread : ∃ pid, (if arrival.fdeRead then readEvent scanPid proc arrival.received
      else (proc, .goesOn)).1 = { proc with pid := pid } := by
    split
    · exact ⟨_, readEvent_fields scanPid proc arrival.received⟩
    · exact ⟨proc.pid, rfl⟩
  rw [jdwpProcessEvent]
  generalize (if arrival.fdeRead then readEvent scanPid proc arrival.received
    else (proc, Outcome.goesOn)) = result at hread
  obtain ⟨proc', outcome⟩ := result
  obtain ⟨pid, rfl⟩ := hread
  cases outcome with
  | returns => exact h
  | closes =>
      have hremoved := h.remove hproc { proc with pid := pid } [] rfl (fun _ => rfl)
        (fun _ => Nat.zero_le _) fun _ => rfl
      rwa [List.append_nil] at hremoved
  | goesOn =>
      have hset := h.replace hproc { proc with pid := pid } [] rfl (h.tidy.interest proc hproc)
        (fun _ => rfl) (fun _ => by simp) fun _ => rfl
      rw [List.append_nil] at hset
      dsimp only
      split
      · apply consistent_writeEvent hset
        exact List.mem_map.mpr ⟨proc, hproc, if_pos rfl⟩
      · exact hset

theorem consistent_next (h : Consistent st) (label : Label) :
    Consistent (st.next scanPid label) := by
  cases label with
  | accept => exact consistent_accept h
  | create pid socketpair => exact consistent_create h pid socketpair
  | event ref arrival =>
      rw [next]
      split
      · exact h
      · rename_i proc hfound
        exact consistent_event h (List.mem_of_find?_eq_some hfound) arrival

theorem consistent_initial : Consistent .initial where
  tidy := by constructor <;> simp [initial]
  accounted := by constructor <;> simp [initial, held]

/-- Some descriptor was sent. -/
def HasSent (trace : List Event) : Prop := ∃ fd, .sent fd ∈ trace

theorem hasSent_append (trace events : List Event) :
    HasSent (trace ++ events) ↔ HasSent trace ∨ HasSent events := by
  simp only [HasSent, List.mem_append, exists_or]

theorem hasSent_removeFromList (st : Jdwp) (proc : JdwpProcess) :
    HasSent (st.removeFromList proc).trace ↔ HasSent st.trace := by
  rw [removeFromList, hasSent_append, or_iff_left]
  rintro ⟨fd, hfd⟩
  have hcount := (count_deleted proc fd).2.1
  exact List.count_eq_zero.mp hcount hfd

theorem hasSent_setProcess (st : Jdwp) (proc : JdwpProcess) :
    HasSent (st.setProcess proc).trace ↔ HasSent st.trace := Iff.rfl

theorem hasSent_writeEvent (st : Jdwp) (proc : JdwpProcess) (arrival : Arrival) :
    HasSent (st.writeEvent proc arrival).trace ↔ HasSent st.trace ∨
      (proc.outFds ≠ [] ∧ arrival.blocking = true ∧ arrival.sendmsg = true) := by
  rw [writeEvent]
  split
  · rename_i hnone
    rw [List.getLast?_eq_none_iff] at hnone
    simp [hnone]
  · rename_i fd hlast
    have hne : proc.outFds ≠ [] := by
      rintro hnil
      simp [hnil] at hlast
    cases hblocking : arrival.blocking with
    | false => simp [hasSent_removeFromList]
    | true =>
        cases hsendmsg : arrival.sendmsg with
        | false => simp [hasSent_removeFromList]
        | true =>
            have hsent : HasSent (st.trace ++ [Event.sent fd, .closed fd] ++ [.closed fd]) :=
              ⟨fd, by simp⟩
            simp only [hne, Bool.not_true, Bool.false_eq_true, if_false, ne_eq, not_false_eq_true,
              and_self, or_true, iff_true]
            split
            · exact (hasSent_removeFromList _ _).mpr hsent
            · split
              · exact hsent
              · exact hsent

theorem hasSent_event (st : Jdwp) (proc : JdwpProcess) (arrival : Arrival) :
    HasSent (st.jdwpProcessEvent scanPid proc arrival).trace ↔ HasSent st.trace ∨
      (proc.outFds ≠ [] ∧ (arrival.fdeRead = true →
        (readEvent scanPid proc arrival.received).2 = .goesOn) ∧
        arrival.fdeWrite = true ∧ arrival.blocking = true ∧ arrival.sendmsg = true) := by
  have hread : (if arrival.fdeRead then readEvent scanPid proc arrival.received
      else (proc, .goesOn)).1.outFds = proc.outFds := by
    split
    · rw [readEvent_fields]
    · rfl
  have hgoesOn : (if arrival.fdeRead then readEvent scanPid proc arrival.received
      else (proc, .goesOn)).2 = .goesOn ↔ (arrival.fdeRead = true →
        (readEvent scanPid proc arrival.received).2 = .goesOn) := by
    split
    · rename_i hevent
      simp [hevent]
    · rename_i hevent
      simp [hevent]
  rw [jdwpProcessEvent, ← hgoesOn]
  generalize (if arrival.fdeRead then readEvent scanPid proc arrival.received
    else (proc, Outcome.goesOn)) = result at hread
  obtain ⟨proc', outcome⟩ := result
  dsimp only at hread ⊢
  cases outcome with
  | returns => simp
  | closes => simp [hasSent_removeFromList]
  | goesOn =>
      dsimp only
      cases arrival.fdeWrite with
      | false => simp [hasSent_setProcess]
      | true => simp [hasSent_writeEvent, hasSent_setProcess, hread]

theorem hasSent_next (h : Consistent st) (label : Label) :
    HasSent (st.next scanPid label).trace ↔ HasSent st.trace ∨ SendsFd scanPid st label := by
  cases label with
  | accept => exact (or_iff_left id).symm
  | create pid socketpair =>
      refine Iff.trans ?_ (or_iff_left id).symm
      rw [next, createJdwpConnectionFd]
      split
      · rfl
      · split
        · rw [hasSent_append, or_iff_left]
          · rfl
          · rintro ⟨fd, hfd⟩
            cases List.mem_singleton.mp hfd
        · rfl
  | event ref arrival =>
      rw [SendsFd, next]
      split
      · rename_i hnone
        rw [or_iff_left]
        rintro ⟨proc, hproc, href, -⟩
        exact List.find?_eq_none.mp hnone proc hproc (decide_eq_true href)
      · rename_i proc hfound
        have hproc := List.mem_of_find?_eq_some hfound
        have hfoundRef := List.find?_some hfound
        have href : proc.ref = ref := of_decide_eq_true hfoundRef
        rw [hasSent_event]
        apply or_congr Iff.rfl
        constructor
        · intro hsends
          exact ⟨proc, hproc, href, hsends⟩
        · rintro ⟨proc', hproc', href', hsends⟩
          rwa [List.inj_on_of_nodup_map h.tidy.refs hproc hproc' (href.trans href'.symm)]

/-- Every descriptor is closed once exactly when none was sent: a descriptor that was
sent is closed twice. -/
theorem closedOnce_iff (h : Consistent st) : ClosedOnce st ↔ ¬ HasSent st.trace := by
  constructor
  · rintro honce ⟨fd, hsent⟩
    have hpos := List.count_pos_iff.mpr hsent
    have hput := h.accounted.once fd
    have hhanded := h.accounted.handed fd
    have hclosed := h.accounted.closed fd
    have hmem : .put fd ∈ st.trace := List.count_pos_iff.mp (by omega)
    have hcount := honce fd hmem
    split at hcount
    · omega
    · omega
  · intro hnone fd hmem
    have hsent : st.trace.count (.sent fd) = 0 :=
      List.count_eq_zero.mpr fun hsent => hnone ⟨fd, hsent⟩
    have hpos := List.count_pos_iff.mpr hmem
    have hput := h.accounted.once fd
    have hhanded := h.accounted.handed fd
    have hclosed := h.accounted.closed fd
    split
    · rename_i hheld
      have hwaits := List.count_pos_iff.mpr hheld
      omega
    · rename_i hheld
      rw [List.count_eq_zero.mpr hheld] at hclosed
      omega

theorem consistent_execute (labels : List Label) :
    Consistent ((jdwpSystem scanPid).execute .initial labels) := by
  induction labels using List.reverseRecOn with
  | nil => exact consistent_initial
  | append_singleton labels label ih =>
      rw [System.execute_concat]
      exact consistent_next ih label

theorem hasSent_execute (labels : List Label) :
    HasSent ((jdwpSystem scanPid).execute .initial labels).trace ↔
      ∃ earlier label, earlier ++ [label] <+: labels ∧
        SendsFd scanPid ((jdwpSystem scanPid).execute .initial earlier) label := by
  induction labels using List.reverseRecOn with
  | nil =>
      constructor
      · rintro ⟨fd, hfd⟩
        cases hfd
      · rintro ⟨earlier, label, hprefix, -⟩
        have hnil := List.prefix_nil.mp hprefix
        simp at hnil
  | append_singleton labels label ih =>
      rw [System.execute_concat]
      refine (hasSent_next (consistent_execute labels) label).trans ?_
      rw [ih]
      constructor
      · rintro (⟨earlier, label', hprefix, hsends⟩ | hsends)
        · exact ⟨earlier, label', hprefix.trans (List.prefix_append _ _), hsends⟩
        · exact ⟨labels, label, List.prefix_rfl, hsends⟩
      · rintro ⟨earlier, label', hprefix, hsends⟩
        rcases List.prefix_concat_iff.mp hprefix with hsame | hprefix
        · obtain ⟨rfl, hlast⟩ := List.append_inj' hsame rfl
          obtain rfl := List.singleton_inj.mp hlast
          exact .inr hsends
        · exact .inl ⟨earlier, label', hprefix, hsends⟩

end Steps

/-- In every run a process waits for `FDE_WRITE` exactly while a descriptor waits for
it, and no descriptor is sent twice; and the descriptors are closed once each
exactly if no step of the run has sent one. -/
theorem jdwp_handoff_exact (scanPid : Bytes → Option Int) (labels : List Label) :
    let st := (jdwpSystem scanPid).execute .initial labels
    (∀ proc ∈ st.list, proc.fde.state.write = true ↔ proc.outFds ≠ []) ∧
      (∀ fd, st.trace.count (.sent fd) ≤ 1) ∧
      (ClosedOnce st ↔ ∀ earlier label, earlier ++ [label] <+: labels →
        ¬ SendsFd scanPid ((jdwpSystem scanPid).execute .initial earlier) label) := by
  have h : Consistent ((jdwpSystem scanPid).execute .initial labels) := consistent_execute labels
  refine ⟨h.tidy.interest, ?_, ?_⟩
  · intro fd
    have hput := h.accounted.once fd
    have hhanded := h.accounted.handed fd
    omega
  · rw [closedOnce_iff h, hasSent_execute]
    simp only [not_exists, not_and]

/-- `sscanf` on the four digits of process 42. -/
def scanFortyTwo (bytes : Bytes) : Option Int := if bytes = [48, 48, 50, 97] then some 42 else none

/-- A process connects and says its id, a debugger connects, and its descriptor is
sent to the process. -/
def handoffRun : List Label :=
  [.accept, .event 0 ⟨true, false, [.data [48, 48, 50, 97]], false, false, false⟩,
    .create 42 true, .event 0 ⟨false, true, [], true, true, true⟩]

/-- The descriptor that was sent is closed twice. -/
theorem jdwp_handoff_closes_twice :
    ¬ ∀ labels, ClosedOnce ((jdwpSystem scanFortyTwo).execute .initial labels) := by
  intro h
  have hcount := h handoffRun 1 (by decide)
  revert hcount
  decide

end Adb.JdwpHandoff
