import Adb.TransitionSystems
import Mathlib.Data.List.Infix
import Mathlib.Logic.Function.Basic

/-!
The run queue of fdevent.cpp: threads queue functions for the main thread under
`run_queue_mutex` and write a byte to the notify socket; the main thread reads
the bytes without the mutex and then runs the whole queue under it.  The steps
are as small as the threads can interleave.
-/

namespace Adb.RunQueue

open Adb.TransitionSystems

universe u v

/-- Where a thread is in `fdevent_run_on_main_thread`. -/
inductive CallerPhase (α : Type v) where
  | idle
  | locked (fn : α)
  | pushed
  | notified
  deriving DecidableEq, Repr

/-- Where the main thread is in `fdevent_loop`: before `fdevent_run_setup`, in it
with the mutex, in `fdevent_run_flush` after `count` functions, after
`run_queue.clear()`, in the loop, in `fdevent_run_func` before and after the
read, and after the loop. -/
inductive MainPhase where
  | starting
  | creating
  | flushing (count : Nat)
  | flushed
  | looping
  | emptying
  | locking
  | stopped
  deriving DecidableEq, Repr

inductive Owner (ι : Type u) where
  | main
  | caller (i : ι)
  deriving DecidableEq, Repr

/-- `notify` counts the unread bytes of the notify socket, once there is one.
`queued` and `ran` are the histories of the queue. -/
structure State (ι : Type u) (α : Type v) where
  queue : List α
  notify : Option Nat
  mutex : Option (Owner ι)
  callers : ι → CallerPhase α
  main : MainPhase
  queued : List α
  ran : List α

inductive Label (ι : Type u) (α : Type v) where
  | lock (i : ι) (fn : α)
  | push (i : ι)
  | notify (i : ι)
  | unlock (i : ι)
  | setupLock
  | setupSocket
  | runNext
  | clear
  | unlockMain
  | dispatch
  | read (count : Nat)
  | lockMain
  | terminate
  deriving DecidableEq, Repr

/-- The size of the buffer of `fdevent_run_func`. -/
def bufferSize : Nat := 1024

variable {ι : Type u} {α : Type v} [DecidableEq ι]

namespace State

def setCaller (st : State ι α) (i : ι) (phase : CallerPhase α) : State ι α :=
  { st with callers := Function.update st.callers i phase }

/-- What one step of a thread or of the main thread does. -/
def next (st : State ι α) : Label ι α → State ι α
  | .lock i fn => { st with mutex := some (.caller i) }.setCaller i (.locked fn)
  | .push i =>
      match st.callers i with
      | .locked fn =>
          { st with queue := st.queue ++ [fn], queued := st.queued ++ [fn] }.setCaller i .pushed
      | _ => st
  | .notify i => { st with notify := st.notify.map (· + 1) }.setCaller i .notified
  | .unlock i => { st with mutex := none }.setCaller i .idle
  | .setupLock => { st with mutex := some .main, main := .creating }
  | .setupSocket => { st with notify := some 0, main := .flushing 0 }
  | .runNext =>
      match st.main with
      | .flushing count =>
          { st with ran := st.ran ++ (st.queue[count]?).toList, main := .flushing (count + 1) }
      | _ => st
  | .clear => { st with queue := [], main := .flushed }
  | .unlockMain => { st with mutex := none, main := .looping }
  | .dispatch => { st with main := .emptying }
  | .read count => { st with notify := st.notify.map (· - count), main := .locking }
  | .lockMain => { st with mutex := some .main, main := .flushing 0 }
  | .terminate => { st with main := .stopped }

/-- When a step can be taken: a mutex is taken when it is free, and the notify
socket is dispatched when it is readable. -/
def Enabled (st : State ι α) : Label ι α → Prop
  | .lock i _ => st.mutex = none ∧ st.callers i = .idle
  | .push i => ∃ fn, st.callers i = .locked fn
  | .notify i => st.callers i = .pushed
  | .unlock i => st.callers i = .notified
  | .setupLock => st.mutex = none ∧ st.main = .starting
  | .setupSocket => st.main = .creating
  | .runNext => ∃ count, st.main = .flushing count ∧ count < st.queue.length
  | .clear => st.main = .flushing st.queue.length
  | .unlockMain => st.main = .flushed
  | .dispatch => st.main = .looping ∧ ∃ n, st.notify = some (n + 1)
  | .read count =>
      st.main = .emptying ∧ 1 ≤ count ∧ count ≤ bufferSize ∧ ∃ n, st.notify = some n ∧ count ≤ n
  | .lockMain => st.mutex = none ∧ st.main = .locking
  | .terminate => st.main = .looping

def initial : State ι α where
  queue := []
  notify := none
  mutex := none
  callers := fun _ => .idle
  main := .starting
  queued := []
  ran := []

end State

/-- The interleavings of any threads with the main thread. -/
def runQueueSystem (ι : Type u) (α : Type v) [DecidableEq ι] :
    System (State ι α) (Label ι α) where
  initial st := st = .initial
  enabled := State.Enabled
  next := State.next

namespace MainPhase

/-- The main thread has the mutex. -/
def holds : MainPhase → Bool
  | creating | flushing _ | flushed => true
  | _ => false

/-- How many functions of the queue have been run already. -/
def count : MainPhase → Nat
  | flushing count => count
  | _ => 0

/-- `fdevent_run_setup` is over and the main thread is not in `fdevent_run_func`. -/
def outside : MainPhase → Bool
  | looping | stopped => true
  | _ => false

/-- The notify socket exists. -/
def hasSocket : MainPhase → Bool
  | starting | creating => false
  | _ => true

end MainPhase

/-- What holds between any two steps. -/
structure Orderly (st : State ι α) : Prop where
  callerOwns : ∀ i, st.callers i ≠ .idle → st.mutex = some (.caller i)
  mainOwns : st.main.holds = true → st.mutex = some .main
  history : st.queued = st.ran ++ st.queue.drop st.main.count
  bound : st.main.count ≤ st.queue.length
  cleared : st.main = .flushed → st.queue = []
  socket : st.main.hasSocket = true → st.notify.isSome = true
  awake : st.main.outside = true → st.queue ≠ [] → (∀ i, st.callers i ≠ .pushed) →
    ∃ n, st.notify = some (n + 1)

section

variable {st : State ι α}

omit [DecidableEq ι] in
theorem orderly_initial : Orderly (.initial : State ι α) where
  callerOwns _ h := absurd rfl h
  mainOwns h := by cases h
  history := rfl
  bound := Nat.le_refl 0
  cleared _ := rfl
  socket h := by cases h
  awake h := by cases h

theorem ne_pushed_of_update {i : ι} {phase : CallerPhase α} (hi : st.callers i ≠ .pushed)
    (h : ∀ j, Function.update st.callers i phase j ≠ .pushed) : ∀ j, st.callers j ≠ .pushed := by
  intro j
  rcases eq_or_ne j i with rfl | hj
  · exact hi
  · have hsame := h j
    rwa [Function.update_of_ne hj] at hsame

omit [DecidableEq ι] in
/-- While a thread is in its critical section, no other one is. -/
theorem Orderly.idle_of_owner (h : Orderly st) {i j : ι} (hi : st.callers i ≠ .idle)
    (hj : j ≠ i) : st.callers j = .idle := by
  by_contra hne
  have hmutex := (h.callerOwns i hi).symm.trans (h.callerOwns j hne)
  cases hmutex
  exact hj rfl

omit [DecidableEq ι] in
theorem Orderly.main_of_owner (h : Orderly st) {i : ι} (hi : st.callers i ≠ .idle) :
    st.main.holds = false := by
  rw [← Bool.not_eq_true]
  intro hholds
  have hmutex := (h.callerOwns i hi).symm.trans (h.mainOwns hholds)
  cases hmutex

omit [DecidableEq ι] in
theorem Orderly.idle_of_main (h : Orderly st) (hholds : st.main.holds = true) (i : ι) :
    st.callers i = .idle := by
  by_contra hne
  rw [h.main_of_owner hne] at hholds
  cases hholds

theorem Orderly.callerOwns_update (h : Orderly st) {i : ι} (hi : st.callers i ≠ .idle)
    {phase : CallerPhase α} (j : ι) (hj : Function.update st.callers i phase j ≠ .idle) :
    st.mutex = some (.caller j) := by
  rcases eq_or_ne j i with rfl | hne
  · exact h.callerOwns j hi
  · rw [Function.update_of_ne hne] at hj
    exact h.callerOwns j hj

theorem MainPhase.hasSocket_of_outside {phase : MainPhase} (h : phase.outside = true) :
    phase.hasSocket = true := by
  cases phase with
  | looping => rfl
  | stopped => rfl
  | _ => cases h

theorem MainPhase.count_of_not_holds {phase : MainPhase} (h : phase.holds = false) :
    phase.count = 0 := by
  cases phase with
  | flushing count => cases h
  | _ => rfl

theorem orderly_lock (h : Orderly st) {i : ι} {fn : α} (henabled : st.Enabled (.lock i fn)) :
    Orderly (st.next (.lock i fn)) := by
  obtain ⟨hfree, hidle⟩ := henabled
  have hothers : ∀ j, st.callers j = .idle := by
    intro j
    by_contra hne
    rw [h.callerOwns j hne] at hfree
    cases hfree
  refine ⟨?_, ?_, h.history, h.bound, h.cleared, h.socket, ?_⟩
  · intro j hj
    rcases eq_or_ne j i with rfl | hne
    · rfl
    · simp only [State.next, State.setCaller, Function.update_of_ne hne] at hj
      exact absurd (hothers j) hj
  · intro hholds
    rw [h.mainOwns hholds] at hfree
    cases hfree
  · intro houtside hqueue hpushed
    exact h.awake houtside hqueue (ne_pushed_of_update (by simp [hidle]) hpushed)

theorem orderly_push (h : Orderly st) {i : ι} (henabled : st.Enabled (.push i)) :
    Orderly (st.next (.push i)) := by
  obtain ⟨fn, hlocked⟩ := henabled
  have hbusy : st.callers i ≠ .idle := by simp [hlocked]
  have hholds := h.main_of_owner hbusy
  have hcount := MainPhase.count_of_not_holds hholds
  have hnext : st.next (.push i) =
      { st with queue := st.queue ++ [fn], queued := st.queued ++ [fn] }.setCaller i .pushed := by
    rw [State.next, hlocked]
  rw [hnext]
  refine ⟨h.callerOwns_update hbusy, h.mainOwns, ?_, ?_, ?_, h.socket, ?_⟩
  · have hhistory := h.history
    rw [hcount, List.drop_zero] at hhistory
    simp only [State.setCaller, hcount, List.drop_zero, hhistory, List.append_assoc]
  · simp only [State.setCaller, hcount, Nat.zero_le]
  · intro hflushed
    simp only [State.setCaller] at hflushed
    rw [hflushed] at hholds
    cases hholds
  · intro _ _ hpushed
    exact absurd (Function.update_self i _ _) (hpushed i)

theorem orderly_notify (h : Orderly st) {i : ι} (henabled : st.Enabled (.notify i)) :
    Orderly (st.next (.notify i)) := by
  have hbusy : st.callers i ≠ .idle := by
    rw [show st.callers i = .pushed from henabled]
    simp
  refine ⟨h.callerOwns_update hbusy, h.mainOwns, h.history, h.bound, h.cleared, ?_, ?_⟩
  · intro hsocket
    simpa [State.next, State.setCaller] using h.socket hsocket
  · intro houtside _ _
    obtain ⟨n, hn⟩ := Option.isSome_iff_exists.mp
      (h.socket (MainPhase.hasSocket_of_outside houtside))
    exact ⟨n, by simp [State.next, State.setCaller, hn]⟩

theorem orderly_unlock (h : Orderly st) {i : ι} (henabled : st.Enabled (.unlock i)) :
    Orderly (st.next (.unlock i)) := by
  have hnotified : st.callers i = .notified := henabled
  have hbusy : st.callers i ≠ .idle := by simp [hnotified]
  refine ⟨?_, ?_, h.history, h.bound, h.cleared, h.socket, ?_⟩
  · intro j hj
    rcases eq_or_ne j i with rfl | hne
    · simp [State.next, State.setCaller] at hj
    · simp only [State.next, State.setCaller, Function.update_of_ne hne] at hj
      exact absurd (h.idle_of_owner hbusy hne) hj
  · intro hholds
    exact absurd hholds (by simp [State.next, State.setCaller, h.main_of_owner hbusy])
  · intro houtside hqueue hpushed
    exact h.awake houtside hqueue (ne_pushed_of_update (by simp [hnotified]) hpushed)

omit [DecidableEq ι] in
theorem Orderly.enter (h : Orderly st) (phase : MainPhase) (hfree : st.mutex = none)
    (hmain : st.main.count = 0) (hcount : phase.count = 0) (hflushed : phase ≠ .flushed)
    (hsocket : phase.hasSocket = true → st.main.hasSocket = true)
    (hinside : phase.outside = false) :
    Orderly { st with mutex := some .main, main := phase } := by
  have hhistory := h.history
  rw [hmain] at hhistory
  refine ⟨?_, fun _ => rfl, ?_, ?_, ?_, fun hphase => h.socket (hsocket hphase), ?_⟩
  · intro j hj
    exact absurd ((h.callerOwns j hj).symm.trans hfree) (by simp)
  · rw [hcount]
    exact hhistory
  · rw [hcount]
    exact Nat.zero_le _
  · intro hphase
    exact absurd hphase hflushed
  · intro houtside
    rw [hinside] at houtside
    cases houtside

theorem orderly_setupLock (h : Orderly st) (henabled : st.Enabled .setupLock) :
    Orderly (st.next .setupLock) := by
  obtain ⟨hfree, hmain⟩ := henabled
  apply h.enter .creating hfree (by rw [hmain]; rfl) rfl (by simp)
  · intro hsocket
    cases hsocket
  · rfl

theorem orderly_setupSocket (h : Orderly st) (henabled : st.Enabled .setupSocket) :
    Orderly (st.next .setupSocket) := by
  have hmain : st.main = .creating := henabled
  have hhistory := h.history
  rw [hmain] at hhistory
  refine ⟨h.callerOwns, ?_, hhistory, Nat.zero_le _, ?_, fun _ => rfl, ?_⟩
  · intro _
    exact h.mainOwns (by rw [hmain]; rfl)
  · intro hflushed
    cases hflushed
  · intro houtside
    cases houtside

theorem orderly_runNext (h : Orderly st) (henabled : st.Enabled .runNext) :
    Orderly (st.next .runNext) := by
  obtain ⟨count, hmain, hlt⟩ := henabled
  have hnext : st.next .runNext =
      { st with ran := st.ran ++ [st.queue[count]], main := .flushing (count + 1) } := by
    simp only [State.next, hmain, List.getElem?_eq_getElem hlt, Option.toList_some]
  have hhistory := h.history
  rw [hmain] at hhistory
  rw [hnext]
  refine ⟨h.callerOwns, ?_, ?_, hlt, ?_, ?_, ?_⟩
  · intro _
    exact h.mainOwns (by rw [hmain]; rfl)
  · rw [hhistory, MainPhase.count, List.drop_eq_getElem_cons hlt, List.append_assoc]
    rfl
  · intro hflushed
    cases hflushed
  · intro _
    exact h.socket (by rw [hmain]; rfl)
  · intro houtside
    cases houtside

theorem orderly_clear (h : Orderly st) (henabled : st.Enabled .clear) :
    Orderly (st.next .clear) := by
  have hmain : st.main = .flushing st.queue.length := henabled
  have hhistory := h.history
  rw [hmain, MainPhase.count, List.drop_length] at hhistory
  refine ⟨h.callerOwns, ?_, hhistory, Nat.zero_le _, fun _ => rfl, ?_, ?_⟩
  · intro _
    exact h.mainOwns (by rw [hmain]; rfl)
  · intro _
    exact h.socket (by rw [hmain]; rfl)
  · intro houtside
    cases houtside

theorem orderly_unlockMain (h : Orderly st) (henabled : st.Enabled .unlockMain) :
    Orderly (st.next .unlockMain) := by
  have hmain : st.main = .flushed := henabled
  have hhistory := h.history
  rw [hmain] at hhistory
  refine ⟨?_, ?_, hhistory, Nat.zero_le _, ?_, ?_, ?_⟩
  · intro j hj
    exact absurd (h.idle_of_main (by rw [hmain]; rfl) j) hj
  · intro hholds
    cases hholds
  · intro hflushed
    cases hflushed
  · intro _
    exact h.socket (by rw [hmain]; rfl)
  · intro _ hqueue
    exact absurd (h.cleared hmain) hqueue

omit [DecidableEq ι] in
theorem Orderly.move (h : Orderly st) (phase : MainPhase) (notify : Option Nat)
    (hmain : st.main.count = 0) (hholds : phase.holds = false)
    (hnotify : phase.hasSocket = true → notify.isSome = true)
    (hawake : phase.outside = true → st.main.outside = true ∧ notify = st.notify) :
    Orderly { st with main := phase, notify := notify } := by
  have hcount := MainPhase.count_of_not_holds hholds
  have hhistory := h.history
  rw [hmain] at hhistory
  refine ⟨h.callerOwns, ?_, ?_, ?_, ?_, hnotify, ?_⟩
  · intro hphase
    rw [hphase] at hholds
    cases hholds
  · rw [hcount]
    exact hhistory
  · rw [hcount]
    exact Nat.zero_le _
  · rintro rfl
    cases hholds
  · intro houtside hqueue hpushed
    obtain ⟨houtside', rfl⟩ := hawake houtside
    exact h.awake houtside' hqueue hpushed

theorem orderly_dispatch (h : Orderly st) (henabled : st.Enabled .dispatch) :
    Orderly (st.next .dispatch) := by
  obtain ⟨hmain, n, hn⟩ := henabled
  apply h.move .emptying st.notify (by rw [hmain]; rfl) rfl
  · intro _
    simp [hn]
  · intro houtside
    cases houtside

theorem orderly_read (h : Orderly st) {count : Nat} (henabled : st.Enabled (.read count)) :
    Orderly (st.next (.read count)) := by
  obtain ⟨hmain, -, -, n, hn, -⟩ := henabled
  apply h.move .locking (st.notify.map (· - count)) (by rw [hmain]; rfl) rfl
  · intro _
    simp [hn]
  · intro houtside
    cases houtside

theorem orderly_terminate (h : Orderly st) (henabled : st.Enabled .terminate) :
    Orderly (st.next .terminate) := by
  have hmain : st.main = .looping := henabled
  apply h.move .stopped st.notify (by rw [hmain]; rfl) rfl
  · intro _
    exact h.socket (by rw [hmain]; rfl)
  · intro _
    exact ⟨by rw [hmain]; rfl, rfl⟩

theorem orderly_lockMain (h : Orderly st) (henabled : st.Enabled .lockMain) :
    Orderly (st.next .lockMain) := by
  obtain ⟨hfree, hmain⟩ := henabled
  apply h.enter (.flushing 0) hfree (by rw [hmain]; rfl) rfl (by simp)
  · intro _
    rw [hmain]
    rfl
  · rfl

theorem orderly_next (h : Orderly st) {label : Label ι α} (henabled : st.Enabled label) :
    Orderly (st.next label) := by
  cases label with
  | lock i fn => exact orderly_lock h henabled
  | push i => exact orderly_push h henabled
  | notify i => exact orderly_notify h henabled
  | unlock i => exact orderly_unlock h henabled
  | setupLock => exact orderly_setupLock h henabled
  | setupSocket => exact orderly_setupSocket h henabled
  | runNext => exact orderly_runNext h henabled
  | clear => exact orderly_clear h henabled
  | unlockMain => exact orderly_unlockMain h henabled
  | dispatch => exact orderly_dispatch h henabled
  | read count => exact orderly_read h henabled
  | lockMain => exact orderly_lockMain h henabled
  | terminate => exact orderly_terminate h henabled

theorem orderly_of_reachable (h : (runQueueSystem ι α).Reachable st) : Orderly st := by
  apply h.invariant
  · rintro st rfl
    exact orderly_initial
  · intro st label hst henabled _
    exact orderly_next hst henabled

end

/-- In every interleaving: the functions that have run are the first ones that
were queued, in their order and each once, and what has not run is still in the
queue; and after the setup, when the mutex is free, the queue is not empty and
the main thread is not in `fdevent_run_func`, the notify socket holds a byte. -/
theorem run_queue_delivers (st : State ι α) (h : (runQueueSystem ι α).Reachable st) :
    (st.ran <+: st.queued ∧ st.queued = st.ran ++ st.queue.drop st.main.count) ∧
      (st.queued.Nodup → st.ran.Nodup) ∧
      (st.main.outside = true → st.mutex = none → st.queue ≠ [] →
        ∃ n, st.notify = some n ∧ 1 ≤ n) := by
  have hst := orderly_of_reachable h
  have hfirst : st.ran <+: st.queued := ⟨_, hst.history.symm⟩
  refine ⟨⟨hfirst, hst.history⟩, fun hnodup => hnodup.sublist hfirst.sublist, ?_⟩
  intro houtside hfree hqueue
  have hpushed : ∀ i, st.callers i ≠ .pushed := by
    intro i hi
    have howner := hst.callerOwns i (by simp [hi])
    rw [hfree] at howner
    cases howner
  obtain ⟨n, hn⟩ := hst.awake houtside hqueue hpushed
  exact ⟨n + 1, hn, Nat.le_add_left 1 n⟩

/-- One function is queued before the setup and one after it. -/
def twoCallers : List (Label Nat Nat) :=
  [.lock 0 7, .push 0, .notify 0, .unlock 0, .setupLock, .setupSocket, .runNext, .clear,
    .unlockMain, .lock 1 8, .push 1, .notify 1, .unlock 1]

theorem run_queue_delivers_twoCallers :
    ∃ n, ((runQueueSystem Nat Nat).execute .initial twoCallers).notify = some n ∧ 1 ≤ n := by
  have hreach : (runQueueSystem Nat Nat).Reachable
      ((runQueueSystem Nat Nat).execute .initial twoCallers) := by
    refine System.reachableWhen_execute ⟨.initial, rfl, .refl⟩ ?_
    exact ⟨⟨⟨rfl, rfl⟩, trivial⟩, ⟨⟨7, rfl⟩, trivial⟩, ⟨rfl, trivial⟩, ⟨rfl, trivial⟩,
      ⟨⟨rfl, rfl⟩, trivial⟩, ⟨rfl, trivial⟩, ⟨⟨0, rfl, Nat.one_pos⟩, trivial⟩, ⟨rfl, trivial⟩,
      ⟨rfl, trivial⟩, ⟨⟨rfl, rfl⟩, trivial⟩, ⟨⟨8, rfl⟩, trivial⟩, ⟨rfl, trivial⟩,
      ⟨rfl, trivial⟩, trivial⟩
  exact (run_queue_delivers _ hreach).2.2 rfl rfl (List.cons_ne_nil 8 [])

end Adb.RunQueue
