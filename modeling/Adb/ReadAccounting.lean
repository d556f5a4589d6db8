import Adb.ServerEffects

/-!
The bytes that are read from a descriptor, and the bytes that are handed to the
peer's `enqueue`.
-/

namespace Adb.ReadAccounting

open Adb.DescriptorIo
open Adb.EventInterest
open Adb.WirePackets
open Adb.SocketTable
open Adb.SocketClosing
open Adb.SocketGraph
open Adb.SocketEffects
open Adb.CallbackEffects
open Adb.ServerState
open Adb.ServerRuns
open Adb.ServerEffects
open Adb.TransitionSystems

variable {lossy drops : SocketRef → Prop} {R : TransportRef → Prop} {st st' : Sockets}
  {s : SocketRef}

/-- The bytes that were read from the descriptor of `s`. -/
def bytesRead (s : SocketRef) (trace : List Event) : Bytes :=
  trace.flatMap fun
    | .fdRead p data => if p = s then data else []
    | _ => []

/-- The bytes that were handed to an `enqueue` after they had been read from `s`. -/
def bytesHanded (s : SocketRef) (trace : List Event) : Bytes :=
  trace.flatMap fun
    | .handedOver p data => if p = s then data else []
    | _ => []

/-- Everything that was read from `s` has been handed over. -/
def NothingLost (s : SocketRef) (trace : List Event) : Prop :=
  bytesRead s trace = bytesHanded s trace

theorem nothingLost_append {trace events : List Event} (h : NothingLost s trace)
    (hevents : NothingLost s events) : NothingLost s (trace ++ events) := by
  unfold NothingLost bytesRead bytesHanded at h hevents ⊢
  rw [List.flatMap_append, List.flatMap_append, h, hevents]

theorem nothingLost_of_quiet {events : List Event} (h : ∀ e ∈ events, Quiet true e) :
    NothingLost s events := by
  have hread : bytesRead s events = [] := by
    refine List.flatMap_eq_nil_iff.mpr fun e he => ?_
    have hquiet := h e he
    cases e with
    | fdRead p data => exact hquiet.elim
    | _ => rfl
  have hhanded : bytesHanded s events = [] := by
    refine List.flatMap_eq_nil_iff.mpr fun e he => ?_
    have hquiet := h e he
    cases e with
    | handedOver p data => exact hquiet.elim
    | _ => rfl
  rw [NothingLost, hread, hhanded]

theorem nothingLost_of_emits {P : Event → Prop} (h : Emits P st st')
    (hP : ∀ e, P e → Quiet true e) (hs : NothingLost s st.trace) : NothingLost s st'.trace := by
  obtain ⟨events, htrace, hevents⟩ := h
  rw [htrace]
  exact nothingLost_append hs (nothingLost_of_quiet fun e he => hP e (hevents e he))

/-- A callback that is not lossy for `s` hands over what it reads from `s`. -/
theorem nothingLost_callback (h : Callback lossy drops R st st') (hlossy : ¬ lossy s)
    (hwf : WellFormed st) (hs : NothingLost s st.trace) : NothingLost s st'.trace := by
  induction h with
  | effect h => exact nothingLost_of_emits (h.emits hwf) (fun _ he => he.1) hs
  | own => exact hs
  | drained | failed | received =>
      refine nothingLost_append hs ?_
      simp [NothingLost, bytesRead, bytesHanded]
  | finish hclosing _ _ =>
      exact nothingLost_of_emits (hwf.asocketClose_closed hclosing).emits
        (fun _ he => (quiet_of_closeEvent he).1) hs
  | readSilent p hout =>
      refine nothingLost_append hs ?_
      by_cases hp : p = s
      · subst hp
        have hempty := hout.resolve_left hlossy
        simp [NothingLost, bytesRead, bytesHanded, hempty]
      · simp [NothingLost, bytesRead, bytesHanded, hp]
  | @readHanded st p out =>
      have htrace : ((st.afterRead p out).record (.handedOver p out.bytes)).trace =
          st.trace ++ [.fdRead p out.bytes, .handedOver p out.bytes] := List.append_assoc _ _ _
      rw [htrace]
      refine nothingLost_append hs ?_
      simp [NothingLost, bytesRead, bytesHanded]
  | trans h₁ _ ih₁ ih₂ => exact ih₂ (h₁.wellFormed hwf) (ih₁ hwf hs)

/-- In a run that reads nothing from `s` while `s` has no peer, every byte that
is read from `s` is handed to a peer's `enqueue`. -/
theorem nothingLost_of_handsOver (cfg : Config) (s : SocketRef) {st : Server}
    (h : (serverSystem cfg).ReachableWhen (HandsOver cfg s) st) :
    NothingLost s st.sockets.trace := by
  refine (h.invariant (I := fun st => WellFormed st.sockets ∧ NothingLost s st.sockets.trace)
    ?_ ?_).2
  · rintro st rfl
    exact ⟨wellFormed_initial, rfl⟩
  · intro st l hinv henabled hhands
    have hstep : Callback (· ≠ s) (fun _ => True) (Uses cfg st l.1) st.sockets
        (step cfg l.2 st l.1).sockets := by
      refine callback_step hinv.1 henabled.2 (fun p => ?_) fun _ => .inl trivial
      by_cases hp : p = s
      · exact .inr (hp ▸ hhands)
      · exact .inl hp
    exact ⟨hstep.wellFormed hinv.1, nothingLost_callback hstep (fun hs => hs rfl) hinv.1 hinv.2⟩

/-- A client of a forwarding listener on the device: the other end is asked for
the stream, and the client's socket waits for the first `OKAY`. -/
def acceptForwarded : List (Action × Oracle) :=
  [(.register 0 .offline .usb, {}),
    (.packet 0 { command := .aCnxn, arg0 := 0x01000000, arg1 := 4096, data := ascii "host::" }, {}),
    (.reverseRequest (ascii "forward:tcp:1;tcp:2"), { listen := some 0 }),
    (.accept 0, {})]

/-- The client sends its bytes after the connection is established. -/
def sendConnected : List (Action × Oracle) :=
  acceptForwarded.append
    [(.packet 0 { command := .aOkay, arg0 := 7, arg1 := 1, data := [] }, {}),
      (.poll 0 .readable, {}), (.dispatch 0, { reads := [.data [1]] })]

/-- The client sends its bytes and shuts down its side before the `OKAY`. -/
def sendEarly : List (Action × Oracle) :=
  acceptForwarded.append
    [(.poll 0 .halfClosed, {}), (.dispatch 0, { reads := [.data [1]] })]

theorem nothingLost_sendConnected :
    (serverSystem (plainConfig false false)).Executable (HandsOver (plainConfig false false) 0)
        .initial sendConnected ∧
      bytesRead 0 ((serverSystem (plainConfig false false)).execute .initial
        sendConnected).sockets.trace = [1] ∧
      NothingLost 0 ((serverSystem (plainConfig false false)).execute .initial
        sendConnected).sockets.trace := by
  have hrun : (serverSystem (plainConfig false false)).Executable
      (HandsOver (plainConfig false false) 0) .initial sendConnected := by decide
  refine ⟨hrun, by decide, nothingLost_of_handsOver (plainConfig false false) 0 ?_⟩
  exact System.reachableWhen_execute ⟨.initial, rfl, .refl⟩ hrun

/-- A byte is read from a socket without a peer and thrown away. -/
theorem nothingLost_fails_sendEarly :
    (serverSystem (plainConfig false false)).Executable (fun _ _ => True) .initial sendEarly ∧
      bytesRead 0 ((serverSystem (plainConfig false false)).execute .initial
        sendEarly).sockets.trace = [1] ∧
      bytesHanded 0 ((serverSystem (plainConfig false false)).execute .initial
        sendEarly).sockets.trace = [] ∧
      ¬ NothingLost 0 ((serverSystem (plainConfig false false)).execute .initial
        sendEarly).sockets.trace := by
  have hread : bytesRead 0 ((serverSystem (plainConfig false false)).execute .initial
      sendEarly).sockets.trace = [1] := by decide
  have hhanded : bytesHanded 0 ((serverSystem (plainConfig false false)).execute .initial
      sendEarly).sockets.trace = [] := by decide
  refine ⟨by decide, hread, hhanded, ?_⟩
  rw [NothingLost, hread, hhanded]
  decide

end Adb.ReadAccounting
