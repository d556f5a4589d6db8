import Adb.ListenerRegistration

/-!
The listeners of the process itself, those with a target that starts with `*`,
among the forwards that clients install and remove.
-/

namespace Adb.SmartsocketProtection

open Adb.DescriptorIo
open Adb.ListenerRegistration
open Adb.ServerRuns
open Adb.ServerState
open Adb.SocketTable
open Adb.TransitionSystems
open Adb.WirePackets

/-- What happens to the listeners of a process: it starts to listen for smart
sockets, handles a forwarding request, a transport disconnects, or the state of
the transports changes otherwise. -/
inductive Event where
  | startSmartsocket (localName : Bytes)
  | request (request : ForwardRequest)
  | disconnect (t : TransportRef)
  | transports (list : List TransportRef) (atransports : TransportRef → Atransport)

def handle (cfg : Config) (env : Oracle) (st : Server) : Event → Server
  | .startSmartsocket localName =>
      installListenerOn env st localName smartsocketTarget none false
  | .request request => applyForwardRequest cfg env st request
  | .disconnect t => runDisconnects st t
  | .transports list atransports =>
      { st with
        transportList := list
        transports := fun t =>
          { atransports t with disconnects := (st.transports t).disconnects } }

def forwardSystem (cfg : Config) : System Server (Event × Oracle) where
  initial st := st.listeners = [] ∧ ∀ t r, .listener r ∉ (st.transports t).disconnects
  enabled st _ := st.sockets.halted = none
  next st l := handle cfg l.2 st l.1

/-- The request is a `killforward:` that gets as far as `remove_listener`. -/
structure Kills (cfg : Config) (st : Server) (request : ForwardRequest) (localName : Bytes) :
    Prop where
  kill : (ascii "killforward:").isPrefixOf request.service = true
  pieces : splitPieces (request.service.drop 12) = [localName]
  nonempty : localName ≠ []
  acquired : ∃ t, acquireOneTransport cfg st request.type request.serial false = .ok t

/-- No `killforward:` names a listener of the process itself. -/
def Spares (cfg : Config) (st : Server) (l : Event × Oracle) : Prop :=
  ∀ request, l.1 = .request request → ∀ localName, Kills cfg st request localName →
    ∀ listener, st.listeners.find? (·.localName = localName) = some listener →
      isSpecial listener = false

/-- The listeners of the process have no transport. -/
structure Guarded (st : Server) : Prop where
  registered : Registered st
  special : ∀ l ∈ st.listeners, isSpecial l = true → l.transport = none

section

variable {cfg : Config} {env : Oracle} {st : Server} {l : Alistener}

theorem applyForwardRequest_cases (cfg : Config) (env : Oracle) (st : Server)
    (request : ForwardRequest) :
    applyForwardRequest cfg env st request = st ∨
      applyForwardRequest cfg env st request = removeAllListeners st ∨
      (∃ localName, Kills cfg st request localName ∧
        applyForwardRequest cfg env st request = removeListener st localName) ∨
      ∃ localName connectTo t noRebind, connectTo.head? ≠ some 42 ∧
        applyForwardRequest cfg env st request =
          installListenerOn env st localName connectTo (some t) noRebind := by
  rw [applyForwardRequest]
  dsimp only
  split
  · exact .inr (.inl rfl)
  split
  · rename_i hkill
    split
    · rename_i localName hpieces
      split
      · exact .inl rfl
      · rename_i hnonempty
        split
        · exact .inl rfl
        · rename_i t hacquire
          exact .inr (.inr (.inl ⟨localName, ⟨hkill, hpieces, hnonempty, t, hacquire⟩, rfl⟩))
    · exact .inl rfl
  split
  · exact .inl rfl
  split
  · rename_i localName connectTo hpieces
    split
    · exact .inl rfl
    · rename_i hgood
      rw [not_or, not_or] at hgood
      split
      · exact .inl rfl
      · exact .inr (.inr (.inr ⟨localName, connectTo, _, _, hgood.2.2, rfl⟩))
  · exact .inl rfl

/-- A listener of the process keeps its place in the list. -/
def Stays (st st' : Server) : Prop :=
  ∀ l ∈ st.listeners, isSpecial l = true → l ∈ st'.listeners

theorem Guarded.of_subset {st' : Server} (h : Guarded st) (hregistered : Registered st')
    (hsub : ∀ l ∈ st'.listeners, l ∈ st.listeners) : Guarded st' where
  registered := hregistered
  special l hl := h.special l (hsub l hl)

theorem removeAllListeners_listeners (st : Server) :
    (removeAllListeners st).listeners = st.listeners.filter isSpecial :=
  foldl_forget_listeners _ _

theorem removeListener_listeners (st : Server) (localName : Bytes) :
    (removeListener st localName).listeners =
      match st.listeners.find? (·.localName = localName) with
      | none => st.listeners
      | some l => st.listeners.filter (·.ref ≠ l.ref) := by
  rw [removeListener]
  cases st.listeners.find? (·.localName = localName) with
  | none => rfl
  | some l => exact forget_listeners _ l

theorem installListenerOn_listeners (env : Oracle) (st : Server) (localName connectTo : Bytes)
    (transport : Option TransportRef) (noRebind : Bool) :
    (installListenerOn env st localName connectTo transport noRebind).listeners =
        st.listeners ∨
      (∃ name, (installListenerOn env st localName connectTo transport noRebind).listeners =
        st.listeners ++ [⟨st.nextListener, name, connectTo, transport⟩]) ∨
      ∃ l ∈ st.listeners, isSpecial l = false ∧
        (installListenerOn env st localName connectTo transport noRebind).listeners =
          st.listeners.map fun m =>
            if m.ref = l.ref then { l with connectTo := connectTo, transport := transport }
            else m := by
  rw [installListenerOn]
  cases hfind : st.listeners.find? (·.localName = localName) with
  | none =>
      dsimp only
      rw [addListener]
      cases env.listen with
      | none => exact .inl rfl
      | some resolved =>
          refine .inr (.inl ⟨if resolved = 0 then localName
            else ascii "tcp:" ++ ascii (toString resolved), ?_⟩)
          cases transport with
          | none => rfl
          | some t => rfl
  | some l =>
      dsimp only
      split
      · exact .inl rfl
      · rename_i hplain
        rw [Bool.not_eq_true, Bool.or_eq_false_iff] at hplain
        refine .inr (.inr ⟨l, List.mem_of_find?_eq_some hfind, hplain.1, ?_⟩)
        rw [rebindTo]
        dsimp only
        split
        · rfl
        · cases l.transport with
          | none =>
              cases transport with
              | none => rfl
              | some t => rfl
          | some old =>
              cases transport with
              | none => rfl
              | some t => rfl

theorem stays_removeAllListeners : Stays st (removeAllListeners st) := by
  intro l hl hspecial
  rw [removeAllListeners_listeners]
  exact List.mem_filter.mpr ⟨hl, hspecial⟩

theorem stays_removeListener (h : Guarded st) {localName : Bytes}
    (hspares : ∀ l, st.listeners.find? (·.localName = localName) = some l →
      isSpecial l = false) : Stays st (removeListener st localName) := by
  intro l hl hspecial
  rw [removeListener_listeners]
  cases hfind : st.listeners.find? (·.localName = localName) with
  | none => exact hl
  | some m =>
      refine List.mem_filter.mpr ⟨hl, ?_⟩
      rw [decide_eq_true_eq]
      intro href
      have heq := h.registered.eq_of_ref hl (List.mem_of_find?_eq_some hfind) href
      rw [heq, hspares m hfind] at hspecial
      cases hspecial

theorem stays_runDisconnects (h : Guarded st) (t : TransportRef) :
    Stays st (runDisconnects st t) := by
  intro l hl hspecial
  rw [runDisconnects_listeners_eq h.registered]
  refine List.mem_filter.mpr ⟨hl, ?_⟩
  rw [h.special l hl hspecial]
  simp

theorem stays_installListenerOn (h : Guarded st) (localName connectTo : Bytes)
    (transport : Option TransportRef) (noRebind : Bool) :
    Stays st (installListenerOn env st localName connectTo transport noRebind) := by
  intro l hl hspecial
  rcases installListenerOn_listeners env st localName connectTo transport noRebind with
    hsame | ⟨name, hadded⟩ | ⟨m, hm, hplain, hrebound⟩
  · rwa [hsame]
  · rw [hadded]
    exact List.mem_append_left _ hl
  · rw [hrebound]
    refine List.mem_map.mpr ⟨l, hl, if_neg ?_⟩
    intro href
    rw [h.registered.eq_of_ref hl hm href, hplain] at hspecial
    cases hspecial

theorem guarded_installListenerOn (h : Guarded st) {connectTo : Bytes}
    {transport : Option TransportRef}
    (hconnect : connectTo.head? = some 42 → transport = none) (localName : Bytes)
    (noRebind : Bool) :
    Guarded (installListenerOn env st localName connectTo transport noRebind) where
  registered := registered_installListenerOn h.registered localName connectTo transport noRebind
  special := by
    intro l hl hspecial
    rcases installListenerOn_listeners env st localName connectTo transport noRebind with
      hsame | ⟨name, hadded⟩ | ⟨m, hm, hplain, hrebound⟩
    · exact h.special l (hsame ▸ hl) hspecial
    · rw [hadded] at hl
      rcases List.mem_append.mp hl with hl | hl
      · exact h.special l hl hspecial
      · obtain rfl := List.mem_singleton.mp hl
        exact hconnect (of_decide_eq_true hspecial)
    · rw [hrebound] at hl
      obtain ⟨m', hm', rfl⟩ := List.mem_map.mp hl
      split at hspecial
      · rename_i href
        rw [if_pos href]
        exact hconnect (of_decide_eq_true hspecial)
      · rename_i href
        rw [if_neg href]
        exact h.special m' hm' hspecial

theorem guarded_handle (h : Guarded st) {event : Event} (hspares : Spares cfg st (event, env)) :
    Guarded (handle cfg env st event) ∧ Stays st (handle cfg env st event) := by
  cases event with
  | startSmartsocket localName =>
      exact ⟨guarded_installListenerOn h (fun _ => rfl) localName false,
        stays_installListenerOn h localName smartsocketTarget none false⟩
  | request request =>
      rw [handle]
      rcases applyForwardRequest_cases cfg env st request with
        heq | heq | ⟨localName, hkills, heq⟩ | ⟨localName, connectTo, t, noRebind, hplain, heq⟩
      · rw [heq]
        exact ⟨h, fun l hl _ => hl⟩
      · rw [heq]
        refine ⟨h.of_subset (registered_removeAllListeners h.registered) ?_,
          stays_removeAllListeners⟩
        intro l hl
        rw [removeAllListeners_listeners] at hl
        exact List.mem_of_mem_filter hl
      · rw [heq]
        refine ⟨h.of_subset (registered_removeListener h.registered localName) ?_,
          stays_removeListener h (hspares request rfl localName hkills)⟩
        intro l hl
        rw [removeListener_listeners] at hl
        split at hl
        · exact hl
        · exact List.mem_of_mem_filter hl
      · rw [heq]
        exact ⟨guarded_installListenerOn h (fun hspecial => absurd hspecial hplain) localName
          noRebind, stays_installListenerOn h localName connectTo (some t) noRebind⟩
  | disconnect t =>
      refine ⟨h.of_subset (registered_runDisconnects h.registered t) ?_,
        stays_runDisconnects h t⟩
      intro l hl
      rw [handle, runDisconnects_listeners_eq h.registered] at hl
      exact List.mem_of_mem_filter hl
  | transports list atransports =>
      exact ⟨⟨⟨h.registered.refs, h.registered.fresh, h.registered.counts⟩, h.special⟩,
        fun l hl _ => hl⟩

theorem guarded_of_reachable (h : (forwardSystem cfg).ReachableWhen (Spares cfg) st) :
    Guarded st := by
  apply h.invariant
  · rintro st ⟨hnone, hquiet⟩
    refine ⟨registered_of_empty hnone hquiet, ?_⟩
    rw [hnone]
    intro l hl
    cases hl
  · intro st label hst _ hspares
    exact (guarded_handle hst hspares).1

end

/-- Along every run in which no `killforward:` names a listener of the process
itself, these listeners stay in the list as they are, target and transport
included. -/
theorem special_listeners_stay (cfg : Config) (st st' : Server)
    (h : (forwardSystem cfg).ReachableWhen (Spares cfg) st)
    (hrun : (forwardSystem cfg).ReachableFrom (Spares cfg) st st') :
    ∀ l ∈ st.listeners, isSpecial l = true → l ∈ st'.listeners := by
  have hboth : Guarded st' ∧ Stays st st' := by
    apply hrun.preserves (I := fun st' => Guarded st' ∧ Stays st st')
    · exact ⟨guarded_of_reachable h, fun l hl _ => hl⟩
    · rintro st₁ label ⟨hguarded, hstays⟩ _ hspares
      obtain ⟨hguarded', hstep⟩ := guarded_handle hguarded hspares
      exact ⟨hguarded', fun l hl hspecial => hstep l (hstays l hl hspecial) hspecial⟩
  exact hboth.2

/-- The server's own listener. -/
def serverListener : Alistener := ⟨0, ascii "tcp:5037", smartsocketTarget, none⟩

/-- A server that listens and has one device. -/
def serverStart : List (Event × Oracle) :=
  [(.startSmartsocket (ascii "tcp:5037"), { listen := some 0 }),
    (.transports [0] fun _ => .blank .device .usb, {})]

def requestEvent (service : String) : Event × Oracle :=
  (.request ⟨ascii service, .any, none⟩, {})

/-- The state of the server after `serverStart`. -/
def startedServer : Server :=
  (forwardSystem (plainConfig true false)).execute .initial serverStart

theorem spares_serverStart : ∀ l ∈ serverStart, ∀ st, Spares (plainConfig true false) st l := by
  intro l hl st request heq
  simp only [serverStart, List.mem_cons, List.not_mem_nil, or_false] at hl
  rcases hl with rfl | rfl
  · cases heq
  · cases heq

theorem reachable_startedServer :
    (forwardSystem (plainConfig true false)).ReachableWhen (Spares (plainConfig true false))
      startedServer := by
  refine System.reachableWhen_execute ⟨.initial, ⟨rfl, fun _ _ => List.not_mem_nil⟩, .refl⟩ ?_
  refine ⟨⟨rfl, spares_serverStart _ (by simp [serverStart]) _⟩,
    ⟨rfl, spares_serverStart _ (by simp [serverStart]) _⟩, trivial⟩

theorem special_listeners_stay_server :
    serverListener ∈ ((forwardSystem (plainConfig true false)).next startedServer
      (requestEvent "killforward-all")).listeners := by
  refine special_listeners_stay (plainConfig true false) startedServer _
    reachable_startedServer (.step .refl rfl ?_) serverListener (by decide) (by decide)
  intro request heq localName hkills
  cases heq
  exact absurd hkills.kill (by decide)

/-- `killforward:tcp:5037` removes the listener of the server. -/
theorem killforward_removes_serverListener :
    ∃ st', (forwardSystem (plainConfig true false)).Reachable startedServer ∧
      (forwardSystem (plainConfig true false)).ReachableFrom (fun _ _ => True)
        startedServer st' ∧
      serverListener ∈ startedServer.listeners ∧ isSpecial serverListener = true ∧
      serverListener ∉ st'.listeners :=
  ⟨_, reachable_startedServer.reachable,
    .step (l := requestEvent "killforward:tcp:5037") .refl rfl trivial, by decide, by decide,
    by decide⟩

end Adb.SmartsocketProtection
