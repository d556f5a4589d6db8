import Adb.ServerRuns
import Mathlib.Data.List.Nodup

/-!
The listeners of a process and the callbacks that they leave with their
transports.  The list of listeners and the lists of the transports are two views
of one registration: each operation has to change both.
-/

namespace Adb.ListenerRegistration

open Adb.DescriptorIo
open Adb.ServerRuns
open Adb.ServerState
open Adb.SocketTable
open Adb.TransitionSystems
open Adb.WirePackets

/-- `install_listener` for a name in use, with any transport pointer.  Neither
the old nor the new pointer is checked when they differ. -/
def rebindTo (st : Server) (l : Alistener) (connectTo : Bytes)
    (transport : Option TransportRef) : Server :=
  let rebound := { l with connectTo := connectTo, transport := transport }
  let st := { st with
    listeners := st.listeners.map fun m => if m.ref = l.ref then rebound else m }
  if l.transport = transport then st
  else
    let st := match l.transport with
      | some old => removeDisconnect st old (.listener l.ref)
      | none => { st with sockets := st.sockets.halt .fault }
    match transport with
    | some t => addDisconnect st t (.listener l.ref)
    | none => { st with sockets := st.sockets.halt .fault }

/-- `install_listener`. -/
def installListenerOn (env : Oracle) (st : Server) (localName connectTo : Bytes)
    (transport : Option TransportRef) (noRebind : Bool) : Server :=
  match st.listeners.find? (·.localName = localName) with
  | none => addListener env st localName connectTo transport
  | some l => if isSpecial l || noRebind then st else rebindTo st l connectTo transport

theorem installListenerOn_some (env : Oracle) (st : Server) (localName connectTo : Bytes)
    (t : TransportRef) (noRebind : Bool) :
    installListenerOn env st localName connectTo (some t) noRebind =
      installListener env st localName connectTo t noRebind := rfl

/-- The operations on listeners and on transports. -/
inductive Operation where
  | install (localName connectTo : Bytes) (transport : Option TransportRef) (noRebind : Bool)
  | remove (localName : Bytes)
  | removeAll
  | runDisconnects (t : TransportRef)
  deriving DecidableEq, Repr

def smartsocketTarget : Bytes := ascii "*smartsocket*"

def operate (env : Oracle) (st : Server) : Operation → Server
  | .install localName connectTo transport noRebind =>
      installListenerOn env st localName connectTo transport noRebind
  | .remove localName => removeListener st localName
  | .removeAll => removeAllListeners st
  | .runDisconnects t => runDisconnects st t

/-- Every listener but that of the smart sockets is installed with a transport. -/
def Operation.Allowed : Operation → Prop
  | .install _ connectTo transport _ => transport = none → connectTo = smartsocketTarget
  | _ => True

/-- The sequences of operations, from a process without listeners. -/
def listenerSystem : System Server (Operation × Oracle) where
  initial st := st.listeners = [] ∧ ∀ t r, .listener r ∉ (st.transports t).disconnects
  enabled st l := st.sockets.halted = none ∧ l.1.Allowed
  next st l := operate l.2 st l.1

/-- The two views agree: a transport holds the callback of a listener as often
as the listener is in the list with this transport. -/
structure Registered (st : Server) : Prop where
  refs : (st.listeners.map Alistener.ref).Nodup
  fresh : ∀ l ∈ st.listeners, l.ref < st.nextListener
  counts : ∀ t r, (st.transports t).disconnects.count (.listener r) =
    st.listeners.countP fun l => l.ref = r ∧ l.transport = some t

section

variable {env : Oracle} {st st' : Server} {t : TransportRef} {r : ListenerRef}
  {l : Alistener} {keep : Alistener → Bool}

theorem disconnects_modifyTransport (f : Atransport → Atransport) (t t' : TransportRef) :
    ((st.modifyTransport t f).transports t').disconnects =
      if t' = t then (f (st.transports t)).disconnects else (st.transports t').disconnects := by
  rw [Server.modifyTransport]
  dsimp only
  rw [Function.update_apply]
  split
  · rfl
  · rfl

theorem count_addDisconnect (t t' : TransportRef) (r r' : ListenerRef) :
    ((addDisconnect st t (.listener r)).transports t').disconnects.count (.listener r') =
      (st.transports t').disconnects.count (.listener r') +
        if t' = t ∧ r' = r then 1 else 0 := by
  rw [addDisconnect, disconnects_modifyTransport]
  rcases eq_or_ne t' t with rfl | ht
  · rcases eq_or_ne r' r with rfl | hr
    · simp
    · simp [hr, hr.symm]
  · simp [ht]

theorem count_removeDisconnect (t t' : TransportRef) (r r' : ListenerRef) :
    ((removeDisconnect st t (.listener r)).transports t').disconnects.count (.listener r') =
      if t' = t ∧ r' = r then 0 else (st.transports t').disconnects.count (.listener r') := by
  rw [removeDisconnect, disconnects_modifyTransport]
  rcases eq_or_ne t' t with rfl | ht
  · rcases eq_or_ne r' r with rfl | hr
    · simp [List.count_eq_zero]
    · simp [hr, List.count_filter]
  · simp [ht]

theorem countP_ref {listeners : List Alistener} (hrefs : (listeners.map Alistener.ref).Nodup)
    (hl : l ∈ listeners) (t : TransportRef) :
    (listeners.countP fun m => m.ref = l.ref ∧ m.transport = some t) =
      if l.transport = some t then 1 else 0 := by
  induction listeners with
  | nil => cases hl
  | cons m listeners ih =>
      rw [List.map_cons, List.nodup_cons] at hrefs
      rcases List.mem_cons.mp hl with rfl | hl
      · have hrest : (listeners.countP fun m => m.ref = l.ref ∧ m.transport = some t) = 0 := by
          rw [List.countP_eq_zero]
          intro m hm
          rw [decide_eq_true_eq]
          rintro ⟨href, -⟩
          exact hrefs.1 (List.mem_map.mpr ⟨m, hm, href⟩)
        rw [List.countP_cons, hrest]
        simp
      · have hne : m.ref ≠ l.ref := fun href =>
          hrefs.1 (List.mem_map.mpr ⟨l, hl, href.symm⟩)
        rw [List.countP_cons, ih hrefs.2 hl]
        simp [hne]

namespace Registered

theorem eq_of_ref {m : Alistener} (h : Registered st) (hl : l ∈ st.listeners)
    (hm : m ∈ st.listeners) (href : l.ref = m.ref) : l = m :=
  List.inj_on_of_nodup_map h.refs hl hm href

theorem count_ref (h : Registered st) (hl : l ∈ st.listeners) (t : TransportRef) :
    (st.transports t).disconnects.count (.listener l.ref) =
      if l.transport = some t then 1 else 0 := by
  rw [h.counts, countP_ref h.refs hl]

theorem mem_disconnects (h : Registered st) :
    .listener r ∈ (st.transports t).disconnects ↔
      ∃ l ∈ st.listeners, l.ref = r ∧ l.transport = some t := by
  rw [← List.count_pos_iff, h.counts, List.countP_pos_iff]
  simp only [decide_eq_true_eq]

theorem drop (h : Registered st) (gone : ListenerRef → Bool)
    (hlisteners : st'.listeners = st.listeners.filter fun l => !gone l.ref)
    (hnext : st'.nextListener = st.nextListener)
    (hcounts : ∀ t r, (st'.transports t).disconnects.count (.listener r) =
      if gone r then 0 else (st.transports t).disconnects.count (.listener r)) :
    Registered st' where
  refs := by
    rw [hlisteners]
    exact h.refs.sublist ((List.filter_sublist).map _)
  fresh := by
    rw [hlisteners, hnext]
    intro l hl
    exact h.fresh l (List.mem_of_mem_filter hl)
  counts := by
    intro t r
    rw [hcounts, hlisteners, List.countP_filter, h.counts]
    cases hgone : gone r with
    | true =>
        rw [if_pos rfl, eq_comm, List.countP_eq_zero]
        intro l hl hboth
        simp only [Bool.and_eq_true, decide_eq_true_eq, Bool.not_eq_eq_eq_not,
          Bool.not_true] at hboth
        obtain ⟨⟨rfl, -⟩, hstays⟩ := hboth
        rw [hgone] at hstays
        cases hstays
    | false =>
        rw [if_neg Bool.false_ne_true]
        apply List.countP_congr
        intro l hl
        simp only [decide_eq_true_eq, Bool.and_eq_true, Bool.not_eq_eq_eq_not, Bool.not_true]
        constructor
        · rintro ⟨rfl, ht⟩
          exact ⟨⟨rfl, ht⟩, hgone⟩
        · exact And.left

end Registered

/-- The destructor of a listener that was erased. -/
def forget (st : Server) (l : Alistener) : Server :=
  match l.transport with
  | some t => removeDisconnect st t (.listener l.ref)
  | none => st

@[simp] theorem forget_listeners (st : Server) (l : Alistener) :
    (forget st l).listeners = st.listeners := by
  rw [forget]
  split
  · rfl
  · rfl

@[simp] theorem forget_nextListener (st : Server) (l : Alistener) :
    (forget st l).nextListener = st.nextListener := by
  rw [forget]
  split
  · rfl
  · rfl

theorem count_forget (st : Server) (l : Alistener) (t : TransportRef) (r : ListenerRef) :
    ((forget st l).transports t).disconnects.count (.listener r) =
      if l.transport = some t ∧ r = l.ref then 0
      else (st.transports t).disconnects.count (.listener r) := by
  rw [forget]
  cases htransport : l.transport with
  | none => simp
  | some t' =>
      rw [count_removeDisconnect]
      simp only [Option.some.injEq, eq_comm]

theorem foldl_forget_listeners (gone : List Alistener) (st : Server) :
    (gone.foldl forget st).listeners = st.listeners := by
  induction gone generalizing st with
  | nil => rfl
  | cons l gone ih => rw [List.foldl_cons, ih, forget_listeners]

theorem foldl_forget_nextListener (gone : List Alistener) (st : Server) :
    (gone.foldl forget st).nextListener = st.nextListener := by
  induction gone generalizing st with
  | nil => rfl
  | cons l gone ih => rw [List.foldl_cons, ih, forget_nextListener]

theorem count_foldl_forget (gone : List Alistener) (st : Server) (t : TransportRef)
    (r : ListenerRef) :
    ((gone.foldl forget st).transports t).disconnects.count (.listener r) =
      if ∃ l ∈ gone, l.transport = some t ∧ r = l.ref then 0
      else (st.transports t).disconnects.count (.listener r) := by
  induction gone generalizing st with
  | nil => simp
  | cons l gone ih =>
      rw [List.foldl_cons, ih, count_forget]
      simp only [List.exists_mem_cons_iff]
      split_ifs with h₁ h₂ h₃ h₄
      · rfl
      · exact absurd (.inr h₁) h₂
      · rfl
      · exact absurd (.inl h₃) h₄
      · exact absurd ‹_› (by simp [h₁, h₃])
      · rfl

theorem Registered.erase (h : Registered st) {gone : List Alistener}
    (hgone : ∀ l ∈ gone, l ∈ st.listeners)
    (hlisteners : ∀ l ∈ st.listeners, keep l = true ↔ l ∉ gone) :
    Registered (gone.foldl forget { st with listeners := st.listeners.filter keep }) := by
  have hmem : ∀ l ∈ st.listeners, (gone.any (·.ref = l.ref)) = true ↔ l ∈ gone := by
    intro l hl
    simp only [List.any_eq_true, decide_eq_true_eq]
    constructor
    · rintro ⟨m, hm, href⟩
      rwa [← h.eq_of_ref (hgone m hm) hl href]
    · intro hin
      exact ⟨l, hin, rfl⟩
  apply h.drop (fun r => gone.any (·.ref = r))
  · rw [foldl_forget_listeners]
    apply List.filter_congr
    intro l hl
    rw [Bool.eq_iff_iff, hlisteners l hl, ← hmem l hl]
    simp
  · rw [foldl_forget_nextListener]
  · intro t r
    rw [count_foldl_forget]
    split
    · rename_i hforgotten
      obtain ⟨l, hl, -, rfl⟩ := hforgotten
      rw [if_pos ((hmem l (hgone l hl)).mpr hl)]
    · rename_i hkept
      split
      · rename_i hany
        simp only [List.any_eq_true, decide_eq_true_eq] at hany
        obtain ⟨l, hl, rfl⟩ := hany
        -- a listener that is erased with another transport has no callback here
        have hcount := h.count_ref (hgone l hl) t
        rwa [if_neg fun htransport => hkept ⟨l, hl, htransport, rfl⟩] at hcount
      · rfl

theorem registered_removeListener (h : Registered st) (localName : Bytes) :
    Registered (removeListener st localName) := by
  have heq : removeListener st localName =
      match st.listeners.find? (·.localName = localName) with
      | none => st
      | some l => [l].foldl forget { st with listeners := st.listeners.filter (·.ref ≠ l.ref) } :=
    rfl
  rw [heq]
  cases hfind : st.listeners.find? (·.localName = localName) with
  | none => exact h
  | some l =>
      have hl := List.mem_of_find?_eq_some hfind
      apply h.erase
      · intro m hm
        rwa [List.mem_singleton.mp hm]
      · intro m hm
        rw [decide_eq_true_eq, List.mem_singleton]
        constructor
        · rintro hne rfl
          exact hne rfl
        · intro hne href
          exact hne (h.eq_of_ref hm hl href)

theorem registered_removeAllListeners (h : Registered st) :
    Registered (removeAllListeners st) := by
  have heq : removeAllListeners st = (st.listeners.filter fun l => !isSpecial l).foldl forget
      { st with listeners := st.listeners.filter isSpecial } := rfl
  rw [heq]
  apply h.erase
  · intro l hl
    exact List.mem_of_mem_filter hl
  · intro l hl
    simp [hl]

theorem foldl_runDisconnect (disconnects : List Disconnect) (st : Server) :
    (disconnects.foldl runDisconnect st).listeners =
        st.listeners.filter (fun l => decide (.listener l.ref ∉ disconnects)) ∧
      (disconnects.foldl runDisconnect st).transports = st.transports ∧
      (disconnects.foldl runDisconnect st).nextListener = st.nextListener := by
  induction disconnects generalizing st with
  | nil => simp
  | cons d disconnects ih =>
      obtain ⟨hlisteners, htransports, hnext⟩ := ih (runDisconnect st d)
      rw [List.foldl_cons]
      cases d with
      | usb => exact ⟨by simpa [runDisconnect] using hlisteners, htransports, hnext⟩
      | listener r =>
          refine ⟨?_, htransports, hnext⟩
          rw [hlisteners, runDisconnect, List.filter_filter]
          apply List.filter_congr
          intro l hl
          rw [Bool.eq_iff_iff]
          simp [and_comm]

theorem runDisconnects_listeners_eq (h : Registered st) (t : TransportRef) :
    (runDisconnects st t).listeners =
      st.listeners.filter fun l => decide (l.transport ≠ some t) := by
  have hlisteners := (foldl_runDisconnect (st.transports t).disconnects st).1
  rw [runDisconnects, Server.modifyTransport]
  dsimp only
  rw [hlisteners]
  apply List.filter_congr
  intro l hl
  rw [decide_eq_decide, not_iff_not, h.mem_disconnects]
  constructor
  · rintro ⟨m, hm, href, ht⟩
    rwa [← h.eq_of_ref hm hl href]
  · intro ht
    exact ⟨l, hl, rfl, ht⟩

theorem registered_runDisconnects (h : Registered st) (t : TransportRef) :
    Registered (runDisconnects st t) := by
  obtain ⟨hlisteners, htransports, hnext⟩ := foldl_runDisconnect (st.transports t).disconnects st
  apply h.drop fun r => .listener r ∈ (st.transports t).disconnects
  · rw [runDisconnects, Server.modifyTransport]
    dsimp only
    rw [hlisteners]
    apply List.filter_congr
    intro l hl
    simp
  · rw [runDisconnects, Server.modifyTransport]
    exact hnext
  · intro t' r
    rw [runDisconnects, disconnects_modifyTransport, htransports]
    rcases eq_or_ne t' t with rfl | ht
    · rw [if_pos rfl]
      split
      · rfl
      · rename_i hnot
        rw [decide_eq_true_eq] at hnot
        rw [List.count_eq_zero_of_not_mem hnot]
        rfl
    · rw [if_neg ht]
      split
      · -- the callback of a listener is on one transport only
        rename_i hin
        rw [decide_eq_true_eq, h.mem_disconnects] at hin
        obtain ⟨l, hl, rfl, htransport⟩ := hin
        rw [h.count_ref hl, htransport, if_neg]
        exact fun heq => ht (Option.some.inj heq).symm
      · rfl

theorem Registered.insert (h : Registered st) (new : Alistener)
    (href : new.ref = st.nextListener) (hlisteners : st'.listeners = st.listeners ++ [new])
    (hnext : st'.nextListener = st.nextListener + 1)
    (hcounts : ∀ t r, (st'.transports t).disconnects.count (.listener r) =
      (st.transports t).disconnects.count (.listener r) +
        if new.ref = r ∧ new.transport = some t then 1 else 0) :
    Registered st' where
  refs := by
    rw [hlisteners, List.map_append, List.nodup_append]
    refine ⟨h.refs, List.nodup_singleton _, ?_⟩
    rintro r hr r' hr' rfl
    obtain ⟨l, hl, rfl⟩ := List.mem_map.mp hr
    have hlt := h.fresh l hl
    rw [List.map_singleton, List.mem_singleton, href] at hr'
    exact absurd hr' (Nat.ne_of_lt hlt)
  fresh := by
    rw [hlisteners, hnext]
    intro l hl
    rcases List.mem_append.mp hl with hl | hl
    · exact Nat.lt_succ_of_lt (h.fresh l hl)
    · rw [List.mem_singleton.mp hl, href]
      exact Nat.lt_succ_self _
  counts := by
    intro t r
    rw [hcounts, hlisteners, List.countP_append, h.counts, List.countP_singleton]
    simp only [decide_eq_true_eq]

theorem registered_addListener (h : Registered st) (localName connectTo : Bytes)
    (transport : Option TransportRef) :
    Registered (addListener env st localName connectTo transport) := by
  rw [addListener]
  cases env.listen with
  | none => exact h
  | some resolved =>
      dsimp only
      generalize (if resolved = 0 then localName
        else ascii "tcp:" ++ ascii (toString resolved)) = name
      cases transport with
      | none =>
          refine h.insert ⟨st.nextListener, name, connectTo, none⟩ rfl rfl rfl ?_
          intro t r
          simp
      | some t' =>
          refine h.insert ⟨st.nextListener, name, connectTo, some t'⟩ rfl rfl rfl ?_
          intro t r
          rw [count_addDisconnect]
          simp only [Option.some.injEq, and_comm, eq_comm]

theorem Registered.rebind (h : Registered st) (hl : l ∈ st.listeners) {connectTo : Bytes}
    {transport : Option TransportRef}
    (hlisteners : st'.listeners = st.listeners.map fun m =>
      if m.ref = l.ref then { l with connectTo := connectTo, transport := transport } else m)
    (hnext : st'.nextListener = st.nextListener)
    (hcounts : ∀ t r, (st'.transports t).disconnects.count (.listener r) =
      if r = l.ref then if transport = some t then 1 else 0
      else (st.transports t).disconnects.count (.listener r)) :
    Registered st' := by
  have hmap : st'.listeners.map Alistener.ref = st.listeners.map Alistener.ref := by
    rw [hlisteners, List.map_map]
    apply List.map_congr_left
    intro m hm
    dsimp only [Function.comp]
    split
    · rename_i href
      exact href.symm
    · rfl
  have hrefs : (st'.listeners.map Alistener.ref).Nodup := hmap ▸ h.refs
  have hrebound : { l with connectTo := connectTo, transport := transport } ∈ st'.listeners := by
    rw [hlisteners]
    exact List.mem_map.mpr ⟨l, hl, if_pos rfl⟩
  refine ⟨hrefs, ?_, ?_⟩
  · intro m hm
    have hmem : m.ref ∈ st.listeners.map Alistener.ref :=
      hmap ▸ List.mem_map.mpr ⟨m, hm, rfl⟩
    obtain ⟨m', hm', href⟩ := List.mem_map.mp hmem
    rw [hnext, ← href]
    exact h.fresh m' hm'
  · intro t r
    rw [hcounts]
    split
    · rename_i hr
      rw [hr]
      exact (countP_ref hrefs hrebound t).symm
    · rename_i hr
      rw [h.counts, hlisteners, List.countP_map]
      apply List.countP_congr
      intro m hm
      dsimp only [Function.comp]
      split
      · rename_i href
        simp [href, Ne.symm hr]
      · rfl

theorem registered_rebindTo (h : Registered st) (hl : l ∈ st.listeners) (connectTo : Bytes)
    (transport : Option TransportRef) : Registered (rebindTo st l connectTo transport) := by
  have hcount := h.count_ref hl
  rw [rebindTo]
  dsimp only
  split
  · rename_i hsame
    refine h.rebind hl rfl rfl ?_
    intro t r
    split
    · rename_i hr
      rw [hr, ← hsame]
      exact hcount t
    · rfl
  · rename_i hother
    cases hold : l.transport with
    | none =>
        rw [hold] at hother hcount
        cases transport with
        | none => exact absurd rfl hother
        | some new =>
            refine h.rebind hl rfl rfl ?_
            intro t r
            rw [count_addDisconnect]
            rcases eq_or_ne r l.ref with rfl | hr
            · simp [hcount t, eq_comm]
            · simp [hr]
    | some old =>
        rw [hold] at hother hcount
        cases transport with
        | none =>
            refine h.rebind hl rfl rfl ?_
            intro t r
            refine (count_removeDisconnect old t l.ref r).trans ?_
            rcases eq_or_ne r l.ref with rfl | hr
            · rcases eq_or_ne t old with rfl | ht
              · simp
              · simp [hcount t, ht, ht.symm]
            · simp [hr]
        | some new =>
            refine h.rebind hl rfl rfl ?_
            intro t r
            rw [count_addDisconnect, count_removeDisconnect]
            rcases eq_or_ne r l.ref with rfl | hr
            · rcases eq_or_ne t old with rfl | ht
              · simp [eq_comm]
              · simp [hcount t, ht, ht.symm, eq_comm]
            · simp [hr]

theorem registered_installListenerOn (h : Registered st) (localName connectTo : Bytes)
    (transport : Option TransportRef) (noRebind : Bool) :
    Registered (installListenerOn env st localName connectTo transport noRebind) := by
  rw [installListenerOn]
  cases hfind : st.listeners.find? (·.localName = localName) with
  | none => exact registered_addListener h localName connectTo transport
  | some l =>
      dsimp only
      split
      · exact h
      · exact registered_rebindTo h (List.mem_of_find?_eq_some hfind) connectTo transport

theorem registered_operate (h : Registered st) (operation : Operation) :
    Registered (operate env st operation) := by
  cases operation with
  | install localName connectTo transport noRebind =>
      exact registered_installListenerOn h localName connectTo transport noRebind
  | remove localName => exact registered_removeListener h localName
  | removeAll => exact registered_removeAllListeners h
  | runDisconnects t => exact registered_runDisconnects h t

theorem registered_of_empty (hnone : st.listeners = [])
    (hquiet : ∀ t r, .listener r ∉ (st.transports t).disconnects) : Registered st where
  refs := by
    rw [hnone]
    exact List.nodup_nil
  fresh := by
    rw [hnone]
    intro l hl
    cases hl
  counts := by
    intro t r
    rw [hnone, List.count_eq_zero_of_not_mem (hquiet t r)]
    rfl

/-- The two views agree after every sequence of operations. -/
theorem registered_of_reachable (h : listenerSystem.Reachable st) : Registered st := by
  apply h.invariant
  · rintro st ⟨hnone, hquiet⟩
    exact registered_of_empty hnone hquiet
  · intro st label hst _ _
    exact registered_operate hst label.1

end

/-- After every sequence of operations a listener with a transport has its
callback there exactly once and nowhere else, every callback of a listener on a
transport belongs to a listener of the list, and `RunDisconnects` removes
exactly the listeners of its transport. -/
theorem listener_registration (st : Server) (h : listenerSystem.Reachable st) :
    (∀ l ∈ st.listeners, ∀ t, l.transport = some t →
        (st.transports t).disconnects.count (.listener l.ref) = 1 ∧
          ∀ t' ≠ t, .listener l.ref ∉ (st.transports t').disconnects) ∧
      (∀ t r, .listener r ∈ (st.transports t).disconnects →
        ∃ l ∈ st.listeners, l.ref = r ∧ l.transport = some t) ∧
      ∀ t, (runDisconnects st t).listeners =
        st.listeners.filter fun l => decide (l.transport ≠ some t) := by
  have hst := registered_of_reachable h
  refine ⟨?_, ?_, runDisconnects_listeners_eq hst⟩
  · intro l hl t ht
    refine ⟨by rw [hst.count_ref hl, if_pos ht], ?_⟩
    intro t' hne hmem
    have hcount := hst.count_ref hl t'
    rw [if_neg, List.count_eq_zero] at hcount
    · exact hcount hmem
    · rw [ht]
      exact fun heq => hne (Option.some.inj heq).symm
  · intro t r hmem
    exact hst.mem_disconnects.mp hmem

instance : (operation : Operation) → Decidable operation.Allowed
  | .install _ _ _ _ => inferInstanceAs (Decidable (_ → _))
  | .remove _ => inferInstanceAs (Decidable True)
  | .removeAll => inferInstanceAs (Decidable True)
  | .runDisconnects _ => inferInstanceAs (Decidable True)

instance (st : Server) (l : Operation × Oracle) : Decidable (listenerSystem.enabled st l) :=
  inferInstanceAs (Decidable (_ ∧ _))

/-- A forward that moves from one device to another. -/
def reboundRun : List (Operation × Oracle) :=
  [(.install (ascii "tcp:1") (ascii "tcp:2") (some 1) false, { listen := some 0 }),
    (.install (ascii "tcp:1") (ascii "tcp:3") (some 2) false, {})]

theorem listener_registration_rebound :
    ((listenerSystem.execute .initial reboundRun).transports 2).disconnects.count
        (.listener 0) = 1 ∧
      ∀ t ≠ 2, .listener 0 ∉
        ((listenerSystem.execute .initial reboundRun).transports t).disconnects := by
  have hinitial : listenerSystem.Reachable .initial :=
    ⟨.initial, ⟨rfl, fun _ _ => List.not_mem_nil⟩, .refl⟩
  have hreach : listenerSystem.Reachable (listenerSystem.execute .initial reboundRun) :=
    System.reachableWhen_execute hinitial (by decide)
  exact (listener_registration _ hreach).1 ⟨0, ascii "tcp:1", ascii "tcp:3", some 2⟩
    (by decide) 2 rfl

end Adb.ListenerRegistration
