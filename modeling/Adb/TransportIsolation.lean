import Adb.ServerEffects

/-!
Which sockets a stream message of a transport can reach.  Local ids are global
to the process, so a message may name the socket of another transport.
-/

namespace Adb.TransportIsolation

open Adb.DescriptorIo
open Adb.WirePackets
open Adb.SocketTable
open Adb.SocketOperations
open Adb.SocketClosing
open Adb.SocketGraph
open Adb.SocketEffects
open Adb.OperationEffects
open Adb.StreamEffects
open Adb.CallbackEffects
open Adb.ServerState
open Adb.ServerRuns
open Adb.ServerEffects
open Adb.TransitionSystems

/-- The messages about streams. -/
def Command.isStream : Command → Bool
  | .aOpen | .aOkay | .aWrte | .aClse => true
  | _ => false

/-- A socket of the transport: `s->transport == t` or `s->peer->transport == t`. -/
def Belongs (st : Sockets) (s : SocketRef) (t : TransportRef) : Prop :=
  ∃ a, st.heap s = some a ∧ (a.transport = some t ∨
    ∃ q b, a.peer = some q ∧ st.heap q = some b ∧ b.transport = some t)

instance (st : Sockets) (s : SocketRef) (t : TransportRef) : Decidable (Belongs st s t) :=
  have : DecidablePred fun a : Asocket => a.transport = some t ∨
      ∃ q b, a.peer = some q ∧ st.heap q = some b ∧ b.transport = some t := fun a =>
    decidable_of_iff
      (a.transport = some t ∨ ∃ q ∈ a.peer, ∃ b ∈ st.heap q, b.transport = some t) (by simp)
  decidableLive st s _

/-- The socket is connected, made ready, written to or closed. -/
def Touches (s : SocketRef) : Event → Prop
  | .connected p _ _ _ | .readyCalled p | .enqueueCalled p _ | .fdWrote p _ | .closeCalled p
  | .fdClosed p | .movedToClosing p _ => p = s
  | _ => False

/-- A message on `t` leaves the local sockets alone that do not belong to `t`. -/
def Isolated (cfg : Config) (env : Oracle) (st : Server) (t : TransportRef) (p : Apacket) : Prop :=
  ∀ s a, st.sockets.heap s = some a → SocketKind.isListed a.kind = true →
    ¬ Belongs st.sockets s t →
      (step cfg env st (.packet t p)).sockets.heap s = some a ∧
        ∀ events, (step cfg env st (.packet t p)).sockets.trace = st.sockets.trace ++ events →
          ∀ e ∈ events, ¬ Touches s e

/-- The socket that `handle_packet` looks up for a message and that passes the
tests the code makes on it. -/
def addressed (st : Sockets) (t : TransportRef) (p : Apacket) : Option SocketRef :=
  match p.command with
  | .aOkay => (findLocalSocket st p.arg1 0).filter fun s =>
      match st.peerOf s with
      | none => true
      | some q => (st.heap q).any fun b => b.id = p.arg0
  | .aClse => (findLocalSocket st p.arg1 p.arg0).filter fun s =>
      !(p.arg0 = 0 && ((st.peerOf s).bind st.heap).any fun b => b.transport ≠ some t)
  | .aWrte => findLocalSocket st p.arg1 p.arg0
  | _ => none

/-- The message names no socket, or one of its own transport. -/
def WellAddressed (st : Server) (t : TransportRef) (p : Apacket) : Prop :=
  actsOn (st.transports t).online p = true → ∀ s, addressed st.sockets t p = some s →
    Belongs st.sockets s t

section Reach

variable {st : Sockets} {s : SocketRef} {t : TransportRef} {p : Apacket}

theorem belongs_peer (h : WellFormed st) {q : SocketRef} (hq : st.peerOf s = some q)
    (hs : Belongs st s t) : Belongs st q t := by
  obtain ⟨a, ha, hrefers⟩ := hs
  obtain ⟨a', ha', hpeer⟩ := peerOf_eq_some.mp hq
  obtain rfl := Option.some.inj (ha.symm.trans ha')
  obtain ⟨-, b, hb, hback, -⟩ := (h.socket s a ha).peer q hpeer
  refine ⟨b, hb, ?_⟩
  rcases hrefers with htransport | ⟨q', b', hpeer', hb', htransport⟩
  · exact .inr ⟨s, a, hback, ha, htransport⟩
  · obtain rfl := Option.some.inj (hpeer.symm.trans hpeer')
    obtain rfl := Option.some.inj (hb.symm.trans hb')
    exact .inl htransport

theorem belongs_withPeer (h : WellFormed st) {r : SocketRef} (hr : r ∈ withPeer st s)
    (hs : Belongs st s t) : Belongs st r t := by
  rcases mem_withPeer.mp hr with rfl | hq
  · exact hs
  · exact belongs_peer h hq hs

theorem findLocalSocket_of_addressed (hs : addressed st t p = some s) :
    ∃ peerId, findLocalSocket st p.arg1 peerId = some s := by
  unfold addressed at hs
  split at hs
  · exact ⟨0, (Option.filter_eq_some_iff.mp hs).1⟩
  · exact ⟨p.arg0, (Option.filter_eq_some_iff.mp hs).1⟩
  · exact ⟨p.arg0, hs⟩
  · simp at hs

/-- The sockets that a message can reach: new ones, and the addressed one with
its peer. -/
def Reaches (st : Sockets) (t : TransportRef) (p : Apacket) (r : SocketRef) : Prop :=
  st.nextRef ≤ r ∨ ∃ s, addressed st t p = some s ∧ r ∈ withPeer st s

theorem effect_handleStream_addressed (h : WellFormed st) (ctx : ServiceContext) :
    Effect true (Reaches st t p) (fun _ => True) st (handleStream ctx st t p) := by
  have hnew : ∀ r, st.nextRef ≤ r → Reaches st t p r := fun r hr => .inl hr
  unfold handleStream
  split
  · exact effect_handleOpen h hnew trivial p
  · rename_i hcommand
    have haddressed : addressed st t p = (findLocalSocket st p.arg1 0).filter fun s =>
        match st.peerOf s with
        | none => true
        | some q => (st.heap q).any fun b => b.id = p.arg0 := by
      simp only [addressed, hcommand]
    cases hfound : findLocalSocket st p.arg1 0 with
    | none =>
        simp only [handleOkay, hfound]
        exact .send t (.inl rfl)
    | some s =>
        cases hs : addressed st t p with
        | some s' =>
            obtain rfl : s = s' := by
              rw [haddressed, hfound] at hs
              exact Option.some.inj (Option.filter_eq_some_iff.mp hs).1
            refine effect_handleOkay h hnew trivial p fun s'' hs'' r hr => .inr ⟨s, hs, ?_⟩
            obtain rfl := Option.some.inj (hfound.symm.trans hs'')
            exact hr
        | none =>
            rw [haddressed, hfound] at hs
            have hrejected := Option.filter_eq_none_iff.mp hs s rfl
            cases hpeer : st.peerOf s with
            | none => simp [hpeer] at hrejected
            | some q =>
                simp only [hpeer] at hrejected
                simp only [handleOkay, hfound, hpeer, if_neg hrejected]
                exact .refl
  · rename_i hcommand
    have haddressed : addressed st t p = (findLocalSocket st p.arg1 p.arg0).filter fun s =>
        !(p.arg0 = 0 && ((st.peerOf s).bind st.heap).any fun b => b.transport ≠ some t) := by
      simp only [addressed, hcommand]
    cases hfound : findLocalSocket st p.arg1 p.arg0 with
    | none =>
        simp only [handleClse, hfound]
        exact .refl
    | some s =>
        cases hs : addressed st t p with
        | some s' =>
            obtain rfl : s = s' := by
              rw [haddressed, hfound] at hs
              exact Option.some.inj (Option.filter_eq_some_iff.mp hs).1
            refine effect_handleClse h p fun s'' hs'' r hr => .inr ⟨s, hs, ?_⟩
            obtain rfl := Option.some.inj (hfound.symm.trans hs'')
            exact hr
        | none =>
            rw [haddressed, hfound] at hs
            have hrejected := Option.filter_eq_none_iff.mp hs s rfl
            have hforeign : p.arg0 = 0 ∧
                ((st.peerOf s).bind st.heap).any (fun b => b.transport ≠ some t) = true := by
              simpa using hrejected
            simp only [handleClse, hfound, if_pos hforeign]
            exact .refl
  · rename_i hcommand
    refine effect_handleWrte h p fun s hs r hr => .inr ⟨s, ?_, hr⟩
    simpa only [addressed, hcommand] using hs
  · exact .refl

theorem mem_of_emits {st₁ st₂ : Sockets} {e : Event} {P : Event → Prop} {events : List Event}
    (hrecorded : st₁.trace = st.trace ++ [e]) (hemits : Emits P st₁ st₂)
    (htrace : st₂.trace = st.trace ++ events) : e ∈ events := by
  obtain ⟨events', htrace', -⟩ := hemits
  rw [htrace', hrecorded, List.append_assoc, List.append_right_inj] at htrace
  simp [← htrace]

theorem handleStream_touches (h : WellFormed st) (ctx : ServiceContext)
    (hs : addressed st t p = some s) :
    (handleStream ctx st t p).heap s ≠ st.heap s ∨
      ∀ events, (handleStream ctx st t p).trace = st.trace ++ events →
        ∃ e ∈ events, Touches s e := by
  obtain ⟨peerId, hfound⟩ := findLocalSocket_of_addressed hs
  have hactive := active_of_findLocalSocket h hfound
  obtain ⟨hmem, -⟩ := mem_list_of_findLocalSocket hfound
  obtain ⟨a, ha, hlisted, hclosing⟩ := (h.listed s).mp hmem
  unfold addressed at hs
  unfold handleStream
  split at hs
  · rename_i hcommand
    obtain ⟨hokay, hpassed⟩ := Option.filter_eq_some_iff.mp hs
    simp only [hcommand, handleOkay, hokay]
    right
    cases hpeer : st.peerOf s with
    | none =>
        intro events htrace
        have hs : Connectable st s a :=
          ⟨ha, by simpa [Sockets.peerOf, ha] using hpeer, hclosing, hlisted⟩
        have hconnected : Effect true (fun _ => True) (fun _ => True) st
            (connectRemote st s p.arg0 t) :=
          effect_connectRemote h hs trivial trivial p.arg0 trivial
        have hready : Effect true (fun _ => True) (fun _ => True) (connectRemote st s p.arg0 t)
            (asocketReady ctx (connectRemote st s p.arg0 t) s) := by
          refine effect_asocketReady (hconnected.wellFormed h) ?_ (.inl rfl)
            (fun _ _ => trivial) ctx
          intro c hc
          obtain rfl := Option.some.inj ((connectRemote_cells h ha p.arg0 t).1.symm.trans hc)
          exact hclosing
        refine ⟨.connected s _ p.arg0 t,
          mem_of_emits rfl (hready.emits (hconnected.wellFormed h)) htrace, rfl⟩
    | some q =>
        intro events htrace
        simp only [hpeer] at hpassed
        simp only [if_pos hpassed] at htrace
        have hready : Effect true (fun _ => True) (fun _ => True) (st.record (.readyCalled s))
            (asocketReady ctx st s) :=
          effect_asocketReady_called h hactive (.inl rfl) (fun _ _ => trivial) ctx
        have hwf : WellFormed (st.record (.readyCalled s)) := h.congr rfl rfl rfl ⟨rfl, rfl⟩
        exact ⟨.readyCalled s, mem_of_emits rfl (hready.emits hwf) htrace, rfl⟩
  · rename_i hcommand
    obtain ⟨hclse, hpassed⟩ := Option.filter_eq_some_iff.mp hs
    have hnot : ¬ (p.arg0 = 0 ∧
        ((st.peerOf s).bind st.heap).any (fun b => b.transport ≠ some t) = true) := by
      simpa [imp_iff_not_or] using hpassed
    simp only [hcommand, handleClse, hclse, if_neg hnot]
    left
    rw [(h.asocketClose_closed ha).heap, if_pos (self_mem_withPeer st s), ha, Option.bind_some]
    intro hremains
    have hcell := (remains_eq_some hremains).2.2.2.2
    rw [hcell] at hclosing
    simp at hclosing
  · rename_i hcommand
    simp only [hcommand, handleWrte, hs]
    right
    intro events htrace
    have henqueued : Effect true (fun _ => True) (fun _ => True)
        (st.record (.enqueueCalled s p.data)) (asocketEnqueue st s p.data).2 :=
      (effect_asocketEnqueue_called h hactive (.inl rfl) (.inl rfl) p.data).mono id
        (fun _ _ => trivial) fun _ ht => ht
    have hwf : WellFormed (st.record (.enqueueCalled s p.data)) := h.congr rfl rfl rfl ⟨rfl, rfl⟩
    refine ⟨.enqueueCalled s p.data, ?_, rfl⟩
    split at htrace
    · refine mem_of_emits (P := fun _ => True) rfl (((henqueued.emits hwf).mono ?_).trans ?_) htrace
      · exact fun _ _ => trivial
      · exact .single rfl trivial
    · exact mem_of_emits rfl (henqueued.emits hwf) htrace
  · simp at hs

end Reach

section Isolation

variable {cfg : Config} {env : Oracle} {st : Server} {t : TransportRef} {p : Apacket}

/-- What a stream message does to the sockets. -/
theorem step_packet_sockets (hcommand : Command.isStream p.command = true) :
    ∃ ctx, ctx.host = cfg.host ∧ (step cfg env st (.packet t p)).sockets =
      if actsOn (st.transports t).online p then
        handleStream ctx ((scripted env st).record (.received t p)) t p
      else (scripted env st).record (.received t p) := by
  refine ⟨serviceContext cfg env ({ st with
    sockets := (scripted env st).record (.received t p) }.log (.received t p)), rfl, ?_⟩
  unfold step handlePacket
  dsimp only
  split
  · rename_i hp
    simp [hp, Command.isStream] at hcommand
  · rename_i hp
    simp [hp, Command.isStream] at hcommand
  · rename_i hp
    simp [hp, Command.isStream] at hcommand
  · split
    · rename_i hacts
      exact (if_pos hacts).symm
    · rename_i hacts
      exact (if_neg hacts).symm

theorem about_of_touches {s : SocketRef} {e : Event} (h : Touches s e) :
    Event.about e = some s := by
  cases e with
  | received | sent | fdRead | handedOver | fdWriteFailed | replied => exact h.elim
  | _ => exact congrArg some h

/-- A message on `t` stays with the sockets of `t` exactly if it names none or
one of them. -/
theorem isolated_iff_wellAddressed (h : (serverSystem cfg).Reachable st)
    (hcommand : Command.isStream p.command = true) :
    Isolated cfg env st t p ↔ WellAddressed st t p := by
  have hwf : WellFormed ((scripted env st).record (.received t p)) :=
    (wellFormed_of_reachable h).congr rfl rfl rfl ⟨rfl, rfl⟩
  obtain ⟨ctx, -, hstep⟩ := @step_packet_sockets cfg env st t p hcommand
  constructor
  · intro hisolated hacts s hs
    by_contra hforeign
    obtain ⟨peerId, hfound⟩ := findLocalSocket_of_addressed hs
    obtain ⟨hmem, -⟩ := mem_list_of_findLocalSocket hfound
    obtain ⟨a, ha, hlisted, -⟩ := ((wellFormed_of_reachable h).listed s).mp hmem
    obtain ⟨hheap, hevents⟩ := hisolated s a ha hlisted hforeign
    rw [hstep, if_pos hacts] at hheap hevents
    have hs' : addressed ((scripted env st).record (.received t p)) t p = some s := hs
    obtain ⟨events, htrace, -⟩ := (effect_handleStream_addressed hwf ctx).emits hwf
    rcases handleStream_touches hwf ctx hs' with hchanged | htouched
    · exact hchanged (hheap.trans ha.symm)
    · obtain ⟨e, he, htouches⟩ := htouched events htrace
      refine hevents (.received t p :: events) ?_ e (List.mem_cons_of_mem _ he) htouches
      rw [htrace]
      exact List.append_assoc _ _ _
  · intro haddressed s a ha hlisted hforeign
    rw [hstep]
    split
    · rename_i hacts
      have hnot : ¬ Reaches ((scripted env st).record (.received t p)) t p s := by
        rintro (hnew | ⟨s', hs', hmem⟩)
        · exact absurd (hwf.socket s a ha).fresh (Nat.not_lt.mpr hnew)
        · exact hforeign (belongs_withPeer (wellFormed_of_reachable h) hmem
            (haddressed hacts s' hs'))
      have heffect := @effect_handleStream_addressed
        ((scripted env st).record (.received t p)) t p hwf ctx
      refine ⟨(heffect.heap hwf hnot).trans ha, ?_⟩
      intro events htrace e he htouches
      obtain ⟨events', htrace', hevents'⟩ := heffect.emits hwf
      have hsame : .received t p :: events' = events := by
        have htotal := htrace'.symm.trans htrace
        simpa [Sockets.record, scripted] using htotal
      rw [← hsame] at he
      rcases List.mem_cons.mp he with rfl | he
      · exact htouches
      · exact hnot ((hevents' e he).2 s (about_of_touches htouches))
    · refine ⟨ha, ?_⟩
      intro events htrace e he htouches
      obtain rfl : [.received t p] = events := List.append_cancel_left htrace
      obtain rfl : e = .received t p := by simpa using he
      exact htouches

end Isolation

/-- Two transports of a device connect, and the first one opens a stream to a
service. -/
def openOnFirst : List (Action × Oracle) :=
  [(.register 0 .offline .usb, {}), (.register 1 .offline .localTransport, {}),
    (.packet 0 { command := .aCnxn, arg0 := 0x01000000, arg1 := 4096, data := ascii "host::" }, {}),
    (.packet 1 { command := .aCnxn, arg0 := 0x01000000, arg1 := 4096, data := ascii "host::" }, {}),
    (.packet 0 { command := .aOpen, arg0 := 7, arg1 := 0, data := ascii "tcp:5 " }, {})]

def openedOnFirst : Server :=
  (serverSystem (plainConfig false false)).execute .initial openOnFirst

def streamWrite : Apacket := { command := .aWrte, arg0 := 7, arg1 := 1, data := [1] }

theorem reachable_openedOnFirst :
    (serverSystem (plainConfig false false)).Reachable openedOnFirst :=
  System.reachableWhen_execute ⟨.initial, rfl, .refl⟩ (by decide)

theorem isolated_streamWrite_first :
    (serverSystem (plainConfig false false)).Reachable openedOnFirst ∧
      addressed openedOnFirst.sockets 0 streamWrite = some 0 ∧
      Belongs openedOnFirst.sockets 0 0 ∧
      Isolated (plainConfig false false) {} openedOnFirst 0 streamWrite := by
  have haddressed : addressed openedOnFirst.sockets 0 streamWrite = some 0 := by decide
  have hbelongs : Belongs openedOnFirst.sockets 0 0 := by decide
  refine ⟨reachable_openedOnFirst, haddressed, hbelongs,
    (isolated_iff_wellAddressed reachable_openedOnFirst (by decide)).mpr ?_⟩
  intro _ s hs
  obtain rfl := Option.some.inj (haddressed.symm.trans hs)
  exact hbelongs

/-- The second transport writes to the stream of the first one. -/
theorem isolated_fails_streamWrite_second :
    (serverSystem (plainConfig false false)).Reachable openedOnFirst ∧
      1 ∈ openedOnFirst.transportList ∧ ¬ Belongs openedOnFirst.sockets 0 1 ∧
      ¬ Isolated (plainConfig false false) {} openedOnFirst 1 streamWrite := by
  have hforeign : ¬ Belongs openedOnFirst.sockets 0 1 := by decide
  have hcell : ∃ a, openedOnFirst.sockets.heap 0 = some a ∧ SocketKind.isListed a.kind = true := by
    decide
  obtain ⟨a, ha, hlisted⟩ := hcell
  refine ⟨reachable_openedOnFirst, by decide, hforeign, fun h => ?_⟩
  have hkept := (h 0 a ha hlisted hforeign).1
  rw [← ha] at hkept
  revert hkept
  decide

end Adb.TransportIsolation
