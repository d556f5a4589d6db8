import Adb.StreamViews

/-!
What a process does about one message of a transport, as an endpoint of the
stream protocol: the callbacks that are no message move the endpoint on its
own, and a message joins a stream, is handed to the socket it names, or is
passed over.
-/

namespace Adb.StreamMessages

open Adb.DescriptorIo
open Adb.WirePackets
open Adb.SocketTable
open Adb.SocketOperations
open Adb.SmartSockets
open Adb.SocketClosing
open Adb.SocketGraph
open Adb.SocketEffects
open Adb.OperationEffects
open Adb.StreamEffects
open Adb.GraphInvariants
open Adb.ServerState
open Adb.TransportIsolation
open Adb.StreamSends
open Adb.StreamProtocol (Stage Endpoint Message Moves Takes)
open Adb.StreamLinks
open Adb.StreamCallbacks
open Adb.StreamViews

/-- The history names every joined socket; what it names was joined to a proper id
and is the only socket with its own. -/
structure Recorded (t : TransportRef) (st : Sockets) : Prop where
  joined : ∀ s i j, Joined t st s j i → .connected s j i t ∈ st.trace
  proper : ∀ s i j, .connected s j i t ∈ st.trace → i ≠ 0
  fresh : ∀ s i j, .connected s j i t ∈ st.trace → s < st.nextRef
  later : ∀ s i j, .connected s j i t ∈ st.trace → Joined t st s j i ∨ Over st s
  ids : ∀ s i j, .connected s j i t ∈ st.trace → j < st.localSocketNextId
  unique : ∀ s i j, .connected s j i t ∈ st.trace → ∀ p a, Listed st p a → a.id = j → p = s

section Records

variable {t : TransportRef} {st st' : Sockets} {s p : SocketRef} {a b : Asocket}

theorem recorded_initial : Recorded t .initial where
  joined := by
    rintro s i j ⟨a, q, b, ha, -⟩
    cases ha
  proper := fun s i j hs => nomatch hs
  fresh := fun s i j hs => nomatch hs
  later := fun s i j hs => nomatch hs
  ids := fun s i j hs => nomatch hs
  unique := fun s i j hs => nomatch hs

theorem listed_eq (hwf : WellFormed st) (hp : Listed st p b) (hs : Listed st s a)
    (hid : b.id = a.id) : p = s :=
  hwf.idInj p s b a hp.cell hs.cell (hp.mem hwf) (hs.mem hwf) hid

theorem listed_earlier (hids : IdsKept st st') (hp : Listed st' p b)
    (hold : b.id < st.localSocketNextId) : ∃ c, Listed st p c ∧ c.id = b.id := by
  rcases hids.ids p b hp.cell hp.listed hp.active with ⟨c, hc, hlisted, hclosing, hid⟩ | hnew
  · exact ⟨c, ⟨hc, hlisted, hclosing⟩, hid⟩
  · exact absurd hold (Nat.not_lt.mpr hnew)

theorem recorded_of_kept (h : Recorded t st) (hkept : Kept t st st') : Recorded t st' := by
  obtain ⟨events, htrace, htells⟩ := hkept.emits
  have hold : ∀ {s i j}, .connected s j i t ∈ st'.trace → .connected s j i t ∈ st.trace := by
    intro s i j hs
    rw [htrace] at hs
    rcases List.mem_append.mp hs with hs | hs
    · exact hs
    · exact absurd rfl (htells _ hs)
  refine ⟨fun s i j hs => ?_, fun s i j hs => h.proper s i j (hold hs), fun s i j hs => ?_,
    fun s i j hs => ?_, fun s i j hs => ?_, fun s i j hs p b hp hid => ?_⟩
  · rw [htrace]
    exact List.mem_append_left _ (h.joined s i j (hkept.joined s j i hs))
  · exact Nat.lt_of_lt_of_le (h.fresh s i j (hold hs)) hkept.next
  · rcases h.later s i j (hold hs) with hjoined | hover
    · exact hkept.stays s j i hjoined
    · exact .inr (hkept.ended s (h.fresh s i j (hold hs)) hover)
  · exact Nat.lt_of_lt_of_le (h.ids s i j (hold hs)) hkept.ids.counter
  · obtain ⟨c, hc, hcid⟩ := listed_earlier hkept.ids hp (hid ▸ h.ids s i j (hold hs))
    exact h.unique s i j (hold hs) p c hc (hcid.trans hid)

theorem message_speaks {p : Apacket} {m : Message Bytes} {i j : Nat} (hm : message p = some m)
    (hspeaks : m.Speaks i j) :
    p.arg0 = i ∧ p.arg1 = j ∧ (p.arg0 ≠ 0 ∧ p.arg1 ≠ 0) ∧
      (p.command = .aOkay ∨ p.command = .aWrte) := by
  unfold message at hm
  split at hm
  · split at hm
    · obtain rfl := Option.some.inj hm
      exact hspeaks.elim
    · cases hm
  · split at hm
    · obtain rfl := Option.some.inj hm
      exact ⟨hspeaks.1, hspeaks.2, ‹_›, .inl ‹_›⟩
    · cases hm
  · split at hm
    · obtain rfl := Option.some.inj hm
      exact ⟨hspeaks.1, hspeaks.2, ‹_›, .inr ‹_›⟩
    · cases hm
  · split at hm
    · obtain rfl := Option.some.inj hm
      exact hspeaks.elim
    · cases hm
  · cases hm

theorem message_opens {p : Apacket} {i : Nat} (hm : message p = some (.opens i)) :
    p.command = .aOpen ∧ p.arg0 = i ∧ p.arg0 ≠ 0 := by
  unfold message at hm
  split at hm
  · split at hm
    · cases hm
      exact ⟨‹_›, rfl, ‹p.arg0 ≠ 0 ∧ p.arg1 = 0›.1⟩
    · cases hm
  · split at hm <;> cases hm
  · split at hm <;> cases hm
  · split at hm <;> cases hm
  · cases hm

theorem moves_of_kept (h : Recorded t st) (hkept : Kept t st st') :
    ∃ events, st'.trace = st.trace ++ events ∧
      Moves (view t st) (view t st') (messagesOn t events) := by
  obtain ⟨events, htrace, htells⟩ := hkept.emits
  refine ⟨events, htrace, advances_of_kept hkept, ?_, ?_, ?_⟩
  · funext i j
    change delivered t i j st'.trace = delivered t i j st.trace
    rw [htrace]
    refine delivered_append (fun e he => ?_) fun e he s hs => ?_
    · cases e with
      | connected p j' i' t' =>
          have ht : t' ≠ t := htells _ he
          simp [joins, ht]
      | _ => rfl
    · cases e with
      | enqueueCalled p data =>
          have hunjoined : Unjoined t st p := htells _ he
          refine if_neg ?_
          rintro rfl
          rcases h.later p i j hs with hjoined | hover
          · exact hunjoined.not_joined hkept.before hjoined
          · exact hunjoined.not_over (h.fresh p i j hs) hover
      | _ => rfl
  · intro j hj
    obtain ⟨p, hp, hm⟩ := mem_messagesOn.mp hj
    obtain ⟨hcommand, rfl, hid⟩ := message_opens hm
    exact opened_of_asked hkept.after ((htells _ hp rfl hid).2 hcommand)
  · rintro i j ⟨m, hmem, hspeaks⟩
    obtain ⟨p, hp, hm⟩ := mem_messagesOn.mp hmem
    obtain ⟨rfl, rfl, hids, hcommand⟩ := message_speaks hm hspeaks
    exact (stage_joined hkept.before).mpr ((htells _ hp rfl hids.1).1 hcommand)

end Records

section Joins

variable {t : TransportRef} {st : Sockets} {s : SocketRef} {a : Asocket} {i : Nat}
  (h : WellFormed st) (hs : Connectable st s a)

include h hs

theorem wellFormed_connectRemote : WellFormed (connectRemote st s i t) :=
  (effect_connectRemote (T := fun _ => True) (R := fun _ => True) h hs trivial trivial i
    trivial).wellFormed h

theorem idsKept_connectRemote : IdsKept st (connectRemote st s i t) :=
  idsKept_effect (effect_connectRemote (T := fun _ => True) (R := fun _ => True) h hs trivial
    trivial i trivial) h

omit h in
theorem listed_of_connectable : Listed st s a := ⟨hs.cell, hs.listed, hs.active⟩

theorem recorded_connectRemote (hi : i ≠ 0) (hrec : Recorded t st) :
    Recorded t (connectRemote st s i t) := by
  obtain ⟨-, -, -, htrace⟩ := connectRemote_cells h hs.cell i t
  have heffect : Effect true (fun _ => True) (fun _ => True) st (connectRemote st s i t) :=
    effect_connectRemote h hs trivial trivial i trivial
  have hnext := (heffect.counters h).1
  have hids := @idsKept_connectRemote t st s a i h hs
  have hcases : ∀ {p j k}, .connected p k j t ∈ (connectRemote st s i t).trace →
      .connected p k j t ∈ st.trace ∨ (p = s ∧ k = a.id ∧ j = i) := by
    intro p j k hp
    rw [htrace] at hp
    rcases List.mem_append.mp hp with hp | hp
    · exact .inl hp
    · cases List.mem_singleton.mp hp
      exact .inr ⟨rfl, rfl, rfl⟩
  have hfresh : ∀ p j k, .connected p k j t ∈ (connectRemote st s i t).trace →
      p < st.nextRef := by
    intro p j k hp
    rcases hcases hp with hp | ⟨rfl, -, -⟩
    · exact hrec.fresh p j k hp
    · exact (h.socket p a hs.cell).fresh
  have hold : ∀ p j k, .connected p k j t ∈ (connectRemote st s i t).trace →
      k < st.localSocketNextId := by
    intro p j k hp
    rcases hcases hp with hp | ⟨-, rfl, -⟩
    · exact hrec.ids p j k hp
    · exact (listed_of_connectable hs).id_lt h
  refine ⟨fun p j k hp => ?_, fun p j k hp => ?_,
    fun p j k hp => Nat.lt_of_lt_of_le (hfresh p j k hp) hnext, fun p j k hp => ?_,
    fun p j k hp => Nat.lt_of_lt_of_le (hold p j k hp) hids.counter,
    fun p j k hp q b hq hid => ?_⟩
  · rw [htrace]
    rcases (joined_connectRemote h hs).mp hp with hp | ⟨-, rfl, rfl, rfl⟩
    · exact List.mem_append_left _ (hrec.joined p j k hp)
    · exact List.mem_append_right _ List.mem_cons_self
  · rcases hcases hp with hp | ⟨-, -, rfl⟩
    · exact hrec.proper p j k hp
    · exact hi
  · rcases hcases hp with hp | ⟨rfl, rfl, rfl⟩
    · rcases hrec.later p j k hp with hjoined | hover
      · exact .inl ((joined_connectRemote h hs).mpr (.inl hjoined))
      · exact .inr ((over_connectRemote h hs (hrec.fresh p j k hp)).mpr hover)
    · exact .inl ((joined_connectRemote h hs).mpr (.inr ⟨rfl, rfl, rfl, rfl⟩))
  · obtain ⟨c, hc, hcid⟩ := listed_earlier hids hq (hid ▸ hold p j k hp)
    rcases hcases hp with hp | ⟨rfl, rfl, -⟩
    · exact hrec.unique p j k hp q c hc (hcid.trans hid)
    · exact listed_eq h hc (listed_of_connectable hs) (hcid.trans hid)

theorem stage_connectRemote (k : Nat) :
    stage t (connectRemote st s i t) k = if k = a.id then .joined i else stage t st k := by
  have hwf := @wellFormed_connectRemote t st s a i h hs
  obtain ⟨hself, hnew, hother, -⟩ := connectRemote_cells h hs.cell i t
  split
  · rename_i hk
    exact (stage_joined hwf).mpr
      ⟨s, (joined_connectRemote h hs).mpr (.inr ⟨rfl, rfl, hk, rfl⟩)⟩
  · rename_i hk
    have hcounter : (connectRemote st s i t).localSocketNextId = st.localSocketNextId := rfl
    have hfresh : ∀ {p b}, st.heap p = some b → p ≠ st.nextRef := fun hp =>
      Nat.ne_of_lt (h.socket _ _ hp).fresh
    have hback : ∀ {p b}, Listed (connectRemote st s i t) p b → b.id = k → Listed st p b := by
      intro p b hp hid
      have hps : p ≠ s := by
        rintro rfl
        obtain rfl := Option.some.inj (hself.symm.trans hp.cell)
        exact hk hid.symm
      have hpn : p ≠ st.nextRef := by
        rintro rfl
        obtain rfl := Option.some.inj (hnew.symm.trans hp.cell)
        have hlisted : false = true := hp.listed
        cases hlisted
      exact ⟨hother p hps hpn ▸ hp.cell, hp.listed, hp.active⟩
    rcases stage_cases t h k with ⟨hle, hstage⟩ | ⟨p, b, hp, rfl, hstage⟩ | ⟨hlt, hnone, hstage⟩
    · rw [hstage, stage, hcounter, if_pos hle]
    · have hps : p ≠ s := by
        rintro rfl
        exact hk (congrArg Asocket.id (Option.some.inj (hp.cell.symm.trans hs.cell)))
      have hp' : Listed (connectRemote st s i t) p b :=
        ⟨(hother p hps (hfresh hp.cell)).trans hp.cell, hp.listed, hp.active⟩
      rw [hstage, stage_of_listed hwf hp']
      unfold standing
      cases hpeer : b.peer with
      | none => rfl
      | some q =>
          obtain ⟨-, c, hc, hcpeer, -⟩ := (h.socket p b hp.cell).peer q hpeer
          have hqs : q ≠ s := by
            rintro rfl
            obtain rfl := Option.some.inj (hs.cell.symm.trans hc)
            simp [hs.peer] at hcpeer
          simp only [hother q hqs (hfresh hc)]
    · rw [hstage]
      exact stage_of_unlisted hwf hlt fun p b hp hid => hnone p b (hback hp hid) hid

theorem view_connectRemote : view t (connectRemote st s i t) = (view t st).join a.id i := by
  obtain ⟨-, -, -, htrace⟩ := connectRemote_cells h hs.cell i t
  have hstage : stage t (connectRemote st s i t) =
      Function.update (stage t st) a.id (.joined i) := by
    funext k
    rw [stage_connectRemote h hs, Function.update_apply]
  have haccepted : (fun i' j => delivered t i' j (connectRemote st s i t).trace) =
      fun i' j => delivered t i' j st.trace := by
    funext i' j
    rw [htrace, delivered_concat]
    cases st.trace.findSome? (joins t i' j) with
    | none => exact List.append_nil _
    | some p => exact List.append_nil _
  rw [view, hstage, haccepted]
  rfl

end Joins

/-- A callback that does something on its own, takes the message, and goes on on
its own. -/
inductive Hears (t : TransportRef) (st : Sockets) (m : Message Bytes) (st' : Sockets) : Prop where
  | mk (st₁ st₂ : Sockets) (events : List Event) (before : Kept t st st₁)
      (trace : st₂.trace = st₁.trace ++ events)
      (takes : Takes (view t st₁) m (view t st₂) (messagesOn t events))
      (recorded : Recorded t st₂) (after : Kept t st₂ st')

section Messages

variable {t : TransportRef} {st st' : Sockets} {ctx : ServiceContext} {p : Apacket}
  {m : Message Bytes} {s : SocketRef} {a : Asocket} {i j : Nat}

theorem recorded_of_hears (h : Hears t st m st') : Recorded t st' := by
  obtain ⟨st₁, st₂, events, -, -, -, hrec, hafter⟩ := h
  exact recorded_of_kept hrec hafter

theorem hears_passed (hrec : Recorded t st) (hkept : Kept t st st')
    (hokay : ∀ i j, m = .okay i j → stage t st j ≠ .opening)
    (hwrite : ∀ i j data, m = .write i j data → stage t st j ≠ .joined i) : Hears t st m st' :=
  .mk st st [] (.refl hkept.before) (List.append_nil _).symm (.passed m hokay hwrite) hrec hkept

theorem listed_of_findLocalSocket (h : WellFormed st) (hs : findLocalSocket st j i = some s) :
    ∃ a, Listed st s a ∧ a.id = j := by
  obtain ⟨hmem, a, ha, hid⟩ := mem_list_of_findLocalSocket hs
  obtain ⟨b, hb, hlisted, hclosing⟩ := (h.listed s).mp hmem
  obtain rfl := Option.some.inj (ha.symm.trans hb)
  exact ⟨a, ⟨ha, hlisted, hclosing⟩, hid⟩

theorem findLocalSocket_of_listed (h : WellFormed st) (hs : Listed st s a) {p : SocketRef} :
    findLocalSocket st a.id i = some p ↔
      p = s ∧ (i = 0 ∨ ∃ q b, a.peer = some q ∧ st.heap q = some b ∧ b.id = i) := by
  rw [findLocalSocket, find_of_listed h hs]
  simp only [hs.cell, Option.any_some, Option.any_eq_true, decide_eq_true_eq]
  constructor
  · intro hfound
    split at hfound
    · rename_i hmatch
      refine ⟨(Option.some.inj hfound).symm, hmatch.imp_right ?_⟩
      rintro ⟨q, hq, b, hb, hid⟩
      exact ⟨q, b, hq, hb, hid⟩
    · cases hfound
  · rintro ⟨rfl, hmatch⟩
    rw [if_pos]
    refine hmatch.imp_right ?_
    rintro ⟨q, b, hq, hb, hid⟩
    exact ⟨q, hq, b, hb, hid⟩

/-- A message that names no listed socket finds its stream fresh or gone. -/
theorem stage_of_not_found (h : WellFormed st) (hnone : findLocalSocket st j 0 = none) :
    stage t st j = .fresh ∨ stage t st j = .gone := by
  rcases stage_cases t h j with ⟨-, hstage⟩ | ⟨s, a, hs, rfl, -⟩ | ⟨-, -, hstage⟩
  · exact .inl hstage
  · rw [(findLocalSocket_of_listed h hs).mpr ⟨rfl, .inl rfl⟩] at hnone
    cases hnone
  · exact .inr hstage

theorem findLocalSocket_of_joined (h : WellFormed st) (hs : Joined t st s j i) :
    findLocalSocket st j i = some s := by
  obtain ⟨a, ha, hlisted, hclosing, rfl⟩ := hs.listed h
  obtain ⟨c, q, b, hc, -, hpeer, hb, -, hid, -⟩ := hs
  obtain rfl := Option.some.inj (ha.symm.trans hc)
  exact (findLocalSocket_of_listed h ⟨ha, hlisted, hclosing⟩).mpr
    ⟨rfl, .inr ⟨q, b, hpeer, hb, hid⟩⟩

theorem view_sendPacket (t' : TransportRef) (p : Apacket) :
    view t (st.sendPacket t' p) = view t st := by
  have haccepted : (fun i j => delivered t i j (st.sendPacket t' p).trace) =
      fun i j => delivered t i j st.trace := by
    funext i j
    change delivered t i j (st.trace ++ [.sent t' p]) = delivered t i j st.trace
    rw [delivered_concat]
    cases st.trace.findSome? (joins t i j) with
    | none => exact List.append_nil _
    | some s => exact List.append_nil _
  rw [view, haccepted]
  rfl

theorem not_settled_of_connectable (h : WellFormed st) (hs : Connectable st s a) :
    ¬ ((view t st).stage a.id).Settled := by
  change ¬ (stage t st a.id).Settled
  rw [stage_of_listed h (listed_of_connectable hs), standing, hs.peer]
  dsimp only
  split <;> exact id

theorem hears_connect (h : WellFormed st) (hs : Connectable st s a) (hi : i ≠ 0)
    (hrec : Recorded t st) (hkept : Kept t (connectRemote st s i t) st') :
    Hears t st (.okay i a.id) st' := by
  obtain ⟨-, -, -, htrace⟩ := connectRemote_cells h hs.cell i t
  refine .mk st (connectRemote st s i t) _ (.refl h) htrace ?_
    (recorded_connectRemote h hs hi hrec) hkept
  rw [view_connectRemote h hs]
  exact .connected i a.id (not_settled_of_connectable h hs)

theorem hears_handleOpen (h : WellFormed st) (hrec : Recorded t st) (hid : p.arg0 ≠ 0) :
    Hears t st (.opens p.arg0) (handleOpen ctx st t p) := by
  unfold handleOpen
  split
  · refine hears_passed hrec (kept_sendPacket h t (tells_sent ?_ ?_ ?_)) nofun nofun <;> simp
  · rename_i s st₁ hservice
    obtain ⟨hcreated, a, hs⟩ : Effect true (fun _ => True) (fun _ => True) st st₁ ∧
        ∃ a, ServiceSocket st st₁ s a := createLocalServiceSocket_spec hservice h trivial
    have hnew : Kept t st st₁ := kept_service h hcreated hs
    have hwf := hnew.after
    have hlisted := listed_of_connectable hs.connectable
    obtain ⟨hself, -, -, htrace⟩ := connectRemote_cells hwf hs.connectable.cell p.arg0 t
    have hjoined := wellFormed_connectRemote (i := p.arg0) (t := t) hwf hs.connectable
    have hsent : Kept t (connectRemote st₁ s p.arg0 t) ((connectRemote st₁ s p.arg0 t).sendPacket t
        { command := .aOkay, arg0 := a.id, arg1 := p.arg0, data := [] }) := by
      refine kept_sendPacket hjoined t fun _ _ => ⟨fun _ => ⟨s, ?_⟩, fun hopen => by cases hopen⟩
      exact (joined_connectRemote hwf hs.connectable).mpr (.inr ⟨rfl, rfl, rfl, rfl⟩)
    dsimp only
    rw [hself, Option.map_some, Option.getD_some]
    refine .mk st₁ _ [.connected s a.id p.arg0 t, .sent t
      { command := .aOkay, arg0 := a.id, arg1 := p.arg0, data := [] }] hnew ?_ ?_
      (recorded_of_kept (recorded_connectRemote hwf hs.connectable hid (recorded_of_kept hrec hnew))
        hsent) (kept_asocketReady ctx hsent.after s)
    · simp [Sockets.sendPacket, htrace]
    · have hpositive : a.id ≠ 0 :=
        Nat.ne_of_gt ((hwf.socket s a hlisted.cell).id hlisted.listed hlisted.active).1
      have hsays : messagesOn t [.connected s a.id p.arg0 t, .sent t
          { command := .aOkay, arg0 := a.id, arg1 := p.arg0, data := [] }] =
          [.okay a.id p.arg0] := by
        simp [messagesOn, sentOn, message, hpositive, hid]
      rw [view_sendPacket, view_connectRemote hwf hs.connectable, hsays]
      exact .opened p.arg0 a.id (not_settled_of_connectable hwf hs.connectable)

theorem hears_handleOkay (h : WellFormed st) (hrec : Recorded t st) (hproper : p.arg0 ≠ 0) :
    Hears t st (.okay p.arg0 p.arg1) (handleOkay ctx st t p) := by
  unfold handleOkay
  split
  · rename_i hnone
    refine hears_passed hrec (kept_sendPacket h t (tells_sent ?_ ?_ ?_)) ?_ nofun
    · simp
    · simp
    · simp
    · rintro i j ⟨⟩
      rcases stage_of_not_found (t := t) h hnone with hstage | hstage
      · simp [hstage]
      · simp [hstage]
  · rename_i s hfound
    obtain ⟨a, hs, hid⟩ := listed_of_findLocalSocket h hfound
    split
    · rename_i hpeer
      have hconnectable : Connectable st s a :=
        ⟨hs.cell, by simpa [Sockets.peerOf, hs.cell] using hpeer, hs.active, hs.listed⟩
      rw [← hid]
      exact hears_connect h hconnectable hproper hrec
        (kept_asocketReady ctx (wellFormed_connectRemote h hconnectable) s)
    · rename_i q hpeer
      have hstage : stage t st p.arg1 ≠ .opening := by
        rw [← hid, stage_of_listed h hs, ne_eq, standing_opening]
        rintro ⟨hnone, -⟩
        simp [Sockets.peerOf, hs.cell, hnone] at hpeer
      refine hears_passed hrec ?_ ?_ nofun
      · split
        · exact kept_asocketReady ctx h s
        · exact .refl h
      · rintro i j ⟨⟩
        exact hstage

theorem heap_of_localSocketEnqueue {data : Bytes} (hs : (localSocketEnqueue st s data).1 = 0) :
    (localSocketEnqueue st s data).2.heap = st.heap := by
  unfold localSocketEnqueue at hs ⊢
  split
  · rename_i hnone
    simp [hnone] at hs
  · rename_i a ha
    simp only [ha] at hs
    split
    · rename_i hempty
      simp only [hempty, if_true] at hs
      dsimp only
      split
      · rfl
      · rename_i hstatus
        simp [hstatus] at hs
      · rename_i hstatus
        simp [hstatus] at hs
    · rename_i hempty
      simp [hempty] at hs

theorem heap_of_asocketEnqueue {data : Bytes} (hs : (asocketEnqueue st s data).1 = 0) :
    (asocketEnqueue st s data).2.heap = st.heap := by
  unfold asocketEnqueue at hs ⊢
  generalize hst₁ : st.record (.enqueueCalled s data) = st₁ at hs ⊢
  have hheap : st₁.heap = st.heap := by
    rw [← hst₁]
    rfl
  rw [← hheap]
  dsimp only at hs ⊢
  cases hkind : st₁.kindOf s with
  | none => simp [hkind] at hs
  | some k =>
      cases k with
      | localSocket | localNotify =>
          simp only [hkind] at hs ⊢
          exact heap_of_localSocketEnqueue hs
      | remote =>
          simp only [hkind, remoteSocketEnqueue] at hs
          split at hs <;> simp at hs
      | jdwp | jdwpTracker =>
          simp only [hkind, jdwpSocketEnqueue] at hs
          split at hs <;> simp at hs
      | deviceTracker => simp [hkind, deviceTrackerEnqueue] at hs
      | smart => simp [hkind] at hs

theorem recorded_record (h : Recorded t st) {e : Event} (he : ∀ s i j, e ≠ .connected s j i t) :
    Recorded t (st.record e) := by
  have hold : ∀ {s i j}, .connected s j i t ∈ (st.record e).trace →
      .connected s j i t ∈ st.trace := by
    intro s i j hs
    rcases List.mem_append.mp hs with hs | hs
    · exact hs
    · exact absurd (List.mem_singleton.mp hs).symm (he s i j)
  exact ⟨fun s i j hs => List.mem_append_left _ (h.joined s i j hs),
    fun s i j hs => h.proper s i j (hold hs), fun s i j hs => h.fresh s i j (hold hs),
    fun s i j hs => h.later s i j (hold hs),
    fun s i j hs => h.ids s i j (hold hs), fun s i j hs p a hp =>
      h.unique s i j (hold hs) p a ⟨hp.cell, hp.listed, hp.active⟩⟩

theorem view_enqueueCalled (h : WellFormed st) (hrec : Recorded t st) (hs : Joined t st s j i)
    (data : Bytes) :
    view t (st.record (.enqueueCalled s data)) = (view t st).accept i j data := by
  obtain ⟨a, ha, hlisted, hclosing, hid⟩ := hs.listed h
  have haccepted : (fun i' j' => delivered t i' j' (st.record (.enqueueCalled s data)).trace) =
      ((view t st).accept i j data).accepted := by
    funext i' j'
    change delivered t i' j' (st.trace ++ [.enqueueCalled s data]) =
      if i' = i ∧ j' = j then delivered t i' j' st.trace ++ [data] else delivered t i' j' st.trace
    rw [delivered_concat]
    cases hfind : st.trace.findSome? (joins t i' j') with
    | none =>
        rw [if_neg]
        · exact List.append_nil _
        · rintro ⟨rfl, rfl⟩
          have hnone := List.findSome?_eq_none_iff.mp hfind _ (hrec.joined s i' j' hs)
          rw [joins_eq_some.mpr rfl] at hnone
          cases hnone
    | some p =>
        obtain ⟨e, he, hjoins⟩ := List.exists_of_findSome?_eq_some hfind
        rw [joins_eq_some.mp hjoins] at he
        by_cases hpair : i' = i ∧ j' = j
        · obtain ⟨rfl, rfl⟩ := hpair
          obtain rfl := hrec.unique p i' j' he s a ⟨ha, hlisted, hclosing⟩ hid
          simp [handed]
        · have hps : s ≠ p := by
            rintro rfl
            rcases hrec.later s i' j' he with hjoined | hover
            · obtain ⟨c, q, b, hc, hcid, hq, hb, -, hbid, -⟩ := hs
              obtain ⟨c', q', b', hc', hcid', hq', hb', -, hbid', -⟩ := hjoined
              obtain rfl := Option.some.inj (hc.symm.trans hc')
              obtain rfl := Option.some.inj (hq.symm.trans hq')
              obtain rfl := Option.some.inj (hb.symm.trans hb')
              exact hpair ⟨hbid'.symm.trans hbid, hcid'.symm.trans hcid⟩
            · exact hs.not_over h hover
          rw [if_neg hpair]
          simp [handed, hps]
  rw [view, haccepted]
  rfl

theorem hears_handleWrte (h : WellFormed st) (hrec : Recorded t st) (hid : p.arg0 ≠ 0)
    (hsettled : (stage t st p.arg1).Settled) :
    Hears t st (.write p.arg0 p.arg1 p.data) (handleWrte st t p) := by
  unfold handleWrte
  split
  · rename_i hnone
    refine hears_passed hrec (.refl h) nofun ?_
    rintro i j data ⟨⟩ hjoined
    obtain ⟨s, hs⟩ := (stage_joined h).mp hjoined
    rw [findLocalSocket_of_joined h hs] at hnone
    cases hnone
  · rename_i s hfound
    obtain ⟨a, hs, ha⟩ := listed_of_findLocalSocket h hfound
    have hjoined : Joined t st s p.arg1 p.arg0 := by
      rw [← ha] at hsettled hfound ⊢
      rw [stage_of_listed h hs] at hsettled
      obtain ⟨-, hzero | ⟨q, b, hq, hb, hpeer⟩⟩ := (findLocalSocket_of_listed h hs).mp hfound
      · exact absurd hzero hid
      · rcases standing_cases t st a with hidle | hopening | ⟨j, hj⟩
        · rw [hidle] at hsettled
          exact hsettled.elim
        · rw [hopening] at hsettled
          exact hsettled.elim
        · obtain ⟨q', b', hq', hb', hkind, -, ht⟩ := standing_joined.mp hj
          obtain rfl := Option.some.inj (hq.symm.trans hq')
          obtain rfl := Option.some.inj (hb.symm.trans hb')
          exact ⟨a, q, b, hs.cell, rfl, hq, hb, hkind, hpeer, ht⟩
    have hcalled := kept_asocketEnqueue_called (t := t) h s p.data
    refine .mk st (st.record (.enqueueCalled s p.data)) [.enqueueCalled s p.data] (.refl h) rfl ?_
      (recorded_record hrec fun _ _ _ heq => by cases heq) ?_
    · rw [view_enqueueCalled h hrec hjoined]
      exact .written p.arg0 p.arg1 p.data ((stage_joined h).mpr ⟨s, hjoined⟩)
    · have hheap := @heap_of_asocketEnqueue st s p.data
      generalize asocketEnqueue st s p.data = out at hcalled hheap ⊢
      obtain ⟨r, st₁⟩ := out
      dsimp only at hcalled hheap ⊢
      split
      · rename_i hr
        have hjoined' : Joined t st₁ s p.arg1 p.arg0 := by
          rw [StreamLinks.Joined, hheap hr]
          exact hjoined
        rw [hheap hr, hs.cell, Option.map_some, Option.getD_some, ha]
        refine hcalled.trans (kept_sendPacket hcalled.after t fun _ _ => ⟨fun _ => ⟨s, hjoined'⟩, ?_⟩)
        intro hopen
        cases hopen
      · exact hcalled

/-- A message about a stream that the process acts on. -/
theorem hears_handleStream (h : WellFormed st) (hrec : Recorded t st) (hm : message p = some m)
    (hsettled : ∀ i j data, m = .write i j data → (stage t st j).Settled) :
    Hears t st m (handleStream ctx st t p) := by
  unfold message at hm
  unfold handleStream
  split at hm
  · rename_i hcommand
    rw [hcommand]
    split at hm
    · rename_i hids
      obtain rfl := Option.some.inj hm
      exact hears_handleOpen h hrec hids.1
    · cases hm
  · rename_i hcommand
    rw [hcommand]
    split at hm
    · rename_i hids
      obtain rfl := Option.some.inj hm
      exact hears_handleOkay h hrec hids.1
    · cases hm
  · rename_i hcommand
    rw [hcommand]
    split at hm
    · rename_i hids
      obtain rfl := Option.some.inj hm
      exact hears_handleWrte h hrec hids.1 (hsettled _ _ _ rfl)
    · cases hm
  · rename_i hcommand
    rw [hcommand]
    split at hm
    · obtain rfl := Option.some.inj hm
      refine hears_passed hrec (kept_handleClse h) ?_ ?_
      · intro i j heq
        cases heq
      · intro i j data heq
        cases heq
    · cases hm
  · cases hm

end Messages

end Adb.StreamMessages
