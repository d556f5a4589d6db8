import Adb.Histories
import Adb.LedgerCallbacks

/-!
The account of every stream since it was joined: what was written to its descriptor has
come out of what was handed to it, and what was sent out of what was read.
-/

namespace Adb.StreamAccounts

open Adb.DescriptorIo
open Adb.WirePackets
open Adb.SocketTable
open Adb.SocketOperations
open Adb.SocketClosing
open Adb.SocketGraph
open Adb.SocketEffects
open Adb.SmartEffects
open Adb.StreamEffects
open Adb.GraphInvariants
open Adb.ClosingDrain (bytesWritten bytesWritten_append)
open Adb.ReadAccounting (bytesRead)
open Adb.Histories
open Adb.ServerState
open Adb.ServerRuns
open Adb.ServerEffects
open Adb.TransportIsolation
open Adb.StreamLinks
open Adb.StreamCallbacks
open Adb.StreamMessages
open Adb.StreamRests
open Adb.StreamLedger
open Adb.LedgerCallbacks

/-- The account of every stream that was joined over `t`. -/
structure Account (t : TransportRef) (st : Sockets) : Prop where
  positive : ∀ s i j, .connected s i j t ∈ st.trace → 0 < i
  silent : ∀ i j, 0 < i → (∀ s, .connected s i j t ∉ st.trace) → bytesSent t i j st.trace = []
  stream : ∀ before after s i j, st.trace = before ++ .connected s i j t :: after →
    bytesSent t i j before = [] ∧ Pours st s (bytesWritten s after) (bytesFed s after) ∧
      Passes t st s i j (bytesSent t i j after) (bytesRead s after)

/-- An event that joins nothing, and sends a `WRTE` only on a joined stream. -/
def Utters (t : TransportRef) (st : Sockets) : Event → Prop
  | .sent t' p => t' = t → p.arg0 ≠ 0 → p.command = .aWrte → ∃ s, Joined t st s p.arg0 p.arg1
  | .connected _ _ _ t' => t' ≠ t
  | _ => True

section Accounts

variable {t : TransportRef} {st st' : Sockets} {s : SocketRef} {a : Asocket} {i j : Nat}

theorem utters_of_tells {e : Event} (h : Tells t st st' e) : Utters t st e := by
  cases e with
  | sent t' p => exact fun ht harg hc => (h ht harg).1 (.inr hc)
  | connected => exact h
  | _ => trivial

theorem account_initial : Account t .initial where
  positive _ _ _ hs := by cases hs
  silent _ _ _ _ := rfl
  stream before after s i j hsplit := by
    have hlength := congrArg List.length hsplit
    simp [Sockets.initial] at hlength

/-- The account of a stream that was joined goes on. -/
theorem Account.later {events before middle : List Event} (h : Account t st) (hrec : Recorded t st)
    (hlasts : Lasts t st st') (hbooks : Books t st st' events)
    (hmiddle : st.trace = before ++ .connected s i j t :: middle) :
    bytesSent t i j before = [] ∧
      Pours st' s (bytesWritten s (middle ++ events)) (bytesFed s (middle ++ events)) ∧
        Passes t st' s i j (bytesSent t i j (middle ++ events))
          (bytesRead s (middle ++ events)) := by
  have hs : .connected s i j t ∈ st.trace := by simp [hmiddle]
  obtain ⟨hbefore, hpoured, hsent⟩ := h.stream before middle s i j hmiddle
  have hfresh := hrec.fresh s j i hs
  have hlater := hrec.later s j i hs
  have hentry := hbooks.1 s hfresh (hlater.imp_left fun hjoined => ⟨i, j, hjoined⟩)
  rw [bytesWritten_append, bytesFed_append, bytesSent_append, bytesRead_append]
  refine ⟨hbefore, hpoured.trans hlasts hfresh hentry, hsent.trans hlasts hfresh ?_⟩
  rcases hlater with hjoined | hover
  · exact .inl ⟨hentry.sent i j hjoined, hjoined⟩
  · refine .inr ⟨hover, hbooks.2 i j ⟨h.positive s i j hs, hrec.ids s j i hs, ?_⟩⟩
    intro p b hp hid
    obtain rfl := hrec.unique s j i hs p b hp hid
    simpa [hp.active] using hover b hp.cell

theorem account_of_ledger (hrec : Recorded t st) (h : Account t st) (hledger : Ledger t st st')
    (hemits : Emits (Utters t st) st st') : Account t st' := by
  obtain ⟨events, htrace, hutters⟩ := hemits
  obtain ⟨events', htrace', hbooks⟩ := hledger.books
  obtain rfl := List.append_cancel_left (htrace.symm.trans htrace')
  have hnew : ∀ {s i j}, .connected s i j t ∉ events := fun hs => hutters _ hs rfl
  have hold : ∀ {s i j}, .connected s i j t ∈ st'.trace → .connected s i j t ∈ st.trace := by
    intro s i j hs
    rw [htrace] at hs
    exact (List.mem_append.mp hs).resolve_right hnew
  refine ⟨fun s i j hs => h.positive s i j (hold hs), fun i j hi hnone => ?_,
    fun before after s i j hsplit => ?_⟩
  · have hnone' : ∀ s, .connected s i j t ∉ st.trace := fun s hs =>
      hnone s (htrace ▸ List.mem_append_left _ hs)
    rw [htrace, bytesSent_append, h.silent i j hi hnone', List.nil_append]
    refine bytesSent_of_silent ?_
    rintro ⟨p, hp, hc, rfl, rfl⟩
    obtain ⟨s, hs⟩ := hutters _ hp rfl (Nat.ne_of_gt hi) hc
    exact hnone' s (hrec.joined s _ _ hs)
  · rw [htrace] at hsplit
    rcases split_append hsplit with ⟨middle, hmiddle, rfl⟩ | ⟨middle, hmiddle, -⟩
    · exact h.later hrec hledger.toLasts hbooks hmiddle
    · exact absurd (by simp [hmiddle]) (hnew (s := s) (i := i) (j := j))

theorem account_of_kept (hrec : Recorded t st) (h : Account t st) (hledger : Ledger t st st')
    (hkept : Kept t st st') : Account t st' :=
  account_of_ledger hrec h hledger (hkept.emits.mono fun _ he => utters_of_tells he)

theorem utters_of_heap (hheap : st'.heap = st.heap) {e : Event} (h : Utters t st' e) :
    Utters t st e := by
  cases e with
  | sent t' p =>
      intro ht harg hc
      obtain ⟨s, hs⟩ := h ht harg hc
      exact ⟨s, by rwa [StreamLinks.Joined, hheap] at hs⟩
  | connected => exact h
  | _ => trivial

theorem isLocal_of_listed (htidy : Tidy st) (hs : st.heap s = some a)
    (hlisted : SocketKind.isListed a.kind = true) : SocketKind.isLocal a.kind = true := by
  obtain ⟨hjdwp, htracker⟩ := htidy.plain s a hs
  cases hk : a.kind <;> simp_all [SocketKind.isListed, SocketKind.isLocal]

/-- A socket that is being joined has nothing in its queue. -/
theorem queued_of_connectable (htidy : Tidy st) (hs : Connectable st s a) : a.pkts = [] := by
  by_contra hpkts
  have hlocal := isLocal_of_listed htidy hs.cell hs.listed
  obtain ⟨q, b, hq, -⟩ := htidy.fed s a hs.cell hlocal hs.active hpkts
  simp [Sockets.peerOf, hs.cell, hs.peer] at hq

theorem account_connectRemote (hwf : WellFormed st) (htidy : Tidy st) (hrec : Recorded t st)
    (h : Account t st) (hs : Connectable st s a) (remoteId : Nat) :
    Account t (connectRemote st s remoteId t) := by
  obtain ⟨hself, -, -, htrace⟩ := connectRemote_cells hwf hs.cell remoteId t
  have hid := ((hwf.socket s a hs.cell).id hs.listed hs.active).1
  have hnone : ∀ p, .connected p a.id remoteId t ∉ st.trace := by
    intro p hp
    obtain rfl := hrec.unique p remoteId a.id hp s a (listed_of_connectable hs) rfl
    rcases hrec.later s remoteId a.id hp with hjoined | hover
    · exact not_joined_of_peerless hs.cell hs.peer _ _ hjoined
    · simpa [hs.active] using hover a hs.cell
  obtain ⟨events, htrace', hbooks⟩ := (@ledger_connectRemote t t st s a hwf hs remoteId).books
  obtain rfl := List.append_cancel_left (htrace.symm.trans htrace')
  refine ⟨fun p i j hp => ?_, fun i j hi hnone' => ?_, fun before after p i j hsplit => ?_⟩
  · rw [htrace, List.mem_append] at hp
    rcases hp with hp | hp
    · exact h.positive p i j hp
    · cases List.mem_singleton.mp hp
      exact hid
  · rw [htrace, bytesSent_append, h.silent i j hi fun p hp =>
      hnone' p (htrace ▸ List.mem_append_left _ hp)]
    rfl
  · rw [htrace] at hsplit
    rcases split_append hsplit with ⟨middle, hmiddle, rfl⟩ | ⟨middle, hmiddle, rfl⟩
    · exact h.later hrec (@ledger_connectRemote t t st s a hwf hs remoteId).toLasts hbooks hmiddle
    · -- The stream is joined here, and nothing has happened on it yet.
      obtain ⟨rfl, heq⟩ : middle = [] ∧ .connected p i j t :: after = _ :=
        (List.append_eq_singleton_iff.mp hmiddle.symm).resolve_right (by simp)
      cases heq
      refine ⟨?_, ⟨[], ?_, fun _ => rfl⟩, [], rfl, fun _ => rfl⟩
      · rw [List.append_nil]
        exact h.silent _ _ hid hnone
      · simp [queued, hself, queued_of_connectable htidy hs, bytesWritten, bytesFed]

end Accounts

/-- A message was sent between two states. -/
def Said (t : TransportRef) (command : Command) (i j : Nat) (st st' : Sockets) : Prop :=
  ∃ events, st'.trace = st.trace ++ events ∧ Says t command i j events

/-- An `OPEN` does not ask for the sockets that the device has for its debugger. -/
def AsksPlainly (host : Bool) (p : Apacket) : Prop :=
  p.command = .aOpen → host = false →
    openName p.data ≠ ascii "jdwp" ∧ openName p.data ≠ ascii "track-jdwp"

/-- What a process does about a message of `t'`, as far as it concerns the streams of `t`. -/
structure Plays (t t' : TransportRef) (st : Sockets) (p : Apacket) (st' : Sockets) : Prop where
  ledger : Ledger t st st'
  begins : ∀ s i j, Joined t st' s i j → Joined t st s i j ∨ Reads st' s
  told : p.command = .aOkay → ∀ s, Joined t st s p.arg1 p.arg0 → Reads st' s
  fed : p.command = .aWrte → ∀ s, Joined t st s p.arg1 p.arg0 →
    Holds st' s ∨ Said t' .aOkay p.arg1 p.arg0 st st' ∨ Over st' s
  account : t' = t → Recorded t st → Account t st → Account t st'

section Messages

variable {t t' : TransportRef} {st : Sockets} {ctx : ServiceContext} {p : Apacket}
  {s : SocketRef} {a : Asocket}

theorem Plays.of_heap {st' : Sockets} (hledger : Ledger t st st') (hheap : st'.heap = st.heap)
    (hemits : Emits (Utters t st) st st')
    (hcommand : p.command ≠ .aOkay ∨ ∀ s, ¬ Joined t st s p.arg1 p.arg0)
    (hcommand' : p.command ≠ .aWrte ∨ ∀ s, ¬ Joined t st s p.arg1 p.arg0) :
    Plays t t' st p st' where
  ledger := hledger
  begins s i j hjoined := .inl (by rwa [StreamLinks.Joined, hheap] at hjoined)
  told hc s hs := absurd hs (hcommand.resolve_left (absurd hc) s)
  fed hc s hs := absurd hs (hcommand'.resolve_left (absurd hc) s)
  account _ hrec hacc := account_of_ledger hrec hacc hledger hemits

theorem kind_of_service {name : Bytes} {st₁ : Sockets}
    (h : createLocalServiceSocket ctx st name = some (s, st₁))
    (hplain : ctx.host = false → name ≠ ascii "jdwp" ∧ name ≠ ascii "track-jdwp") :
    st₁.kindOf s = some .localSocket := by
  have hnot : (!ctx.host && decide (name = ascii "jdwp")) = false ∧
      (!ctx.host && decide (name = ascii "track-jdwp")) = false := by
    cases hhost : ctx.host with
    | true => simp
    | false => simpa using hplain hhost
  unfold createLocalServiceSocket at h
  simp only [hnot, Bool.false_eq_true, if_false] at h
  split at h
  · obtain ⟨rfl, rfl⟩ := Prod.mk.inj (Option.some.inj h)
    have hnew := @hostSocket_createLocalSocket st
    exact kindOf_eq (modify_self hnew.cell) rfl
  · cases h

theorem ledger_service {st₁ : Sockets} (h : WellFormed st)
    (hcreated : Effect true (fun _ => True) (fun _ => True) st st₁)
    (hs : ServiceSocket st st₁ s a) (hk : a.kind = .localSocket) : Ledger t st st₁ := by
  have hkept : Kept t st st₁ := kept_service h hcreated hs
  refine .of_still hkept (still_new (b := a) h hkept.after hkept.next (fun p hp => ?_) ?_ hs.pkts ?_
    ?_ hs.trace)
  · exact hs.heap p (hs.ref ▸ hp)
  · exact hs.ref ▸ hs.connectable.cell
  · simp [hk]
  · simp [hk]

theorem plays_handleOpen (h : WellFormed st) (htidy : Tidy st) (hc : p.command = .aOpen)
    (hid : p.arg0 ≠ 0) (hplain : AsksPlainly ctx.host p) :
    Plays t t' st p (handleOpen ctx st t' p) := by
  unfold handleOpen
  split
  · refine .of_heap (ledger_sendPacket h t' (by simp)) rfl (.single rfl ?_) (.inl (by simp [hc]))
      (.inl (by simp [hc]))
    exact fun _ _ hwrte => by cases hwrte
  · rename_i s st₁ hservice
    obtain ⟨hcreated, a, hs⟩ : Effect true (fun _ => True) (fun _ => True) st st₁ ∧
        ∃ a, ServiceSocket st st₁ s a := createLocalServiceSocket_spec hservice h trivial
    have hk : a.kind = .localSocket := by
      have hkind := kind_of_service hservice (hplain hc)
      rw [kindOf_eq hs.connectable.cell rfl] at hkind
      exact Option.some.inj hkind
    have hnew : Ledger t st st₁ := ledger_service h hcreated hs hk
    have hkept : Kept t st st₁ := kept_service h hcreated hs
    obtain ⟨hself, -, -, -⟩ := connectRemote_cells hnew.after hs.connectable.cell p.arg0 t'
    have hconnected : Ledger t st₁ (connectRemote st₁ s p.arg0 t') :=
      ledger_connectRemote hnew.after hs.connectable p.arg0
    dsimp only
    generalize (((connectRemote st₁ s p.arg0 t').heap s).map Asocket.id).getD 0 = id
    have hsent : Ledger t (connectRemote st₁ s p.arg0 t')
        ((connectRemote st₁ s p.arg0 t').sendPacket t'
          { command := .aOkay, arg0 := id, arg1 := p.arg0, data := [] }) :=
      ledger_sendPacket hconnected.after t' (by simp)
    have hheap : ((connectRemote st₁ s p.arg0 t').sendPacket t'
        { command := .aOkay, arg0 := id, arg1 := p.arg0, data := [] }).heap =
        (connectRemote st₁ s p.arg0 t').heap := rfl
    have hemits : Emits (Utters t (connectRemote st₁ s p.arg0 t'))
        (connectRemote st₁ s p.arg0 t') ((connectRemote st₁ s p.arg0 t').sendPacket t'
          { command := .aOkay, arg0 := id, arg1 := p.arg0, data := [] }) :=
      .single rfl fun _ _ hwrte => by cases hwrte
    generalize (connectRemote st₁ s p.arg0 t').sendPacket t' _ = st₂ at hsent hheap hemits ⊢
    obtain ⟨hready, hreads⟩ := @ledger_ready t st₂ s _ ctx hsent.after (hheap ▸ hself)
      (by simp [hk, SocketKind.isLocal])
    have hkept₂ := kept_asocketReady (t := t) ctx hsent.after s
    refine ⟨((hnew.trans hconnected).trans hsent).trans hready, fun p' i j hjoined => ?_,
      fun hokay => by simp [hc] at hokay, fun hwrte => by simp [hc] at hwrte, ?_⟩
    · have hjoined₂ := hkept₂.joined p' i j hjoined
      rw [StreamLinks.Joined, hheap] at hjoined₂
      rcases (joined_connectRemote hnew.after hs.connectable).mp hjoined₂ with hold | hnew
      · exact .inl (hkept.joined p' i j hold)
      · exact .inr (hnew.2.1 ▸ hreads)
    · rintro rfl hrec hacc
      have hrec₁ := recorded_of_kept hrec hkept
      have hacc₁ := account_of_kept hrec hacc hnew hkept
      refine account_of_ledger (recorded_connectRemote hnew.after hs.connectable hid hrec₁)
        (account_connectRemote hnew.after (hnew.tidy htidy) hrec₁ hacc₁ hs.connectable p.arg0)
        (hsent.trans hready) (hemits.trans ?_)
      exact hkept₂.emits.mono fun e he => utters_of_heap hheap (utters_of_tells he)

theorem plays_handleOkay (h : WellFormed st) (htidy : Tidy st) (hc : p.command = .aOkay)
    (hid : p.arg0 ≠ 0) : Plays t t' st p (handleOkay ctx st t' p) := by
  unfold handleOkay
  split
  · rename_i hnone
    refine .of_heap (ledger_sendPacket h t' (by simp)) rfl (.single rfl ?_) (.inr fun s hs => ?_)
      (.inl (by simp [hc]))
    · exact fun _ _ hwrte => by cases hwrte
    · obtain ⟨a, ha, hlisted, hclosing, hid⟩ := hs.listed h
      rw [← hid, (findLocalSocket_of_listed h ⟨ha, hlisted, hclosing⟩).mpr ⟨rfl, .inl rfl⟩] at hnone
      cases hnone
  · rename_i s hfound
    obtain ⟨a, hs, hsid⟩ := listed_of_findLocalSocket h hfound
    have hlocal := isLocal_of_listed htidy hs.cell hs.listed
    split
    · rename_i hpeer
      have hnone : a.peer = none := by simpa [Sockets.peerOf, hs.cell] using hpeer
      have hconnectable : Connectable st s a := ⟨hs.cell, hnone, hs.active, hs.listed⟩
      obtain ⟨hself, -, -, -⟩ := connectRemote_cells h hs.cell p.arg0 t'
      have hconnected : Ledger t st (connectRemote st s p.arg0 t') :=
        ledger_connectRemote h hconnectable p.arg0
      obtain ⟨hready, hreads⟩ := @ledger_ready t _ s _ ctx hconnected.after hself hlocal
      have hkept := kept_asocketReady (t := t) ctx hconnected.after s
      refine ⟨hconnected.trans hready, fun p' i j hjoined => ?_, fun _ p' hjoined => ?_,
        fun hwrte => by simp [hc] at hwrte, ?_⟩
      · rcases (joined_connectRemote h hconnectable).mp (hkept.joined p' i j hjoined) with
          hold | hnew
        · exact .inl hold
        · exact .inr (hnew.2.1 ▸ hreads)
      · obtain ⟨b, hb, hlisted, hclosing, hid⟩ := hjoined.listed h
        obtain rfl := listed_eq h ⟨hb, hlisted, hclosing⟩ hs (hid.trans hsid.symm)
        exact hreads
      · rintro rfl hrec hacc
        exact account_of_kept (recorded_connectRemote h hconnectable hid hrec)
          (account_connectRemote h htidy hrec hacc hconnectable p.arg0) hready hkept
    · rename_i q hpeer
      obtain ⟨hready, hreads⟩ := @ledger_ready t _ s _ ctx h hs.cell hlocal
      have hkept := kept_asocketReady (t := t) ctx h s
      have hjoined : ∀ p', Joined t st p' p.arg1 p.arg0 → p' = s ∧
          ((st.heap q).any fun b => b.id = p.arg0) = true := by
        rintro p' hjoined
        obtain ⟨b, hb, hlisted, hclosing, hid⟩ := hjoined.listed h
        obtain rfl := listed_eq h ⟨hb, hlisted, hclosing⟩ hs (hid.trans hsid.symm)
        obtain ⟨c, r, d, hc, -, hr, hd, -, hdid, -⟩ := hjoined
        obtain rfl := Option.some.inj (hpeer.symm.trans (peerOf_eq_some.mpr ⟨c, hc, hr⟩))
        exact ⟨rfl, by simp [hd, hdid]⟩
      split
      · exact ⟨hready, fun p' i j hp' => .inl (hkept.joined p' i j hp'),
          fun _ p' hp' => (hjoined p' hp').1 ▸ hreads, fun hwrte => by simp [hc] at hwrte,
          fun _ hrec hacc => account_of_kept hrec hacc hready hkept⟩
      · rename_i hid
        exact .of_heap (.refl h) rfl (.refl rfl) (.inr fun p' hp' => hid (hjoined p' hp').2)
          (.inl (by simp [hc]))

theorem plays_handleClse (h : WellFormed st) (hc : p.command = .aClse) :
    Plays t t' st p (handleClse st t' p) := by
  have hledger : Ledger t st (handleClse st t' p) := by
    unfold handleClse
    split
    · exact .refl h
    · rename_i s hfound
      obtain ⟨-, a, ha, -⟩ := mem_list_of_findLocalSocket hfound
      dsimp only
      split
      · exact .refl h
      · exact ledger_asocketClose h ha
  have hkept : Kept t st (handleClse st t' p) := kept_handleClse h
  exact ⟨hledger, fun s i j hs => .inl (hkept.joined s i j hs), fun hokay => by simp [hc] at hokay,
    fun hwrte => by simp [hc] at hwrte, fun _ hrec hacc => account_of_kept hrec hacc hledger hkept⟩

theorem plays_handleWrte (h : WellFormed st) (htidy : Tidy st) (hc : p.command = .aWrte)
    (hid : p.arg0 ≠ 0) : Plays t t' st p (handleWrte st t' p) := by
  unfold handleWrte
  split
  · rename_i hnone
    refine .of_heap (.refl h) rfl (.refl rfl) (.inl (by simp [hc])) (.inr fun s hs => ?_)
    rw [findLocalSocket_of_joined h hs] at hnone
    cases hnone
  · rename_i s hfound
    obtain ⟨a, hs, hsid⟩ := listed_of_findLocalSocket h hfound
    have hfed : Fed st s := by
      rw [← hsid] at hfound
      obtain ⟨-, hzero | ⟨q, b, hq, hb, hpeer⟩⟩ := (findLocalSocket_of_listed h hs).mp hfound
      · exact absurd hzero hid
      · exact ⟨q, b, peerOf_eq_some.mpr ⟨a, hs.cell, hq⟩, hb, .inr (hpeer ▸ hid)⟩
    obtain ⟨hledger, hanswer⟩ := @ledger_asocketEnqueue t st s a h hs.cell hs.active
      (isLocal_of_listed htidy hs.cell hs.listed) hfed p.data
    have hkept := @kept_asocketEnqueue_called t st h s p.data
    have hheap := @heap_of_asocketEnqueue st s p.data
    have hemits : Emits (Utters t st) st (asocketEnqueue st s p.data).2 := by
      have hcalled : Emits (Utters t st) st (st.record (.enqueueCalled s p.data)) :=
        .single rfl trivial
      refine hcalled.trans (hkept.emits.mono fun e he => ?_)
      exact @utters_of_heap t st (st.record (.enqueueCalled s p.data)) rfl e (utters_of_tells he)
    have hsame : ∀ p', Joined t st p' p.arg1 p.arg0 → p' = s := by
      intro p' hjoined
      obtain ⟨b, hb, hlisted, hclosing, hid⟩ := hjoined.listed h
      exact listed_eq h ⟨hb, hlisted, hclosing⟩ hs (hid.trans hsid.symm)
    generalize asocketEnqueue st s p.data = out at hledger hanswer hkept hheap hemits ⊢
    obtain ⟨r, st₁⟩ := out
    dsimp only at hledger hanswer hkept hheap hemits ⊢
    have hwf := hledger.after
    split
    · rename_i hr
      rw [hheap hr, hs.cell, Option.map_some, Option.getD_some, hsid]
      have hsent : Ledger t st₁ (st₁.sendPacket t'
          { command := .aOkay, arg0 := p.arg1, arg1 := p.arg0, data := [] }) :=
        ledger_sendPacket hwf t' (by simp)
      obtain ⟨events, htrace, -⟩ := hledger.books
      refine ⟨hledger.trans hsent, fun p' i j hjoined => .inl ?_,
        fun hokay => by simp [hc] at hokay, fun _ p' hp' => .inr (.inl ?_), fun _ hrec hacc =>
          account_of_ledger hrec hacc (hledger.trans hsent) (hemits.trans (.single rfl ?_))⟩
      · exact hkept.joined p' i j hjoined
      · refine ⟨events ++
          [.sent t' { command := .aOkay, arg0 := p.arg1, arg1 := p.arg0, data := [] }],
          ?_, _, List.mem_append_right _ List.mem_cons_self, rfl, rfl, rfl⟩
        rw [← List.append_assoc, ← htrace]
        rfl
      · exact fun _ _ hwrte => by cases hwrte
    · rename_i hr
      refine ⟨hledger, fun p' i j hjoined => .inl (hkept.joined p' i j hjoined),
        fun hokay => by simp [hc] at hokay, fun _ p' hp' => ?_,
        fun _ hrec hacc => account_of_ledger hrec hacc hledger hemits⟩
      obtain rfl := hsame p' hp'
      rcases hanswer with hzero | hholds | hgone
      · exact absurd hzero hr
      · exact .inl hholds
      · exact .inr (.inr fun b hb => by simp [hgone] at hb)

theorem plays_handleStream (h : WellFormed st) (htidy : Tidy st) (hacts : actsOn true p = true)
    (hplain : AsksPlainly ctx.host p) : Plays t t' st p (handleStream ctx st t' p) := by
  have hid : p.command ≠ .aClse → p.arg0 ≠ 0 := by
    intro hc hid
    cases hc' : p.command <;> simp_all [actsOn]
  unfold handleStream
  cases hc : p.command with
  | aOpen => exact plays_handleOpen h htidy hc (hid (by simp [hc])) hplain
  | aOkay => exact plays_handleOkay h htidy hc (hid (by simp [hc]))
  | aClse => exact plays_handleClse h hc
  | aWrte => exact plays_handleWrte h htidy hc (hid (by simp [hc]))
  | _ => simp [actsOn, hc] at hacts

theorem Plays.after {st₁ st' : Sockets} (hplays : Plays t t' st₁ p st') (hkept : Kept t st st₁)
    (hledger : Ledger t st st₁) (hheap : st₁.heap = st.heap) : Plays t t' st p st' where
  ledger := hledger.trans hplays.ledger
  begins s i j hjoined := (hplays.begins s i j hjoined).imp_left (hkept.joined s i j)
  told hc s hjoined := hplays.told hc s (by rwa [StreamLinks.Joined, hheap])
  fed hc s hjoined := by
    obtain ⟨events, htrace, -⟩ := hkept.emits
    refine (hplays.fed hc s (by rwa [StreamLinks.Joined, hheap])).imp_right (.imp_left ?_)
    rintro ⟨events', htrace', hspoken⟩
    exact ⟨events ++ events', by rw [htrace', htrace, List.append_assoc], hspoken.append_right _⟩
  account ht hrec hacc :=
    hplays.account ht (recorded_of_kept hrec hkept) (account_of_kept hrec hacc hledger hkept)

end Messages

section Step

variable {t : TransportRef} {cfg : Config} {env : Oracle} {st : Server} {p : Apacket}

/-- The `OPEN`s that arrive ask plainly. -/
def OpensPlainly (cfg : Config) : Action → Prop
  | .packet _ p => AsksPlainly cfg.host p
  | _ => True

theorem noted_packet (h : WellFormed st.sockets) (t' : TransportRef) (p : Apacket) :
    Kept t st.sockets ((scripted env st).record (.received t' p)) ∧
      Ledger t st.sockets ((scripted env st).record (.received t' p)) := by
  have hkept := @Carries.scripted _ st (carries_kept t) h env
  have hledger := @Carries.scripted _ st (carries_ledger t) h env
  exact ⟨hkept.trans (kept_record hkept.after trivial),
    hledger.trans (ledger_record hledger.after trivial trivial)⟩

theorem ledger_step {l : Action × Oracle} (h : Settled st.sockets) (htidy : Tidy st.sockets)
    (henabled : Enabled cfg st l.1) (hplain : OpensPlainly cfg l.1) :
    Ledger t st.sockets (step cfg l.2 st l.1).sockets := by
  obtain ⟨action, env⟩ := l
  have hscripted : Ledger t st.sockets (scripted env st) :=
    (carries_ledger t).scripted h.wellFormed env
  have hwf := hscripted.after
  have hsockets : ∀ (f : ServiceContext → Sockets → Sockets),
      Ledger t (scripted env st) (f (serviceContext cfg env
        { st with sockets := scripted env st }) (scripted env st)) →
      Ledger t st.sockets (runSockets cfg env { st with sockets := scripted env st } f).sockets :=
    fun f hf => hscripted.trans
      (@Carries.run _ cfg env { st with sockets := scripted env st } (carries_ledger t) f hf)
  cases action with
  | packet t' p =>
      by_cases hstream : Command.isStream p.command = true
      · obtain ⟨ctx, hhost, hstep⟩ := @step_packet_sockets cfg env st t' p hstream
        have hnoted := (@noted_packet t env st h.wellFormed t' p).2
        dsimp only
        rw [hstep]
        refine hnoted.trans ?_
        split
        · rename_i hacts
          refine (plays_handleStream (t := t) hnoted.after (hnoted.tidy htidy) ?_
            (hhost ▸ hplain)).ledger
          cases honline : (st.transports t').online <;> simp_all [actsOn]
        · exact .refl hnoted.after
      · exact (carries_ledger t).step h.wellFormed h.trackers (Bool.eq_false_iff.mpr hstream)
  | poll s revents =>
      obtain ⟨a, hs, -, hallowed⟩ := henabled
      refine hscripted.trans (ledger_local hwf hs rfl rfl rfl rfl rfl rfl ?_
        ((hwf.socket s a hs).fde.fdeventProcess hallowed) ?_)
      · simp
      · simp
  | dispatch s =>
      obtain ⟨a, hs, hkind, -⟩ := henabled
      exact hsockets _ (ledger_dispatchSocket _ hwf hs (isLocal_of_kind hkind))
  | subprocExited s unread =>
      obtain ⟨-, a, hs, hkind⟩ := henabled
      exact hsockets _ (ledger_subprocExited _ hwf hs (isLocal_of_kind hkind) unread)
  | accept l =>
      simp only [step]
      split
      · exact hscripted
      · exact hsockets _ (ledger_listenerEventFunc _ hwf _)
  | acceptSmart => exact hsockets _ (ledger_ssListenerEventFunc _ hwf)
  | jdwpUpdated =>
      refine hsockets _ ?_
      rw [jdwpProcessListUpdated_eq _ (hscripted.tidy htidy)
        ⟨h.trackers.jdwp, h.trackers.device⟩]
      exact .refl hwf
  | register | remove | reverseRequest | frameworkConnect | frameworkRead =>
      exact (carries_ledger t).step h.wellFormed h.trackers trivial

/-- A message of `t` that the process acts on. -/
theorem plays_step (h : Settled st.sockets) (htidy : Tidy st.sockets)
    (hacts : actsOn (st.transports t).online p = true) (hplain : AsksPlainly cfg.host p) :
    Plays t t st.sockets p (step cfg env st (.packet t p)).sockets := by
  have hstream : Command.isStream p.command = true := by
    cases hc : p.command <;> simp_all [actsOn, Command.isStream]
  have hacts' : actsOn true p = true := by
    cases honline : (st.transports t).online <;> simp_all [actsOn]
  obtain ⟨ctx, hhost, hstep⟩ := @step_packet_sockets cfg env st t p hstream
  obtain ⟨hkept, hledger⟩ := @noted_packet t env st h.wellFormed t p
  rw [hstep, if_pos hacts]
  exact (plays_handleStream hkept.after (hledger.tidy htidy) hacts' (hhost ▸ hplain)).after hkept
    hledger rfl

end Step

end Adb.StreamAccounts
