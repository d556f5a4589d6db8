import Adb.StreamLedger

/-!
The functions on sockets keep the accounts of the streams: what is read is sent, what
is written comes out of the queue, and an empty queue is answered.
-/

namespace Adb.LedgerCallbacks

open Adb.DescriptorIo
open Adb.EventInterest
open Adb.WirePackets
open Adb.SocketTable
open Adb.SocketOperations
open Adb.SmartSockets
open Adb.SocketEvents
open Adb.SocketClosing
open Adb.SocketGraph
open Adb.SocketEffects
open Adb.OperationEffects
open Adb.SmartEffects
open Adb.StreamEffects
open Adb.CallbackEffects
open Adb.GraphInvariants
open Adb.ClosingDrain (bytesWritten bytesWritten_append)
open Adb.ReadAccounting (bytesRead)
open Adb.ServerState
open Adb.ServerRuns
open Adb.ServerEffects
open Adb.TransportIsolation
open Adb.StreamSends
open Adb.StreamLinks
open Adb.StreamCallbacks
open Adb.StreamViews
open Adb.LinkedEndpoints (payloads)
open Adb.StreamPacing (remote_or_offstream)
open Adb.StreamRests
open Adb.StreamLedger

section Cells

variable {st : Sockets} {s p : SocketRef} {a : Asocket} {f : Asocket → Asocket}

theorem modify_self (hs : st.heap s = some a) : (st.modify s f).heap s = some (f a) := by
  simp [Sockets.modify, hs]

theorem modify_other (st : Sockets) (hp : p ≠ s) : (st.modify s f).heap p = st.heap p := by
  simp [Sockets.modify, hp]

end Cells

section Operations

variable {t : TransportRef} {st st' : Sockets} {s q : SocketRef} {a b : Asocket}

theorem ledger_record (h : WellFormed st) {e : Event} (htells : Tells t st st e)
    (hapart : StreamRests.Apart st e) : Ledger t st (st.record e) :=
  .of_still (kept_record h htells) (still_record h hapart)

theorem ledger_halt (h : WellFormed st) (reason : Halt) : Ledger t st (st.halt reason) :=
  .of_still (kept_halt h reason) (still_halt h reason)

theorem ledger_asocketClose (h : WellFormed st) (hs : st.heap s = some a) :
    Ledger t st (asocketClose st s) :=
  .of_still (kept_asocketClose h hs) (still_asocketClose h hs)

theorem ledger_effect {T : SocketRef → Prop} {R : TransportRef → Prop} (hkept : Kept t st st')
    (heffect : Effect false T R st st') : Ledger t st st' :=
  .of_still hkept (still_effect hkept.before heffect)

theorem entry_kept {f : Asocket → Asocket} (hs : st.heap s = some a)
    (hpkts : (f a).pkts = a.pkts) (hread : ∀ i j, Joined t st s i j → a.fde.state.read = true →
      (f a).fde.state.read = true) :
    Entry t st (st.modify s f) [] s := by
  have hcell : (st.modify s f).heap s = some (f a) := by simp [Sockets.modify, hs]
  refine ⟨fun _ => rfl, ⟨[], ?_, fun _ => rfl⟩, fun i j _ => ⟨[], rfl, fun _ => rfl⟩,
    fun i j hjoined _ hreads => .inl ?_, fun i j _ _ hholds => .inl ?_⟩
  · simp [queued, hcell, hs, hpkts, bytesWritten, bytesFed]
  · obtain ⟨b, hb, hreads⟩ := hreads
    obtain rfl := Option.some.inj (hs.symm.trans hb)
    exact ⟨f a, hcell, hread i j hjoined hreads⟩
  · obtain ⟨b, hb, hholds⟩ := hholds
    obtain rfl := Option.some.inj (hs.symm.trans hb)
    exact ⟨f a, hcell, hpkts ▸ hholds⟩

/-- A socket changes, but neither its queue nor, on a stream, whether it reads. -/
theorem ledger_modify {f : Asocket → Asocket} (h : WellFormed st) (hs : st.heap s = some a)
    (hf : Respects a (f a)) (htransport : (f a).transport = a.transport)
    (hpkts : (f a).pkts = a.pkts) (hread : ∀ i j, Joined t st s i j → a.fde.state.read = true →
      (f a).fde.state.read = true) :
    Ledger t st (st.modify s f) := by
  refine .of_own s [] (kept_modify h hs hf htransport)
    (fun htidy => tidy_modify htidy hs hf fun _ hqueue => .inl (hpkts ▸ hqueue))
    (List.append_nil _).symm (fun p hp => by simp [Sockets.modify, hp]) (by simp) ?_
    fun _ _ _ => entry_kept hs hpkts hread
  rintro i j ⟨p, hp, -⟩
  cases hp

theorem ledger_local {f : Asocket → Asocket} (h : WellFormed st) (hs : st.heap s = some a)
    (hkind : (f a).kind = a.kind) (hpeer : (f a).peer = a.peer) (hid : (f a).id = a.id)
    (hclosing : (f a).closing = a.closing) (htransport : (f a).transport = a.transport)
    (hpkts : (f a).pkts = a.pkts)
    (hwrite : a.fde.state.write = true → (f a).fde.state.write = true)
    (hfde : (f a).fde.Sound) (hread : ∀ i j, Joined t st s i j → a.fde.state.read = true →
      (f a).fde.state.read = true) : Ledger t st (st.modify s f) := by
  have hok := h.socket s a hs
  refine ledger_modify h hs (.of_kind hkind hpeer hid hclosing ?_ hfde ?_) htransport hpkts hread
  · exact fun hlocal hqueue => hwrite (hok.queue hlocal (hpkts ▸ hqueue))
  · rw [htransport]
    exact hok.transport

theorem ledger_writeFailed (h : WellFormed st) (hs : st.heap s = some a) :
    Ledger t st (asocketClose ((st.record (.fdWriteFailed s)).modify s fun a =>
      { a with hasWriteError := true }) s) := by
  have hnoted : Ledger t st (st.record (.fdWriteFailed s)) := ledger_record h trivial trivial
  have hmarked : Ledger t (st.record (.fdWriteFailed s)) ((st.record (.fdWriteFailed s)).modify s
      fun a => { a with hasWriteError := true }) :=
    ledger_local hnoted.after hs rfl rfl rfl rfl rfl rfl id (hnoted.after.socket s a hs).fde
      fun _ _ _ => id
  refine (hnoted.trans hmarked).trans (ledger_asocketClose (a := { a with hasWriteError := true })
    hmarked.after ?_)
  simp [Sockets.modify, Sockets.record, hs]

theorem ledger_localSocketReady (h : WellFormed st) (hs : st.heap s = some a) :
    Ledger t st (localSocketReady st s) ∧ Reads (localSocketReady st s) s := by
  have hok := h.socket s a hs
  refine ⟨ledger_local h hs rfl rfl rfl rfl rfl rfl ?_ (hok.fde.fdeventAdd _) ?_,
    { a with fde := fdeventAdd a.fde .fdeRead }, ?_, ?_⟩
  · simp +contextual [EventMask.union]
  · simp [EventMask.union, EventMask.fdeRead]
  · simp [localSocketReady, Sockets.modify, hs]
  · simp [EventMask.union, EventMask.fdeRead]

/-- `ready` of a socket with a descriptor lets it read. -/
theorem ledger_ready (ctx : ServiceContext) (h : WellFormed st) (hs : st.heap s = some a)
    (hlocal : SocketKind.isLocal a.kind = true) :
    Ledger t st (asocketReady ctx st s) ∧ Reads (asocketReady ctx st s) s := by
  have hcalled : Ledger t st (st.record (.readyCalled s)) := ledger_record h trivial trivial
  have hs₁ : (st.record (.readyCalled s)).heap s = some a := hs
  cases hk : a.kind with
  | localSocket =>
      obtain ⟨hready, hreads⟩ := @ledger_localSocketReady t _ s a hcalled.after hs₁
      have heq : asocketReady ctx st s = localSocketReady (st.record (.readyCalled s)) s := by
        simp [asocketReady, Sockets.kindOf, hs₁, hk]
      rw [heq]
      exact ⟨hcalled.trans hready, hreads⟩
  | localNotify =>
      have hplain : Ledger t (st.record (.readyCalled s)) ((st.record (.readyCalled s)).modify s
          fun a => { a with kind := .localSocket }) :=
        ledger_modify hcalled.after hs₁ (.plain (hcalled.after.socket s a hs₁) hk) rfl rfl
          fun _ _ _ => id
      have hreplied := hplain.trans (ledger_record (e := .replied s .okay) hplain.after trivial
        trivial)
      obtain ⟨hready, hreads⟩ := @ledger_localSocketReady t _ s { a with kind := .localSocket }
        hreplied.after (by simp [Sockets.record, Sockets.modify, hs])
      have heq : asocketReady ctx st s = localSocketReady (((st.record (.readyCalled s)).modify s
          fun a => { a with kind := .localSocket }).reply s .okay) s := by
        simp [asocketReady, localSocketReadyNotify, Sockets.kindOf, hs₁, hk]
      rw [heq]
      exact ⟨(hcalled.trans hreplied).trans hready, hreads⟩
  | remote | smart | jdwp | jdwpTracker | deviceTracker => simp [hk, SocketKind.isLocal] at hlocal

/-- What a remote socket sends about its stream. -/
theorem streamPacket_eq (hs : st.heap s = some a) (hpeer : b.peer = some s) (command : Command)
    (data : Bytes) : streamPacket st b command data = ⟨command, a.id, b.id, data⟩ := by
  simp [streamPacket, peerId, hpeer, hs]

theorem ready_remote (ctx : ServiceContext) (hq : st.heap q = some b) (hk : b.kind = .remote)
    {t₀ : TransportRef} (ht₀ : b.transport = some t₀) (hs : st.heap s = some a)
    (hpeer : b.peer = some s) :
    asocketReady ctx st q =
      (st.record (.readyCalled q)).sendPacket t₀ ⟨.aOkay, a.id, b.id, []⟩ := by
  have hq' : (st.record (.readyCalled q)).heap q = some b := hq
  simp [asocketReady, Sockets.kindOf, hq', hk, remoteSocketReady, sendOn, ht₀,
    @streamPacket_eq (st.record (.readyCalled q)) s a b hs hpeer]

theorem enqueue_remote (ctx : ServiceContext) (hq : st.heap q = some b) (hk : b.kind = .remote)
    {t₀ : TransportRef} (ht₀ : b.transport = some t₀) (hs : st.heap s = some a)
    (hpeer : b.peer = some s) (data : Bytes) :
    peerEnqueue ctx st q data =
      (1, (st.record (.enqueueCalled q data)).sendPacket t₀ ⟨.aWrte, a.id, b.id, data⟩) := by
  have hkind : st.kindOf q = some .remote := by rw [Sockets.kindOf, hq, Option.map_some, hk]
  have hq' : (st.record (.enqueueCalled q data)).heap q = some b := hq
  have hkind' : (st.record (.enqueueCalled q data)).kindOf q = some .remote := hkind
  simp [peerEnqueue, hkind, asocketEnqueue, hkind', hq', remoteSocketEnqueue, sendOn, ht₀,
    @streamPacket_eq (st.record (.enqueueCalled q data)) s a b hs hpeer]

/-- The remote socket of a stream, as the socket that it belongs to sees it. -/
theorem joined_iff (hs : st.heap s = some a) (hq : st.heap q = some b) (hpeer : a.peer = some q)
    {i j : Nat} : Joined t st s i j ↔
      b.kind = .remote ∧ b.transport = some t ∧ i = a.id ∧ j = b.id := by
  constructor
  · rintro ⟨a', q', b', ha', rfl, hpeer', hb', hk, rfl, ht⟩
    obtain rfl := Option.some.inj (hs.symm.trans ha')
    obtain rfl := Option.some.inj (hpeer.symm.trans hpeer')
    obtain rfl := Option.some.inj (hq.symm.trans hb')
    exact ⟨hk, ht, rfl, rfl⟩
  · rintro ⟨hk, ht, rfl, rfl⟩
    exact ⟨a, q, b, hs, rfl, hpeer, hq, hk, rfl, ht⟩

end Operations

section Events

variable {t : TransportRef} {st : Sockets} {s q : SocketRef} {a b : Asocket}

theorem kept_afterRead (h : WellFormed st) (s : SocketRef) (out : ReadOutcome) :
    Kept t st (st.afterRead s out) :=
  .of_heap h rfl rfl rfl ⟨rfl, rfl⟩ (.single rfl trivial)

/-- A read of a socket that sends nothing on: nothing was read, or it is not on a stream. -/
theorem ledger_afterRead (h : WellFormed st) (out : ReadOutcome)
    (hout : out.bytes = [] ∨ ∀ i j, ¬ Joined t st s i j) : Ledger t st (st.afterRead s out) := by
  refine .of_own s [.fdRead s out.bytes] (kept_afterRead h s out)
    (fun htidy => htidy.of_heap rfl) rfl (fun _ _ => rfl) ?_ ?_ fun _ _ _ => ?_
  · rintro p hp e he
    obtain rfl := List.mem_singleton.mp he
    exact hp.symm
  · rintro i j ⟨p, hp, -⟩
    cases List.mem_singleton.mp hp
  · refine ⟨fun _ => rfl, ⟨[], by simp [queued, Sockets.afterRead, bytesWritten, bytesFed, handed],
      fun _ => rfl⟩, fun i j hjoined => ⟨[], ?_, fun _ => rfl⟩, fun _ _ _ _ => .inl,
      fun _ _ _ _ => .inl⟩
    have hnone := hout.resolve_right fun hnot => hnot i j hjoined
    simp [bytesSent, sentOn, payloads, bytesRead, hnone]

theorem ledger_closeAtEof (h : WellFormed st) (s : SocketRef) (lastZero isEof : Bool) :
    Ledger t st (closeAtEof st s lastZero isEof) := by
  unfold closeAtEof
  split
  · exact ledger_halt h _
  · rename_i a ha
    split
    · exact ledger_asocketClose h ha
    · exact .refl h

/-- What a socket reads is sent on its stream, and it stops reading. -/
theorem ledger_sendRead (ctx : ServiceContext) (h : WellFormed st) (hs : st.heap s = some a)
    (hpeer : a.peer = some q) (hq : st.heap q = some b) (hk : b.kind = .remote)
    (hlocal : SocketKind.isLocal a.kind = true) (out : ReadOutcome) :
    Ledger t st ((peerEnqueue ctx ((st.afterRead s out).record (.handedOver s out.bytes)) q
      out.bytes).2.modify s fun a => { a with fde := fdeventDel a.fde .fdeRead }) := by
  have hok := h.socket s a hs
  obtain ⟨hne, b', hb', hback, -⟩ := hok.peer q hpeer
  obtain rfl := Option.some.inj (hq.symm.trans hb')
  obtain ⟨t₀, ht₀⟩ := Option.isSome_iff_exists.mp ((h.socket q b hq).transport hk)
  have hnotRemote : a.kind ≠ .remote := by
    intro hremote
    simp [hremote, SocketKind.isLocal] at hlocal
  have hread : Kept t st (st.afterRead s out) := kept_afterRead h s out
  have hhanded : Kept t st ((st.afterRead s out).record (.handedOver s out.bytes)) :=
    hread.trans (kept_record hread.after trivial)
  have hsent : Kept t st (peerEnqueue ctx ((st.afterRead s out).record (.handedOver s out.bytes)) q
      out.bytes).2 := by
    refine hhanded.trans (kept_peerEnqueue (s := s) hhanded.after
      (peerOf_eq_some.mpr ⟨a, hs, hpeer⟩) ?_ _)
    rw [@kindOf_eq ((st.afterRead s out).record (.handedOver s out.bytes)) s a _ hs rfl]
    exact fun hkind => hnotRemote (Option.some.inj hkind)
  rw [@enqueue_remote ((st.afterRead s out).record (.handedOver s out.bytes)) s q a b ctx hq hk
    t₀ ht₀ hs hback] at hsent ⊢
  generalize hst₁ : ((((st.afterRead s out).record (.handedOver s out.bytes)).record
    (.enqueueCalled q out.bytes)).sendPacket t₀ ⟨.aWrte, a.id, b.id, out.bytes⟩) = st₁ at hsent
  have hheap : st₁.heap = st.heap := by rw [← hst₁]; rfl
  have htrace : st₁.trace = st.trace ++ [.fdRead s out.bytes, .handedOver s out.bytes,
      .enqueueCalled q out.bytes, .sent t₀ ⟨.aWrte, a.id, b.id, out.bytes⟩] := by
    rw [← hst₁]
    simp [Sockets.afterRead, Sockets.record, Sockets.sendPacket]
  have hs₁ : st₁.heap s = some a := hheap ▸ hs
  have hpaused : Kept t st₁
      (st₁.modify s fun a => { a with fde := fdeventDel a.fde .fdeRead }) := by
    refine kept_local hsent.after hs₁ rfl rfl rfl rfl rfl ?_ (hok.fde.fdeventDel _)
    intro hlocal hpkts
    simpa [EventMask.diff, EventMask.fdeRead, EventMask.empty] using hok.queue hlocal hpkts
  have hcell : (st₁.modify s fun a => { a with fde := fdeventDel a.fde .fdeRead }).heap s =
      some { a with fde := fdeventDel a.fde .fdeRead } := by simp [Sockets.modify, hs₁]
  refine .of_own s _ (hsent.trans hpaused) (fun htidy => ?_) htrace (fun p hp => ?_) ?_ ?_
    fun _ _ hunfed => ⟨fun _ => hunfed, ⟨[], ?_, fun _ => rfl⟩, fun i j hjoined => ⟨[], ?_,
      fun _ => rfl⟩, fun i j hjoined _ _ => .inr ?_, fun i j _ _ hholds => .inl ?_⟩
  · exact tidy_modify (htidy.of_heap hheap) hs₁ (.of_kind rfl rfl rfl rfl (fun hl hp => by
      simpa [EventMask.diff, EventMask.fdeRead, EventMask.empty] using hok.queue hl hp)
      (hok.fde.fdeventDel _) hok.transport) fun _ => .inl
  · simp [Sockets.modify, hp, hheap]
  · rintro p hp e he
    simp only [List.mem_cons, List.not_mem_nil, or_false] at he
    rcases he with rfl | rfl | rfl | rfl
    · exact hp.symm
    all_goals trivial
  · rintro i j ⟨p, hp, -, rfl, rfl⟩ -
    simp only [List.mem_cons, List.not_mem_nil, or_false, reduceCtorEq, false_or,
      Event.sent.injEq] at hp
    obtain ⟨rfl, rfl⟩ := hp
    exact (joined_iff hs hq hpeer).mpr ⟨hk, ht₀, rfl, rfl⟩
  · rw [hunfed]
    simp [queued, hcell, hs, bytesWritten]
  · obtain ⟨-, ht, rfl, rfl⟩ := (joined_iff hs hq hpeer).mp hjoined
    obtain rfl := Option.some.inj (ht₀.symm.trans ht)
    simp [bytesSent, sentOn, payloads, bytesRead]
  · obtain ⟨-, ht, rfl, rfl⟩ := (joined_iff hs hq hpeer).mp hjoined
    obtain rfl := Option.some.inj (ht₀.symm.trans ht)
    exact ⟨⟨.aWrte, a.id, b.id, out.bytes⟩, by simp, rfl, rfl, rfl⟩
  · obtain ⟨c, hc, hholds⟩ := hholds
    obtain rfl := Option.some.inj (hs.symm.trans hc)
    exact ⟨_, hcell, hholds⟩

theorem kept_drained (h : WellFormed st) (hs : st.heap s = some a) :
    Kept t st ((st.afterWrite s (drain st.writeScript a.pkts)).modify s fun a' =>
      { a' with pkts := (drain st.writeScript a.pkts).rest }) := by
  have hok := h.socket s a hs
  have hwrote : Kept t st (st.afterWrite s (drain st.writeScript a.pkts)) := kept_afterWrite h s _
  refine hwrote.trans (kept_local (a := a) hwrote.after hs rfl rfl rfl rfl rfl ?_ hok.fde)
  exact fun hlocal hrest => hok.queue hlocal (drain_nil_rest hrest)

theorem tidy_drained (h : WellFormed st) (hs : st.heap s = some a) (htidy : Tidy st) :
    Tidy ((st.afterWrite s (drain st.writeScript a.pkts)).modify s fun a' =>
      { a' with pkts := (drain st.writeScript a.pkts).rest }) := by
  have hok := h.socket s a hs
  refine tidy_modify (htidy.of_heap rfl) (a := a) hs (.of_kind rfl rfl rfl rfl ?_ hok.fde
    hok.transport) fun _ hrest => .inl (drain_nil_rest hrest)
  exact fun hlocal hrest => hok.queue hlocal (drain_nil_rest hrest)

/-- A queue is written as far as the descriptor takes it, and some of it is left. -/
theorem ledger_drained (h : WellFormed st) (hs : st.heap s = some a)
    (hrest : (drain st.writeScript a.pkts).rest ≠ [] ∨ ∀ i j, ¬ Joined t st s i j) :
    Ledger t st ((st.afterWrite s (drain st.writeScript a.pkts)).modify s fun a' =>
      { a' with pkts := (drain st.writeScript a.pkts).rest }) := by
  have hcell : ((st.afterWrite s (drain st.writeScript a.pkts)).modify s fun a' =>
      { a' with pkts := (drain st.writeScript a.pkts).rest }).heap s =
        some { a with pkts := (drain st.writeScript a.pkts).rest } := by
    simp [Sockets.modify, Sockets.afterWrite, hs]
  refine .of_own s [.fdWrote s (drain st.writeScript a.pkts).bytes]
    (kept_drained h hs) (tidy_drained h hs) rfl
    (fun p hp => by simp [Sockets.modify, Sockets.afterWrite, hp]) ?_ ?_ fun _ _ _ => ?_
  · rintro p hp e he
    obtain rfl := List.mem_singleton.mp he
    exact hp.symm
  · rintro i j ⟨p, hp, -⟩
    cases List.mem_singleton.mp hp
  · refine ⟨fun _ => rfl, ⟨[], ?_, fun _ => rfl⟩, fun i j _ => ⟨[], rfl, fun _ => rfl⟩,
      fun i j _ _ hreads => .inl ?_, fun i j hjoined _ _ => .inl ?_⟩
    · simp [queued, hcell, hs, bytesWritten, bytesFed, handed, drain_append]
    · obtain ⟨c, hc, hreads⟩ := hreads
      obtain rfl := Option.some.inj (hs.symm.trans hc)
      exact ⟨_, hcell, hreads⟩
    · exact ⟨_, hcell, hrest.resolve_right fun hnot => hnot i j hjoined⟩

/-- A queue that has been written is answered. -/
theorem ledger_answered (ctx : ServiceContext) (h : WellFormed st) (hs : st.heap s = some a)
    (hpeer : a.peer = some q) (hq : st.heap q = some b) (hk : b.kind = .remote)
    (hdone : (drain st.writeScript a.pkts).status = .done) :
    Ledger t st (asocketReady ctx (((st.afterWrite s (drain st.writeScript a.pkts)).modify s
      fun a' => { a' with pkts := (drain st.writeScript a.pkts).rest }).modify s fun a =>
        { a with fde := fdeventDel a.fde .fdeWrite }) q) := by
  have hok := h.socket s a hs
  obtain ⟨hne, b', hb', hback, -⟩ := hok.peer q hpeer
  obtain rfl := Option.some.inj (hq.symm.trans hb')
  obtain ⟨t₀, ht₀⟩ := Option.isSome_iff_exists.mp ((h.socket q b hq).transport hk)
  have hdrained := @kept_drained t st s a h hs
  have htidy := tidy_drained h hs
  have hrest := drain_rest_of_done hdone
  have hwritten := drain_append st.writeScript a.pkts
  rw [hrest, List.flatten_nil, List.append_nil] at hwritten
  have hcell₁ : ((st.afterWrite s (drain st.writeScript a.pkts)).modify s fun a' =>
      { a' with pkts := (drain st.writeScript a.pkts).rest }).heap s =
        some { a with pkts := [] } := by
    simp [Sockets.modify, Sockets.afterWrite, hs, hrest]
  have hother₁ : ∀ p, p ≠ s → ((st.afterWrite s (drain st.writeScript a.pkts)).modify s fun a' =>
      { a' with pkts := (drain st.writeScript a.pkts).rest }).heap p = st.heap p := fun p hp => by
    simp [Sockets.modify, Sockets.afterWrite, hp]
  have htrace₁ : ((st.afterWrite s (drain st.writeScript a.pkts)).modify s fun a' =>
      { a' with pkts := (drain st.writeScript a.pkts).rest }).trace =
        st.trace ++ [.fdWrote s a.pkts.flatten] := by
    rw [← hwritten]
    rfl
  generalize (st.afterWrite s (drain st.writeScript a.pkts)).modify s (fun a' =>
    { a' with pkts := (drain st.writeScript a.pkts).rest }) = st₁ at *
  have hrespects : Respects { a with pkts := [] }
      { a with pkts := [], fde := fdeventDel a.fde .fdeWrite } :=
    .of_kind rfl rfl rfl rfl (by simp) (hok.fde.fdeventDel _) hok.transport
  have hquiet : Kept t st₁
      (st₁.modify s fun a => { a with fde := fdeventDel a.fde .fdeWrite }) :=
    kept_modify hdrained.after hcell₁ hrespects rfl
  have htidy₂ : Tidy st →
      Tidy (st₁.modify s fun a => { a with fde := fdeventDel a.fde .fdeWrite }) :=
    fun hst => tidy_modify (htidy hst) hcell₁ hrespects fun _ => .inl
  have hcell₂ : (st₁.modify s fun a => { a with fde := fdeventDel a.fde .fdeWrite }).heap s =
      some { a with pkts := [], fde := fdeventDel a.fde .fdeWrite } := by
    simp [Sockets.modify, hcell₁]
  have hother₂ : ∀ p, p ≠ s →
      (st₁.modify s fun a => { a with fde := fdeventDel a.fde .fdeWrite }).heap p = st.heap p :=
    fun p hp => by simp [Sockets.modify, hp, hother₁]
  have htrace₂ : (st₁.modify s fun a => { a with fde := fdeventDel a.fde .fdeWrite }).trace =
      st.trace ++ [.fdWrote s a.pkts.flatten] := htrace₁
  have hready := kept_asocketReady (t := t) ctx hquiet.after q
  generalize st₁.modify s (fun a => { a with fde := fdeventDel a.fde .fdeWrite }) = st₂ at *
  have hq₂ : st₂.heap q = some b := (hother₂ q hne).trans hq
  rw [ready_remote ctx hq₂ hk ht₀ hcell₂ hback] at hready ⊢
  have hsilent : ∀ i j, ¬ Says t .aWrte i j [.fdWrote s a.pkts.flatten, .readyCalled q,
      .sent t₀ ⟨.aOkay, a.id, b.id, []⟩] := by
    rintro i j ⟨p, hp, hc, -⟩
    simp only [List.mem_cons, List.not_mem_nil, or_false, reduceCtorEq, false_or,
      Event.sent.injEq] at hp
    simp [hp.2] at hc
  refine .of_own s [.fdWrote s a.pkts.flatten, .readyCalled q,
    .sent t₀ ⟨.aOkay, a.id, b.id, []⟩] ((hdrained.trans hquiet).trans hready)
    (fun hst => (htidy₂ hst).of_heap rfl) ?_ hother₂ ?_
    (fun i j hspoken => absurd hspoken (hsilent i j))
    fun _ _ hunfed => ⟨fun _ => hunfed, ⟨[], ?_, fun _ => rfl⟩, fun i j _ => ⟨[], ?_, fun _ => rfl⟩,
      fun i j _ _ hreads => .inl ?_, fun i j hjoined _ _ => .inr ?_⟩
  · simp [Sockets.record, Sockets.sendPacket, htrace₂]
  · rintro p hp e he
    simp only [List.mem_cons, List.not_mem_nil, or_false] at he
    rcases he with rfl | rfl | rfl
    · exact hp.symm
    all_goals trivial
  · rw [hunfed]
    simp [queued, Sockets.record, Sockets.sendPacket, hcell₂, hs, bytesWritten]
  · rw [bytesSent_of_silent (hsilent i j)]
    simp [bytesRead]
  · obtain ⟨c, hc, hreads⟩ := hreads
    obtain rfl := Option.some.inj (hs.symm.trans hc)
    refine ⟨_, hcell₂, ?_⟩
    simpa [EventMask.diff, EventMask.fdeWrite, EventMask.empty] using hreads
  · obtain ⟨-, ht, rfl, rfl⟩ := (joined_iff hs hq hpeer).mp hjoined
    obtain rfl := Option.some.inj (ht₀.symm.trans ht)
    exact ⟨⟨.aOkay, a.id, b.id, []⟩, by simp, rfl, rfl, rfl⟩

theorem not_joined_of_offstream (hpeer : st.peerOf s = some q)
    (hoff : Offstream st q) (i j : Nat) : ¬ Joined t st s i j := by
  intro hjoined
  obtain ⟨r, hr, hk⟩ := hjoined.attached
  obtain rfl := Option.some.inj (hpeer.symm.trans hr)
  exact hoff.2 hk

theorem not_joined_of_closing (hwf : WellFormed st) (hs : st.heap s = some a)
    (hclosing : a.closing = true) (i j : Nat) : ¬ Joined t st s i j := fun hjoined =>
  hjoined.not_over hwf fun b hb => by rwa [← Option.some.inj (hs.symm.trans hb)]

theorem not_joined_of_peerless (hs : st.heap s = some a) (hpeer : a.peer = none) (i j : Nat) :
    ¬ Joined t st s i j := by
  rintro ⟨c, q, b, hc, -, hq, -⟩
  obtain rfl := Option.some.inj (hs.symm.trans hc)
  simp [hpeer] at hq

theorem ledger_readyPeer (ctx : ServiceContext) (h : WellFormed st) (hq : st.peerOf s = some q)
    (hoff : Offstream st q) : Ledger t st (asocketReady ctx st q) :=
  ledger_effect (T := fun _ => True) (R := fun _ => True) (kept_asocketReady ctx h q)
    (effect_asocketReady h (active_peer h hq) (.inr hoff) (fun _ _ => trivial) ctx)

theorem ledger_localSocketWriteEvent (ctx : ServiceContext) (h : WellFormed st)
    (hlocal : ∀ a, st.heap s = some a → SocketKind.isLocal a.kind = true) :
    Ledger t st (localSocketWriteEvent ctx st s).2 := by
  unfold localSocketWriteEvent
  split
  · exact ledger_halt h _
  · rename_i a hs
    have hok := h.socket s a hs
    have hdrained := @ledger_drained t st s a h hs
    have hcell : ((st.afterWrite s (drain st.writeScript a.pkts)).modify s fun a' =>
        { a' with pkts := (drain st.writeScript a.pkts).rest }).heap s =
          some { a with pkts := (drain st.writeScript a.pkts).rest } := by
      simp [Sockets.modify, Sockets.afterWrite, hs]
    have hother : ∀ p, p ≠ s → ((st.afterWrite s (drain st.writeScript a.pkts)).modify s fun a' =>
        { a' with pkts := (drain st.writeScript a.pkts).rest }).heap p = st.heap p := fun p hp => by
      simp [Sockets.modify, Sockets.afterWrite, hp]
    have hkept := @kept_drained t st s a h hs
    have hanswered := fun q b => @ledger_answered t st s q a b ctx h hs
    dsimp only
    split
    · exact hdrained (.inl (drain_rest_ne_nil (by simp [*])))
    · have hdrained := hdrained (.inl (drain_rest_ne_nil (by simp [*])))
      exact hdrained.trans (ledger_writeFailed hdrained.after hcell)
    · rename_i hdone
      have hrest := drain_rest_of_done hdone
      split
      · rename_i hclosing
        have hdrained := hdrained (.inr (not_joined_of_closing h hs hclosing))
        exact hdrained.trans (ledger_asocketClose hdrained.after hcell)
      · -- Only on a stream the answer goes out to the other side.
        have hunjoined : (∀ i j, ¬ Joined t st s i j) → Ledger t st
            (((st.afterWrite s (drain st.writeScript a.pkts)).modify s fun a' =>
              { a' with pkts := (drain st.writeScript a.pkts).rest }).modify s fun a =>
                { a with fde := fdeventDel a.fde .fdeWrite }) := by
          intro hnot
          have hdrained := hdrained (.inr hnot)
          refine hdrained.trans (ledger_modify hdrained.after hcell (.of_kind rfl rfl rfl rfl ?_
            (hok.fde.fdeventDel _) hok.transport) rfl rfl fun i j hjoined => ?_)
          · exact fun _ hqueue => absurd hrest hqueue
          · exact absurd (hkept.joined s i j hjoined) (hnot i j)
        split
        · rename_i hpeer
          have hquiet := hunjoined (not_joined_of_peerless hs hpeer)
          exact hquiet.trans (ledger_halt hquiet.after _)
        · rename_i q hpeer
          have hq : st.peerOf s = some q := peerOf_eq_some.mpr ⟨a, hs, hpeer⟩
          have hremote : st.kindOf s ≠ some .remote := by
            rw [kindOf_eq hs rfl]
            intro hk
            have hlocal := hlocal a hs
            simp [Option.some.inj hk, SocketKind.isLocal] at hlocal
          rcases remote_or_offstream h hq hremote with hk | hoff
          · obtain ⟨b, hb, hk⟩ := Option.map_eq_some_iff.mp hk
            exact hanswered q b hpeer hb hk hdone
          · have hquiet := hunjoined (not_joined_of_offstream hq hoff)
            have hcell₂ := modify_self hcell (f := fun a =>
              { a with fde := fdeventDel a.fde .fdeWrite })
            have hother₂ := fun p hp => (modify_other _ hp (f := fun a =>
              { a with fde := fdeventDel a.fde .fdeWrite })).trans (hother p hp)
            generalize (((st.afterWrite s (drain st.writeScript a.pkts)).modify s fun a' =>
              { a' with pkts := (drain st.writeScript a.pkts).rest }).modify s fun a =>
                { a with fde := fdeventDel a.fde .fdeWrite }) = st₂ at *
            have hq₂ : st₂.peerOf s = some q := peerOf_eq_some.mpr ⟨_, hcell₂, hpeer⟩
            refine hquiet.trans (ledger_readyPeer ctx hquiet.after hq₂ ?_)
            refine (remote_or_offstream hquiet.after hq₂ ?_).resolve_left ?_
            · rw [kindOf_eq hcell₂ rfl]
              rwa [kindOf_eq hs rfl] at hremote
            · rw [Sockets.kindOf, hother₂ q (hok.peer q hpeer).1]
              exact hoff.2

/-- A read of a socket that is not on a stream. -/
theorem ledger_readOffstream (ctx : ServiceContext) (h : WellFormed st) (hs : st.heap s = some a)
    (hlocal : SocketKind.isLocal a.kind = true) (hq : st.peerOf s = some q)
    (hoff : Offstream st q) (data : Bytes) : Ledger t st (peerEnqueue ctx st q data).2 := by
  have hnotRemote : a.kind ≠ .remote ∧ a.kind ≠ .smart := by
    cases hk : a.kind <;> simp_all [SocketKind.isLocal]
  refine ledger_effect (T := fun _ => True) (R := fun _ => True)
    (kept_peerEnqueue (s := s) h hq ?_ data) (effect_peerEnqueue h (fun _ _ _ _ => trivial)
      (active_peer h hq) (.inr hoff) (.inr (fed_of_peer h hs hq hnotRemote.2)) (fun _ _ => trivial)
      (fun _ _ => trivial) data)
  rw [kindOf_eq hs rfl]
  exact fun hk => hnotRemote.1 (Option.some.inj hk)

theorem ledger_localSocketReadEvent (ctx : ServiceContext) (h : WellFormed st)
    (hlocal : ∀ a, st.heap s = some a → SocketKind.isLocal a.kind = true) :
    Ledger t st (localSocketReadEvent ctx st s) := by
  unfold localSocketReadEvent
  split
  · exact ledger_halt h _
  · rename_i a hs
    have hlocal := hlocal a hs
    dsimp only
    generalize readLoop true st.readScript (getMaxPayload ctx.limit st s) = out
    split
    · rename_i hpeer
      have hread := ledger_afterRead h out
        (.inr (not_joined_of_peerless (t := t) hs hpeer))
      exact hread.trans (ledger_closeAtEof hread.after s _ _)
    · rename_i q hpeer
      have hq : st.peerOf s = some q := peerOf_eq_some.mpr ⟨a, hs, hpeer⟩
      split
      · rename_i hempty
        have hread := ledger_afterRead (t := t) (s := s) h out (.inl (List.isEmpty_iff.mp hempty))
        exact hread.trans (ledger_closeAtEof hread.after s _ _)
      · have hremote : st.kindOf s ≠ some .remote := by
          rw [kindOf_eq hs rfl]
          intro hk
          simp [Option.some.inj hk, SocketKind.isLocal] at hlocal
        rcases remote_or_offstream h hq hremote with hk | hoff
        · obtain ⟨b, hb, hk⟩ := Option.map_eq_some_iff.mp hk
          obtain ⟨-, b', hb', hback, -⟩ := (h.socket s a hs).peer q hpeer
          obtain rfl := Option.some.inj (hb.symm.trans hb')
          obtain ⟨t₀, ht₀⟩ := Option.isSome_iff_exists.mp ((h.socket q b hb).transport hk)
          have hsent := @ledger_sendRead t st s q a b ctx h hs hpeer hb hk hlocal out
          rw [@enqueue_remote ((st.afterRead s out).record (.handedOver s out.bytes)) s q a b ctx
            hb hk t₀ ht₀ hs hback] at hsent ⊢
          have hcell : ((((st.afterRead s out).record (.handedOver s out.bytes)).record
              (.enqueueCalled q out.bytes)).sendPacket t₀ ⟨.aWrte, a.id, b.id, out.bytes⟩).heap s =
                some a := hs
          simp only [hcell]
          exact hsent.trans (ledger_closeAtEof hsent.after s _ _)
        · have hread := ledger_afterRead h out
            (.inr (not_joined_of_offstream (t := t) hq hoff))
          have hhanded := hread.trans
            (ledger_record (e := .handedOver s out.bytes) hread.after trivial trivial)
          have henqueued := hhanded.trans
            (ledger_readOffstream ctx hhanded.after hs hlocal hq hoff out.bytes)
          have hkept : Kept t st (peerEnqueue ctx
              ((st.afterRead s out).record (.handedOver s out.bytes)) q out.bytes).2 :=
            ((kept_afterRead h s out).trans (kept_record (e := .handedOver s out.bytes) hread.after
              trivial)).trans
              (kept_peerEnqueue (s := s) hhanded.after hq hremote out.bytes)
          generalize peerEnqueue ctx ((st.afterRead s out).record (.handedOver s out.bytes)) q
            out.bytes = result at henqueued hkept
          obtain ⟨r, st₁⟩ := result
          have hwf := henqueued.after
          refine henqueued.trans ?_
          dsimp only at hkept hwf ⊢
          split
          · exact .refl hwf
          split
          · split
            · exact ledger_halt hwf _
            · rename_i a' hs'
              have hpaused : Ledger t st₁
                  (st₁.modify s fun a => { a with fde := fdeventDel a.fde .fdeRead }) := by
                refine ledger_local hwf hs' rfl rfl rfl rfl rfl rfl ?_
                  ((hwf.socket s a' hs').fde.fdeventDel _) fun i j hjoined => ?_
                · simp [EventMask.diff, EventMask.fdeRead, EventMask.empty]
                · exact absurd (hkept.joined s i j hjoined) (not_joined_of_offstream hq hoff i j)
              exact hpaused.trans (ledger_closeAtEof hpaused.after s _ _)
          · exact ledger_closeAtEof hwf s _ _

theorem isLocal_of_lasts {st' : Sockets} (h : Lasts t st st') (hs : s < st.nextRef)
    (hlocal : ∀ a, st.heap s = some a → SocketKind.isLocal a.kind = true) :
    ∀ a', st'.heap s = some a' → SocketKind.isLocal a'.kind = true := by
  intro a' ha'
  obtain ⟨a, ha, hkind⟩ := h.kinds s a' hs ha'
  rcases hkind with hsame | ⟨-, hlocal'⟩
  · exact hsame ▸ hlocal a ha
  · exact hlocal'

theorem ledger_localSocketEventFunc (ctx : ServiceContext) (h : WellFormed st)
    (hs : s < st.nextRef) (hlocal : ∀ a, st.heap s = some a → SocketKind.isLocal a.kind = true)
    (ev : EventMask) : Ledger t st (localSocketEventFunc ctx st s ev) := by
  unfold localSocketEventFunc
  cases ev.write with
  | false =>
      simp only [Bool.false_eq_true, if_false, Bool.true_and]
      split
      · exact ledger_localSocketReadEvent ctx h hlocal
      · exact .refl h
  | true =>
      simp only [if_true]
      have hwrite := @ledger_localSocketWriteEvent t st s ctx h hlocal
      refine hwrite.trans ?_
      split
      · exact ledger_localSocketReadEvent ctx hwrite.after
          (isLocal_of_lasts hwrite.toLasts hs hlocal)
      · exact .refl hwrite.after

theorem ledger_dispatchSocket (ctx : ServiceContext) (h : WellFormed st) (hs : st.heap s = some a)
    (hlocal : SocketKind.isLocal a.kind = true) : Ledger t st (dispatchSocket ctx st s) := by
  have htaken : Ledger t st (st.modify s fun a => { a with fde := fdeventTake a.fde }) :=
    ledger_local h hs rfl rfl rfl rfl rfl rfl id (h.socket s a hs).fde.fdeventTake fun _ _ _ => id
  unfold dispatchSocket
  simp only [hs]
  refine htaken.trans (ledger_localSocketEventFunc ctx htaken.after (h.socket s a hs).fresh ?_ _)
  intro a' ha'
  obtain rfl := Option.some.inj ((modify_self hs).symm.trans ha')
  exact hlocal

theorem ledger_subprocExited (ctx : ServiceContext) (h : WellFormed st) (hs : st.heap s = some a)
    (hlocal : SocketKind.isLocal a.kind = true) (unread : Bool) :
    Ledger t st (subprocExited ctx st s unread) := by
  have hok := h.socket s a hs
  have hmarked : Ledger t st (st.modify s markEof) :=
    ledger_local h hs rfl rfl rfl rfl rfl rfl id ⟨hok.fde.writeWanted, hok.fde.idle⟩ fun _ _ _ => id
  have hcell : (st.modify s markEof).heap s = some (markEof a) := modify_self hs
  have hfaked : Ledger t (st.modify s markEof) ((st.modify s markEof).modify s fun a =>
      { a with fde := { a.fde with events := a.fde.events.union .fdeRead, pending := true } }) := by
    refine ledger_local hmarked.after hcell rfl rfl rfl rfl rfl rfl id ⟨fun hw => ?_, by simp⟩
      fun _ _ _ => id
    refine hok.fde.writeWanted ?_
    simpa [markEof, EventMask.union, EventMask.fdeRead, EventMask.empty] using hw
  unfold subprocExited
  simp only [hs]
  split
  · exact hmarked
  · split
    · exact hmarked.trans hfaked
    · exact (hmarked.trans hfaked).trans
        (ledger_dispatchSocket ctx hfaked.after (modify_self hcell) hlocal)

end Events

section Callbacks

variable {t : TransportRef} {st : Sockets} {s : SocketRef} {a : Asocket}

theorem ledger_listenerEventFunc (ctx : ServiceContext) (h : WellFormed st) (l : Alistener) :
    Ledger t st (listenerEventFunc ctx st l) :=
  ledger_effect (R := fun _ => True) (kept_listenerEventFunc ctx h l)
    (effect_listenerEventFunc ctx h l fun _ _ => trivial)

theorem ledger_ssListenerEventFunc (ctx : ServiceContext) (h : WellFormed st) :
    Ledger t st (ssListenerEventFunc ctx st) :=
  ledger_effect (R := fun _ => True) (kept_ssListenerEventFunc ctx h)
    (effect_ssListenerEventFunc ctx h)

theorem jdwpProcessListUpdated_eq (ctx : ServiceContext) (htidy : Tidy st)
    (htrackers : TrackersOk st) : jdwpProcessListUpdated ctx st = st := by
  unfold jdwpProcessListUpdated
  have hnone : ∀ s ∈ st.jdwpTrackers, st.heap s = none := by
    intro s hs
    cases ha : st.heap s with
    | none => rfl
    | some a => exact absurd ((htrackers.jdwp s hs).2 a ha) (htidy.plain s a ha).2
  generalize st.jdwpTrackers = trackers at hnone
  induction trackers with
  | nil => rfl
  | cons s trackers ih =>
      have hpeer : st.peerOf s = none := by simp [Sockets.peerOf, hnone s List.mem_cons_self]
      rw [List.foldl_cons]
      simp only [hpeer]
      exact ih fun p hp => hnone p (List.mem_cons_of_mem _ hp)

theorem carries_ledger (t : TransportRef) : Carries (Ledger t) where
  after h := h.after
  trans := Ledger.trans
  same h hsame :=
    .of_still (.of_heap h hsame.heap hsame.listed hsame.closing hsame.counters (.refl hsame.trace))
      (.of_heap h hsame.heap hsame.listed hsame.closing hsame.counters (.refl hsame.trace))
  received h _ _ := ledger_record h trivial trivial
  close := ledger_asocketClose
  send h t' p hp := by
    have hstream : ∀ c, Command.isStream c = true → p.command ≠ c := by
      rintro c hc rfl
      simp [hc] at hp
    exact .of_still (kept_sendPacket h t' (tells_sent (hstream _ rfl) (hstream _ rfl)
      (hstream _ rfl))) (still_sendPacket h t' (hstream _ rfl))
  notify {st s} h hs list := by
    have hremote : st.kindOf s ≠ some .remote := by
      intro hremote
      obtain ⟨a, ha, hk⟩ := Option.map_eq_some_iff.mp hremote
      simp [hs a ha] at hk
    refine .of_still (kept_deviceTrackerSend h hremote list) ?_
    unfold deviceTrackerSend
    split
    · exact still_halt h _
    · rename_i q hq
      obtain ⟨a, ha, hpeer⟩ := peerOf_eq_some.mp hq
      have hoff : Offstream st q := by
        refine (remote_or_offstream h hq hremote).resolve_left fun hk => ?_
        obtain ⟨-, b, hb, -, hcompat⟩ := (h.socket s a ha).peer q hpeer
        rw [kindOf_eq hb rfl] at hk
        rw [hs a ha, Option.some.inj hk] at hcompat
        cases hcompat
      exact still_effect (R := fun _ => True) h (effect_asocketEnqueue h (active_peer h hq)
        (.inr hoff) (.inr (fed_of_peer h ha hq (by simp [hs a ha]))) _)

end Callbacks

section Messages

variable {t t' : TransportRef} {st : Sockets} {s : SocketRef} {a : Asocket}

theorem ledger_sendPacket (h : WellFormed st) (t' : TransportRef) {p : Apacket}
    (hp : p.command ≠ .aWrte) : Ledger t st (st.sendPacket t' p) where
  toLasts := .of_heap h rfl rfl rfl ⟨rfl, rfl⟩
  books := by
    have hsilent : ∀ i j, ¬ Says t .aWrte i j [.sent t' p] := by
      rintro i j ⟨p', hp', hc, -⟩
      cases List.mem_singleton.mp hp'
      exact hp hc
    refine ⟨[.sent t' p], rfl, fun s _ _ => ?_, fun i j _ => bytesSent_of_silent (hsilent i j)⟩
    refine entry_untouched rfl ?_ rfl fun i j _ => hsilent i j
    rintro e he
    obtain rfl := List.mem_singleton.mp he
    trivial

theorem tidy_connectRemote (h : WellFormed st) (hs : Connectable st s a) (remoteId : Nat)
    (htidy : Tidy st) : Tidy (connectRemote st s remoteId t') := by
  obtain ⟨hself, hnew, hother, -⟩ := connectRemote_cells h hs.cell remoteId t'
  refine htidy.later (fun p b' hb' => ?_) fun p b' hb' _ _ _ hfed => ?_
  · by_cases hps : p = s
    · subst hps
      obtain rfl := Option.some.inj (hself.symm.trans hb')
      exact .inl ⟨a, hs.cell, .inl rfl, fun _ => rfl, fun _ hc hp => ⟨hc, .inl hp⟩⟩
    · by_cases hpn : p = st.nextRef
      · subst hpn
        obtain rfl := Option.some.inj (hnew.symm.trans hb')
        have hk : (remoteCell remoteId t').kind = .remote := rfl
        exact .inr ⟨rfl, by simp [hk], by simp [hk], by simp [hk]⟩
      · exact descends_same (hother p hps hpn ▸ hb')
  · obtain ⟨q, b, hq, hb, hspeaks⟩ := hfed
    obtain ⟨c, hc, hpeer⟩ := peerOf_eq_some.mp hq
    obtain ⟨b₀, hb₀, hback⟩ := peerOf_eq_some.mp (h.peerOf_symm hq)
    have hps : p ≠ s := by
      rintro rfl
      obtain rfl := Option.some.inj (hs.cell.symm.trans hc)
      simp [hs.peer] at hpeer
    have hqs : q ≠ s := by
      rintro rfl
      obtain rfl := Option.some.inj (hs.cell.symm.trans hb₀)
      simp [hs.peer] at hback
    refine ⟨q, b, peerOf_eq_some.mpr ⟨c, ?_, hpeer⟩, ?_, hspeaks⟩
    · rw [hother p hps (Nat.ne_of_lt (h.socket p c hc).fresh), hc]
    · rw [hother q hqs (Nat.ne_of_lt (h.socket q b hb).fresh), hb]

/-- The streams that there are go on while a socket is joined. -/
theorem ledger_connectRemote (h : WellFormed st) (hs : Connectable st s a) (remoteId : Nat) :
    Ledger t st (connectRemote st s remoteId t') := by
  obtain ⟨-, -, hother, htrace⟩ := connectRemote_cells h hs.cell remoteId t'
  have heffect : Effect true (fun _ => True) (fun _ => True) st (connectRemote st s remoteId t') :=
    effect_connectRemote h hs trivial trivial remoteId trivial
  have hsilent : ∀ i j, ¬ Says t .aWrte i j [.connected s a.id remoteId t'] := by
    rintro i j ⟨p, hp, -⟩
    cases List.mem_singleton.mp hp
  refine ⟨⟨h, heffect.wellFormed h, (heffect.counters h).1, fun _ _ hp hb => heffect.cell h hp hb,
    idsKept_effect heffect h, fun p hp => (over_connectRemote h hs hp).mpr,
    fun p i j hp => .inl ((joined_connectRemote h hs).mpr (.inl hp)),
    tidy_connectRemote h hs remoteId⟩, ?_⟩
  refine ⟨[.connected s a.id remoteId t'], htrace, fun p hp hbooked => ?_,
    fun i j _ => bytesSent_of_silent (hsilent i j)⟩
  have hps : p ≠ s := by
    rintro rfl
    rcases hbooked with ⟨i, j, hjoined⟩ | hover
    · exact not_joined_of_peerless hs.cell hs.peer i j hjoined
    · simpa [hs.active] using hover a hs.cell
  refine entry_untouched (hother p hps (Nat.ne_of_lt hp)) ?_ rfl fun i j _ => hsilent i j
  rintro e he
  obtain rfl := List.mem_singleton.mp he
  trivial

theorem lasts_enqueueCalled (h : WellFormed st) (data : Bytes) {st' : Sockets}
    (hkept : Kept t (st.record (.enqueueCalled s data)) st')
    (htidy : Tidy st → Tidy st') : Lasts t st st' := by
  have hcalled : Lasts t st (st.record (.enqueueCalled s data)) := .of_heap h rfl rfl rfl ⟨rfl, rfl⟩
  exact hcalled.trans (.of_kept hkept fun hst => htidy (hst.of_heap rfl))

/-- Events that only write to the descriptor of `s`. -/
def OnlyWrites (s : SocketRef) (events : List Event) : Prop :=
  ∀ e ∈ events, ∃ bytes, e = .fdWrote s bytes

theorem entry_fed_other {events : List Event} {data : Bytes} {st' : Sockets} {p : SocketRef}
    (hp : p ≠ s) (hcell : st'.heap p = st.heap p) (hwrites : OnlyWrites s events) :
    Entry t st st' (.enqueueCalled s data :: events) p := by
  refine entry_untouched hcell ?_ ?_ ?_
  · rintro e he
    rcases List.mem_cons.mp he with rfl | he
    · trivial
    · obtain ⟨bytes, rfl⟩ := hwrites e he
      exact hp.symm
  · refine bytesFed_eq_nil fun data' he => ?_
    rcases List.mem_cons.mp he with he | he
    · cases he
      exact hp rfl
    · obtain ⟨bytes, he⟩ := hwrites _ he
      cases he
  · rintro i j - ⟨p, he, -⟩
    rcases List.mem_cons.mp he with he | he
    · cases he
    · obtain ⟨bytes, he⟩ := hwrites _ he
      cases he

theorem silent_of_onlyWrites {events : List Event} {data : Bytes} {command : Command} {i j : Nat}
    (hwrites : OnlyWrites s events) : ¬ Says t command i j (.enqueueCalled s data :: events) := by
  rintro ⟨p, he, -⟩
  rcases List.mem_cons.mp he with he | he
  · cases he
  · obtain ⟨bytes, he⟩ := hwrites _ he
    cases he

theorem bytesRead_of_onlyWrites {events : List Event} {data : Bytes} (p : SocketRef)
    (hwrites : OnlyWrites s events) : bytesRead p (.enqueueCalled s data :: events) = [] := by
  refine List.flatMap_eq_nil_iff.mpr fun e he => ?_
  rcases List.mem_cons.mp he with rfl | he
  · rfl
  · obtain ⟨bytes, rfl⟩ := hwrites e he
    rfl

theorem bytesFed_of_onlyWrites {events : List Event} {data : Bytes}
    (hwrites : OnlyWrites s events) : bytesFed s (.enqueueCalled s data :: events) = data := by
  have hnone : bytesFed s events = [] := bytesFed_eq_nil fun data' he => by
    obtain ⟨bytes, he⟩ := hwrites _ he
    cases he
  rw [← List.singleton_append, bytesFed_append, hnone, List.append_nil]
  simp [bytesFed, handed]

/-- What is handed to a socket is written or goes to the end of its queue. -/
theorem ledger_fed {events : List Event} {data : Bytes} {a' : Asocket} {st' : Sockets}
    (hs : st.heap s = some a) (hactive : a.closing = false) (hlasts : Lasts t st st')
    (htrace : st'.trace = st.trace ++ .enqueueCalled s data :: events)
    (hwrites : OnlyWrites s events) (hother : ∀ p, p ≠ s → st'.heap p = st.heap p)
    (hcell : st'.heap s = some a')
    (hpoured : bytesWritten s events ++ a'.pkts.flatten = a.pkts.flatten ++ data)
    (hread : a'.fde.state.read = a.fde.state.read) (hholds : a.pkts ≠ [] → a'.pkts ≠ []) :
    Ledger t st st' where
  toLasts := hlasts
  books := by
    refine ⟨_, htrace, fun p hp _ => ?_, fun i j _ =>
      bytesSent_of_silent (silent_of_onlyWrites hwrites)⟩
    by_cases hps : p = s
    · subst hps
      refine ⟨fun hover => ?_, ⟨[], ?_, fun _ => rfl⟩, fun i j _ => ⟨[], ?_, fun _ => rfl⟩,
        fun i j _ _ hreads => .inl ?_, fun i j _ _ hholds' => .inl ?_⟩
      · simp [hover a hs] at hactive
      · rw [bytesFed_of_onlyWrites hwrites]
        simpa [queued, hcell, hs, bytesWritten] using hpoured
      · rw [bytesSent_of_silent (silent_of_onlyWrites hwrites), bytesRead_of_onlyWrites _ hwrites,
          List.append_nil]
      · obtain ⟨c, hc, hreads⟩ := hreads
        obtain rfl := Option.some.inj (hs.symm.trans hc)
        exact ⟨a', hcell, hread ▸ hreads⟩
      · obtain ⟨c, hc, hholds'⟩ := hholds'
        obtain rfl := Option.some.inj (hs.symm.trans hc)
        exact ⟨a', hcell, hholds hholds'⟩
    · exact entry_fed_other hps (hother p hps) hwrites

/-- What is handed to a socket whose descriptor fails goes with it. -/
theorem ledger_fedFailed {data bytes rest : Bytes} {st₂ st' : Sockets} (h : WellFormed st)
    (hs : st.heap s = some a) (hactive : a.closing = false) (hempty : a.pkts = [])
    (hheap : st₂.heap = st.heap) (hlist : st₂.localSocketList = st.localSocketList)
    (hclosing : st₂.localSocketClosingList = st.localSocketClosingList)
    (hcounters : SameCounters st st₂)
    (htrace : st₂.trace = st.trace ++ [.enqueueCalled s data, .fdWrote s bytes])
    (hdata : bytes ++ rest = data) (hkept : Kept t st₂ st') (hfailed : Ledger t st₂ st')
    (hgone : st'.heap s = none) :
    Ledger t st st' := by
  have hlasts₁ : Lasts t st st₂ := .of_heap h hheap hlist hclosing hcounters
  have hlasts := hlasts₁.trans hfailed.toLasts
  have hwrites : OnlyWrites s [.fdWrote s bytes] := by simp [OnlyWrites]
  obtain ⟨events, htrace', hbooks, hretired⟩ := hfailed.books
  have hids : ∀ i, Retired st i → Retired st₂ i := fun i hi => hi.later hlasts₁.ids
  have hunsent : ∀ i j, bytesSent t i j [.enqueueCalled s data, .fdWrote s bytes] = [] :=
    fun i j => bytesSent_of_silent (silent_of_onlyWrites hwrites)
  refine ⟨hlasts, [.enqueueCalled s data, .fdWrote s bytes] ++ events, ?_, fun p hp hbooked => ?_,
    fun i j hi => ?_⟩
  · rw [htrace', htrace, List.append_assoc]
  · have hentry := hbooks p (Nat.lt_of_lt_of_le hp hlasts₁.next) (hlasts₁.booked hp hbooked)
    by_cases hps : p = s
    · subst hps
      have hover : Over st' p := fun b hb => by simp [hgone] at hb
      have hunfed := bytesFed_of_kept hkept htrace' (Nat.lt_of_lt_of_le hp hlasts₁.next)
        (hlasts₁.booked hp hbooked)
      obtain ⟨lost, hpoured, -⟩ := hentry.poured
      have hqueue : queued st₂ p = [] := by simp [queued, hheap, hs, hempty]
      rw [hunfed, hqueue, List.append_nil, List.append_eq_nil_iff,
        List.append_eq_nil_iff] at hpoured
      refine ⟨fun hover => ?_, ⟨rest, ?_, by simp [hgone]⟩, fun i j hjoined => ?_,
        fun i j _ hjoined' => absurd hover (hjoined'.not_over hlasts.after),
        fun i j _ hjoined' => absurd hover (hjoined'.not_over hlasts.after)⟩
      · simp [hover a hs] at hactive
      · rw [bytesWritten_append, bytesFed_append, hunfed, hpoured.1, hpoured.2.1,
          bytesFed_of_onlyWrites hwrites, ← hdata]
        simp [bytesWritten, queued, hs, hempty]
      · have hjoined₂ : Joined t st₂ p i j := by rwa [StreamLinks.Joined, hheap]
        obtain ⟨unsent, hsent, -⟩ := hentry.sent i j hjoined₂
        refine ⟨unsent, ?_, fun hjoined' => absurd hover (hjoined'.not_over hlasts.after)⟩
        rw [bytesSent_append, hunsent, List.nil_append, bytesRead_append,
          bytesRead_of_onlyWrites _ hwrites, List.nil_append, hsent]
    · exact (entry_fed_other hps (congrFun hheap p) hwrites).trans hlasts₁ hfailed.toLasts hp hentry
        hretired
  · rw [bytesSent_append, hunsent, hretired i j (hids i hi), List.nil_append]

theorem gone_of_writeFailed (h : WellFormed st) (hs : st.heap s = some a) :
    (asocketClose ((st.record (.fdWriteFailed s)).modify s fun a =>
      { a with hasWriteError := true }) s).heap s = none := by
  have hnoted : WellFormed (st.record (.fdWriteFailed s)) := h.congr rfl rfl rfl ⟨rfl, rfl⟩
  have hcell : ((st.record (.fdWriteFailed s)).modify s fun a =>
      { a with hasWriteError := true }).heap s = some { a with hasWriteError := true } := by
    simp [Sockets.modify, Sockets.record, hs]
  have hok := h.socket s a hs
  have hmarked := hnoted.modify hs (f := fun a => { a with hasWriteError := true })
    (.of_kind rfl rfl rfl rfl hok.queue hok.fde hok.transport)
  rw [(hmarked.asocketClose_closed hcell).heap, if_pos (self_mem_withPeer _ s), hcell]
  exact remains_eq_none (by simp)

/-- The other side hands data to a socket, which answers or has something in its queue. -/
theorem ledger_asocketEnqueue (h : WellFormed st) (hs : st.heap s = some a)
    (hactive : a.closing = false) (hlocal : SocketKind.isLocal a.kind = true) (hfed : Fed st s)
    (data : Bytes) : Ledger t st (asocketEnqueue st s data).2 ∧
      ((asocketEnqueue st s data).1 = 0 ∨ Holds (asocketEnqueue st s data).2 s ∨
        (asocketEnqueue st s data).2.heap s = none) := by
  have hkept := @kept_asocketEnqueue_called t st h s data
  have heq : asocketEnqueue st s data = localSocketEnqueue (st.record (.enqueueCalled s data)) s
      data := by
    unfold asocketEnqueue
    have hkind : (st.record (.enqueueCalled s data)).kindOf s = some a.kind :=
      @kindOf_eq (st.record (.enqueueCalled s data)) s a _ hs rfl
    simp only [hkind]
    cases hk : a.kind <;> simp_all [SocketKind.isLocal]
  rw [heq] at hkept ⊢
  have hok := h.socket s a hs
  have hs₁ : (st.record (.enqueueCalled s data)).heap s = some a := hs
  unfold localSocketEnqueue at hkept ⊢
  simp only [hs₁] at hkept ⊢
  have hread : (fdeventAdd a.fde .fdeWrite).state.read = a.fde.state.read := by
    simp [EventMask.union, EventMask.fdeWrite, EventMask.empty]
  have hwrite : (fdeventAdd a.fde .fdeWrite).state.write = true := by
    simp [EventMask.union, EventMask.fdeWrite]
  have hlonger : ∀ pkts : List Bytes, Respects a
      { a with pkts := pkts, fde := fdeventAdd a.fde .fdeWrite } := fun pkts =>
    .of_kind rfl rfl rfl rfl (fun _ _ => hwrite) (hok.fde.fdeventAdd _) hok.transport
  by_cases hempty : a.pkts.isEmpty = true
  · rw [if_pos hempty] at hkept ⊢
    have hpkts : a.pkts = [] := List.isEmpty_iff.mp hempty
    generalize hout : writeAll (st.record (.enqueueCalled s data)).writeScript data = out at hkept ⊢
    have hdata : out.bytes ++ out.rest = data := hout ▸ writeAll_append _ _
    have htrace : ((st.record (.enqueueCalled s data)).afterWrite s out).trace =
        st.trace ++ [.enqueueCalled s data, .fdWrote s out.bytes] := List.append_assoc ..
    have hwrites : OnlyWrites s [.fdWrote s out.bytes] := by simp [OnlyWrites]
    cases hstatus : out.status with
    | done =>
        have hrest : out.rest = [] := by
          rw [← hout] at hstatus ⊢
          exact writeAll_rest_of_done hstatus
        rw [hrest, List.append_nil] at hdata
        simp only [hstatus] at hkept ⊢
        refine ⟨ledger_fed (a := a) hs hactive
          (lasts_enqueueCalled h data hkept fun hst => hst.of_heap rfl) htrace hwrites
          (fun _ _ => rfl) hs ?_ rfl id, .inl trivial⟩
        simp [bytesWritten, hpkts, hdata]
    | failed =>
        simp only [hstatus] at hkept ⊢
        have hwf : WellFormed ((st.record (.enqueueCalled s data)).afterWrite s out) :=
          h.congr rfl rfl rfl ⟨rfl, rfl⟩
        have hgone := gone_of_writeFailed (a := a) hwf hs
        exact ⟨@ledger_fedFailed t st s a data out.bytes out.rest
          ((st.record (.enqueueCalled s data)).afterWrite s out) _ h hs hactive hpkts rfl rfl rfl
          ⟨rfl, rfl⟩ htrace hdata (kept_writeFailed hwf hs) (ledger_writeFailed hwf hs) hgone,
          .inr (.inr hgone)⟩
    | again =>
        simp only [hstatus] at hkept ⊢
        have hcell : (((st.record (.enqueueCalled s data)).afterWrite s out).modify s fun a =>
            { a with pkts := [out.rest], fde := fdeventAdd a.fde .fdeWrite }).heap s =
              some { a with pkts := [out.rest], fde := fdeventAdd a.fde .fdeWrite } :=
          @modify_self ((st.record (.enqueueCalled s data)).afterWrite s out) s a _ hs
        refine ⟨ledger_fed hs hactive (lasts_enqueueCalled h data hkept fun hst => ?_) htrace
          hwrites
          (fun p hp => modify_other ((st.record (.enqueueCalled s data)).afterWrite s out) hp)
          hcell ?_ hread (by simp), .inr (.inl ⟨_, hcell, by simp⟩)⟩
        · exact @tidy_modify ((st.record (.enqueueCalled s data)).afterWrite s out) s a _
            (hst.of_heap rfl) hs (hlonger _) fun _ _ => .inr hfed
        · simp [bytesWritten, hpkts, hdata]
  · rw [if_neg hempty] at hkept ⊢
    have hcell : ((st.record (.enqueueCalled s data)).modify s fun a =>
        { a with pkts := a.pkts ++ [data], fde := fdeventAdd a.fde .fdeWrite }).heap s =
          some { a with pkts := a.pkts ++ [data], fde := fdeventAdd a.fde .fdeWrite } :=
      @modify_self (st.record (.enqueueCalled s data)) s a _ hs
    refine ⟨ledger_fed hs hactive
      (lasts_enqueueCalled h data hkept fun hst => ?_) rfl (by simp [OnlyWrites])
      (fun p hp => modify_other (st.record (.enqueueCalled s data)) hp) hcell
      ?_ hread (by simp), .inr (.inl ⟨_, hcell, by simp⟩)⟩
    · exact @tidy_modify (st.record (.enqueueCalled s data)) s a _ (hst.of_heap rfl) hs (hlonger _)
        fun _ _ => .inr hfed
    · simp [bytesWritten]

end Messages

end Adb.LedgerCallbacks
