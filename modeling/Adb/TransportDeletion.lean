import Adb.AuthGate
import Adb.TransportThreads

/-!
The deletion of a transport.  At the end of a connection the main thread is told so
twice: by the last SYNC message of the read thread, in the transport's socket pair,
and by the removal in the registration socket.
-/

namespace Adb.TransportDeletion

open Adb.DescriptorIo
open Adb.WirePackets
open Adb.SocketTable
open Adb.SocketOperations
open Adb.SocketGraph
open Adb.AuthEffects
open Adb.AuthGate
open Adb.GraphInvariants
open Adb.ServerState
open Adb.ServerRuns
open Adb.ServerEffects
open Adb.TransitionSystems
open Adb.TransportIsolation
open Adb.OfflineTransports
open Adb.TransportThreads

/-! ### The callbacks that the history tells of -/

/-- The entries that stand for the start of a callback. -/
def isCall : AuthEvent → Bool
  | .created _ | .received _ _ | .deleted _ => true
  | _ => false

/-- The entry of a callback. -/
def called : Action → Option AuthEvent
  | .packet t p => some (.received t p)
  | .register t _ _ => some (.created t)
  | .remove t => some (.deleted t)
  | _ => none

/-- The callbacks of a history. -/
def calls (st : Server) : List AuthEvent := st.authLog.filter isCall

section Calls

variable {cfg : Config} {env : Oracle} {st : Server} {t : TransportRef}

theorem calls_log (e : AuthEvent) : calls (st.log e) = calls st ++ [e].filter isCall :=
  List.filter_append _ _

theorem calls_of_authLog {st' : Server} (h : st'.authLog = st.authLog) : calls st' = calls st :=
  congrArg (List.filter isCall) h

theorem calls_concat {st' : Server} {e : AuthEvent} (h : st'.authLog = st.authLog ++ [e])
    (he : isCall e = false) : calls st' = calls st := by
  rw [calls, h, List.filter_append, List.filter_cons_of_neg (by simp [he]), List.filter_nil,
    List.append_nil]
  rfl

theorem calls_updateTransports : calls (updateTransports cfg env st) = calls st := by
  unfold updateTransports
  split <;> rfl

theorem calls_goOffline : calls (handleOffline (setConnectionState st t .offline) t) = calls st :=
  calls_concat handleOffline_authLog rfl

theorem calls_sendAuthRequest : calls (sendAuthRequest env st t) = calls st := by
  obtain ⟨e, hlog, rfl | ⟨token, rfl⟩⟩ := @sendAuthRequest_log st t env
  · exact calls_concat hlog rfl
  · exact calls_concat hlog rfl

theorem calls_adbdAuthVerified (cause : AuthCause) :
    calls (adbdAuthVerified cfg st t cause) = calls st :=
  calls_concat rfl rfl

theorem calls_adbdAuthConfirmKey (key : Bytes) :
    calls (adbdAuthConfirmKey env st t key) = calls st := by
  rcases @adbdAuthConfirmKey_log env st t key with hlog | hlog
  · exact calls_of_authLog hlog
  · exact calls_concat hlog rfl

theorem calls_handleNewConnection (p : Apacket) :
    calls (handleNewConnection cfg env st t p) = calls st := by
  have hoffline : calls (if (st.transports t).connectionState ≠ .offline then
      handleOffline (setConnectionState st t .offline) t else st) = calls st := by
    split
    · exact calls_goOffline
    · rfl
  unfold handleNewConnection
  dsimp only
  rw [calls_updateTransports, ← hoffline]
  generalize (if (st.transports t).connectionState ≠ .offline then
    handleOffline (setConnectionState st t .offline) t else st) = st₁
  split
  · rfl
  · split
    · rfl
    · exact calls_sendAuthRequest

theorem calls_handleAuth (p : Apacket) : calls (handleAuth cfg env st t p) = calls st := by
  unfold handleAuth
  split
  · have hstate : calls (if (st.transports t).connectionState = .offline then
        setConnectionState st t .unauthorized else st) = calls st := by
      split <;> rfl
    dsimp only
    rw [← hstate]
    split <;> rfl
  · split
    · dsimp only
      split
      · exact @calls_adbdAuthVerified cfg st t _
      · exact calls_sendAuthRequest
    · split
      · exact calls_adbdAuthConfirmKey _
      · exact calls_goOffline

theorem calls_handlePacket (p : Apacket) :
    calls (handlePacket cfg env st t p) = calls st ++ [.received t p] := by
  have hreceived : calls ({ st with sockets := st.sockets.record (.received t p) }.log
      (.received t p)) = calls st ++ [.received t p] := calls_log _
  unfold handlePacket
  dsimp only
  rw [← hreceived]
  generalize { st with sockets := st.sockets.record (.received t p) }.log (.received t p) = st₁
  split
  · split
    · split <;> rfl
    · exact calls_goOffline
  · exact calls_handleNewConnection p
  · exact calls_handleAuth p
  · split
    · exact calls_concat rfl rfl
    · rfl

theorem calls_adbdAuthEvent (response : Bytes) (answered : Nat) :
    calls (adbdAuthEvent cfg st response answered) = calls st := by
  unfold adbdAuthEvent
  split
  · rfl
  · split
    · dsimp only
      have hanswer : calls ({ st with unanswered := st.unanswered.drop (answered + 1) }.log
          (.frameworkOk st.usbTransport st.unanswered[answered]?)) = calls st :=
        calls_concat rfl rfl
      rw [← hanswer]
      split
      · exact calls_adbdAuthVerified _
      · rfl
    · rfl

theorem calls_adbdAuthListener : calls (adbdAuthListener env st) = calls st := by
  unfold adbdAuthListener
  dsimp only
  split
  · split
    · exact calls_sendAuthRequest
    · rfl
  · rfl

theorem calls_runSockets (f : ServiceContext → Sockets → Sockets) :
    calls (runSockets cfg env st f) = calls st :=
  calls_of_authLog (listenerChange_runSockets f).authLog

/-- A callback adds its own entry to the history and no other callback's. -/
theorem calls_step (action : Action) :
    calls (step cfg env st action) = calls st ++ (called action).toList := by
  cases action with
  | packet t p => exact calls_handlePacket p
  | poll s revents => exact (List.append_nil _).symm
  | dispatch | subprocExited | acceptSmart | jdwpUpdated =>
      exact (calls_runSockets _).trans (List.append_nil _).symm
  | accept l =>
      simp only [step]
      split
      · exact (List.append_nil _).symm
      · exact (calls_runSockets _).trans (List.append_nil _).symm
  | register t state type => exact calls_updateTransports.trans (calls_log _)
  | remove t => exact calls_updateTransports.trans (calls_log _)
  | reverseRequest service =>
      exact (calls_of_authLog (listenerChange_applyForwardRequest _).authLog).trans
        (List.append_nil _).symm
  | frameworkConnect => exact calls_adbdAuthListener.trans (List.append_nil _).symm
  | frameworkRead response answered =>
      exact (calls_adbdAuthEvent response answered).trans (List.append_nil _).symm

/-- The history after a callback. -/
theorem authLog_step {l : Action × Oracle} (henabled : Enabled cfg st l.1) :
    ∃ events, (step cfg l.2 st l.1).authLog = st.authLog ++ events ∧
      events.filter isCall = (called l.1).toList := by
  obtain ⟨events, hevents⟩ := authLog_grows (authEffect_step henabled)
  refine ⟨events, hevents, ?_⟩
  have hcalls := @calls_step cfg l.2 st l.1
  rw [calls, hevents, List.filter_append] at hcalls
  exact List.append_cancel_left hcalls

end Calls

/-! ### The end of a connection -/

/-- `handle_offline` has run since the last packet of the transport was handled. -/
def OfflineLast (log : List AuthEvent) (t : TransportRef) : Prop :=
  ∃ earlier later, log = earlier ++ .wentOffline t :: later ∧ ∀ p, .received t p ∉ later

/-- The read thread's `write_packet` does not fail, and the main thread has read
every packet of the transport when it reads the removal. -/
def InOrder (t : TransportRef) (st : Process) : Label → Prop
  | .sendOnline t' ok | .readRemote t' _ ok | .sendOffline t' ok => t' = t → ok = true
  | .registration _ => st.registration.head? = some (.remove t) → (st.link t).toMain = []
  | _ => True

instance (t : TransportRef) (st : Process) : (l : Label) → Decidable (InOrder t st l)
  | .sendOnline _ _ | .readRemote _ _ _ | .sendOffline _ _ | .registration _ =>
      inferInstanceAs (Decidable (_ → _))
  | .callback _ _ | .packet _ _ | .announce _ _ _ | .readFails _ | .take _ _ | .takeFails _
  | .unref _ _ | .sendRemoval _ _ => inferInstanceAs (Decidable True)

/-- When the read thread has ended, its last message is the last one in the pair,
or the main thread has handled it. -/
def Settles (st : Process) (t : TransportRef) : Prop :=
  (st.link t).reader.ended = true →
    (∃ p ∈ (st.link t).toMain.getLast?, Apacket.isOffline p) ∨
      ((st.link t).toMain = [] ∧ Cleared st.server t ∧ OfflineLast st.server.authLog t)

section Ends

variable {cfg : Config} {st st' : Process} {l : Label} {t : TransportRef}

theorem offlineLast_step {server : Server} {l : Action × Oracle}
    (henabled : Enabled cfg server l.1) (hother : ∀ p, l.1 ≠ .packet t p)
    (h : OfflineLast server.authLog t) : OfflineLast (step cfg l.2 server l.1).authLog t := by
  obtain ⟨earlier, later, hlog, hlater⟩ := h
  obtain ⟨events, hevents, hcalls⟩ := authLog_step henabled
  refine ⟨earlier, later ++ events, ?_, ?_⟩
  · rw [hevents, hlog, List.append_assoc, List.cons_append]
  · intro p hp
    rcases List.mem_append.mp hp with hold | hnew
    · exact hlater p hold
    · have hmem : .received t p ∈ (called l.1).toList := hcalls ▸ List.mem_filter.mpr ⟨hnew, rfl⟩
      cases haction : l.1 with
      | packet t' p' =>
          rw [haction] at hmem
          cases List.mem_singleton.mp hmem
          exact hother p haction
      | _ =>
          rw [haction] at hmem
          simp [called] at hmem

theorem offlineLast_offline (env : Oracle) (server : Server) {p : Apacket}
    (hp : Apacket.isOffline p) : OfflineLast (step cfg env server (.packet t p)).authLog t := by
  refine ⟨server.authLog ++ [.received t p], [], ?_, nofun⟩
  simp only [step, handlePacket, hp.1, hp.2]
  exact handleOffline_authLog

theorem Settles.callback (h : Settles st t) (hsound : Sound cfg st)
    (hinstalled : (st.link t).installed = true) {action : Action} {env : Oracle}
    (henabled : Enabled cfg st.server action) (hother : ∀ p, action ≠ .packet t p)
    (hserver : st'.server = step cfg env st.server action) (hlink : st'.link t = st.link t) :
    Settles st' t := by
  have hheld := held_of_reachable hsound.server
  have hcreated := hheld.listed t ((hsound.balanced t).listed hinstalled)
  rw [Settles, hlink, hserver]
  intro hended
  refine (h hended).imp_right fun ⟨hempty, hcleared, hoffline⟩ => ⟨hempty, ?_, ?_⟩
  · exact cleared_step (l := (action, env)) (wellFormed_of_reachable hsound.server) hheld henabled
      hcreated hother hcleared
  · exact offlineLast_step (l := (action, env)) henabled hother hoffline

theorem Settles.packet (h : Settles st t) (hsound : Sound cfg st) {p : Apacket}
    {rest : List Apacket} {env : Oracle} (htoMain : (st.link t).toMain = p :: rest)
    (hserver : st'.server = step cfg env st.server (.packet t p))
    (hlink : st'.link t = { st.link t with toMain := rest }) : Settles st' t := by
  rw [Settles, hlink, hserver]
  intro hended
  obtain ⟨q, hq, hoffline⟩ | ⟨hempty, -⟩ := h hended
  · rw [htoMain] at hq
    cases rest with
    | nil =>
        obtain rfl : p = q := by simpa using hq
        exact .inr ⟨rfl, cleared_offline (settled_of_reachable hsound.server)
          (held_of_reachable hsound.server) env hoffline, offlineLast_offline env _ hoffline⟩
    | cons r rest =>
        rw [List.getLast?_cons_cons] at hq
        exact .inl ⟨q, hq, hoffline⟩
  · rw [htoMain] at hempty
    cases hempty

theorem Settles.frame (h : Settles st t) (hserver : st'.server = st.server)
    (hended : (st'.link t).reader.ended = (st.link t).reader.ended)
    (htoMain : (st'.link t).toMain = (st.link t).toMain) : Settles st' t := by
  rw [Settles, hended, htoMain, hserver]
  exact h

theorem settles_pump {l : Link} {p : Apacket} {phase : Phase}
    (hp : phase.ended = true → Apacket.isOffline p) :
    Settles (st.setLink t (pump l p phase true)) t := by
  rw [Settles, setLink_self]
  intro hended
  exact .inl ⟨p, List.getLast?_concat, hp hended⟩

/-- A thread's step on the transport, or on another one. -/
theorem settles_setLink (h : (st.link t).installed = true → Settles st t) {t' : TransportRef}
    {l : Link} (hsame : l.installed = (st.link t').installed)
    (hstep : t' = t → Settles st t → Settles (st.setLink t' l) t)
    (hinstalled : ((st.setLink t' l).link t).installed = true) : Settles (st.setLink t' l) t := by
  by_cases ht : t' = t
  · subst ht
    rw [setLink_self, hsame] at hinstalled
    exact hstep rfl (h hinstalled)
  · have hlink : (st.setLink t' l).link t = st.link t := setLink_other (Ne.symm ht) _
    rw [hlink] at hinstalled
    exact (h hinstalled).frame rfl (congrArg (fun l => l.reader.ended) hlink)
      (congrArg Link.toMain hlink)

theorem Settles.thread (h : Settles st t) {l : Link}
    (hended : l.reader.ended = (st.link t).reader.ended)
    (htoMain : l.toMain = (st.link t).toMain) : Settles (st.setLink t l) t :=
  h.frame rfl (by rw [setLink_self, hended]) (by rw [setLink_self, htoMain])

theorem settles_registration (h : (st.link t).installed = true → Settles st t)
    (hsound : Sound cfg st) {m : Message} {rest : List Message} {env : Oracle}
    (hst : st.registration = m :: rest)
    (hinstalled : ((registrationFunc cfg env { st with registration := rest } m).link t).installed =
      true) : Settles (registrationFunc cfg env { st with registration := rest } m) t := by
  have henabled := enabled_registration hsound hst
  have hother : ∀ {st' : Process}, st'.server = step cfg env st.server m.action →
      st'.link t = st.link t → (st'.link t).installed = true → Settles st' t := by
    intro st' hserver hlink hbefore
    rw [hlink] at hbefore
    exact (h hbefore).callback hsound hbefore henabled (by cases m <;> nofun) hserver hlink
  cases m with
  | register t' state type =>
      rw [registrationFunc_register] at hinstalled ⊢
      by_cases ht : t' = t
      · subst ht
        dsimp only at hinstalled
        split at hinstalled
        · exact absurd ((held_of_reachable hsound.server).listed t'
            ((hsound.balanced t').listed hinstalled)) henabled
        · rename_i hstate
          -- the threads have just been started
          simp only [Settles, if_neg hstate, Function.update_self]
          exact nofun
      · refine hother rfl ?_ hinstalled
        dsimp only
        split
        · rfl
        · exact Function.update_of_ne (Ne.symm ht) ..
  | remove t' =>
      by_cases ht : t' = t
      · subst ht
        have hlink : (registrationFunc cfg env { st with registration := rest }
            (.remove t')).link t' = { st.link t' with installed := false } :=
          Function.update_self ..
        rw [hlink] at hinstalled
        cases hinstalled
      · exact hother rfl (Function.update_of_ne (Ne.symm ht) ..) hinstalled

theorem writeRound_reader (l : Link) (p : Apacket) (ok : Bool) :
    (writeRound l p ok).reader = l.reader ∧ (writeRound l p ok).toMain = l.toMain := by
  unfold writeRound
  dsimp only
  repeat' split
  all_goals exact ⟨rfl, rfl⟩

theorem ended_setPhase {l : Link} {w : Thread} (hw : (l.phase w).ended = true) (phase : Phase)
    (hphase : phase.ended = true) : (l.setPhase w phase).reader.ended = l.reader.ended ∧
      (l.setPhase w phase).toMain = l.toMain := by
  cases w with
  | reader => exact ⟨hphase.trans hw.symm, rfl⟩
  | writer => exact ⟨rfl, rfl⟩

/-- Every step of a run in order. -/
theorem settles_next (h : (st.link t).installed = true → Settles st t) (hsound : Sound cfg st)
    (hstep : CanStep cfg st l) (hcondition : InOrder t st l)
    (hinstalled : ((next cfg st l).link t).installed = true) : Settles (next cfg st l) t := by
  cases l with
  | callback action env =>
      obtain ⟨-, hown, henabled⟩ := hstep
      refine (h hinstalled).callback hsound hinstalled henabled ?_ rfl rfl
      rintro p rfl
      cases hown
  | packet t' env =>
      simp only [next] at hinstalled ⊢
      split at hinstalled
      · exact h hinstalled
      · rename_i p rest htoMain
        by_cases ht : t' = t
        · subst ht
          exact (h hstep.2.1).packet hsound htoMain rfl (setLink_self _)
        · have hlink : (st.setLink t' { st.link t' with toMain := rest }).link t = st.link t :=
            setLink_other (Ne.symm ht) _
          have hbefore : (st.link t).installed = true := by
            rw [← hlink]
            exact hinstalled
          have henabled : Enabled cfg st.server (.packet t' p) :=
            (hsound.balanced t').listed hstep.2.1
          refine (h hbefore).callback hsound hbefore henabled ?_ rfl hlink
          rintro q heq
          cases heq
          exact ht rfl
  | registration env =>
      simp only [next] at hinstalled ⊢
      split at hinstalled
      · exact h hinstalled
      · rename_i hst
        exact settles_registration h hsound hst hinstalled
  | announce t' state type => exact (h hinstalled).frame rfl rfl rfl
  | sendOnline t' ok =>
      refine settles_setLink h (pump_installed ..) ?_ hinstalled
      rintro rfl -
      obtain rfl := hcondition rfl
      exact settles_pump fun hended => by cases hended
  | readRemote t' p ok =>
      simp only [next] at hinstalled ⊢
      split at hinstalled
      · rename_i hskipped
        rw [if_pos hskipped]
        exact h hinstalled
      · rename_i hpumped
        rw [if_neg hpumped]
        refine settles_setLink h (pump_installed ..) ?_ hinstalled
        rintro rfl -
        obtain rfl := hcondition rfl
        exact settles_pump fun hended => by cases hended
  | readFails t' =>
      refine settles_setLink h rfl ?_ hinstalled
      rintro rfl hsettles
      exact hsettles.thread (congrArg Phase.ended hstep).symm rfl
  | sendOffline t' ok =>
      refine settles_setLink h (pump_installed ..) ?_ hinstalled
      rintro rfl -
      obtain rfl := hcondition rfl
      exact settles_pump fun _ => ⟨rfl, rfl⟩
  | take t' ok =>
      simp only [next] at hinstalled ⊢
      split at hinstalled
      · exact h hinstalled
      · rename_i p _ _
        refine settles_setLink h (writeRound_installed ..) ?_ hinstalled
        rintro rfl hsettles
        obtain ⟨hreader, htoMain⟩ := writeRound_reader (st.link t') p ok
        exact hsettles.thread (congrArg Phase.ended hreader) htoMain
  | takeFails t' =>
      refine settles_setLink h rfl ?_ hinstalled
      rintro rfl hsettles
      exact hsettles.thread rfl rfl
  | unref t' w =>
      rw [next, transportUnref_of_leaving (hsound.balanced t') hstep] at hinstalled ⊢
      refine settles_setLink h (by simp) ?_ hinstalled
      rintro rfl hsettles
      have hended : (({ st.link t' with refCount := (st.link t').refCount - 1 } : Link).phase
          w).ended = true := by
        rw [Link.phase_refCount]
        exact congrArg Phase.ended hstep
      obtain ⟨hreader, htoMain⟩ := ended_setPhase hended
        (if (st.link t').refCount = 1 then .removing else .gone) (by split <;> rfl)
      exact hsettles.thread hreader htoMain
  | sendRemoval t' w =>
      have hgone : Settles (st.setLink t' ((st.link t').setPhase w .gone)) t := by
        refine settles_setLink h (by simp) ?_ hinstalled
        rintro rfl hsettles
        obtain ⟨hreader, htoMain⟩ := ended_setPhase (congrArg Phase.ended hstep) .gone rfl
        exact hsettles.thread hreader htoMain
      exact hgone.frame rfl rfl rfl

theorem settles_of_reachable (h : (threadSystem cfg).ReachableWhen (InOrder t) st) :
    Sound cfg st ∧ ((st.link t).installed = true → Settles st t) := by
  refine h.invariant (I := fun st => Sound cfg st ∧ ((st.link t).installed = true → Settles st t))
    ?_ ?_
  · rintro st rfl
    exact ⟨sound_of_reachable ⟨_, rfl, .refl⟩, nofun⟩
  · exact fun st l hst henabled hcondition =>
      ⟨sound_next hst.1 henabled, settles_next hst.2 hst.1 henabled hcondition⟩

/-! ### The deletion -/

/-- What is to hold when the main thread reads the removal of a transport. -/
structure Unreferenced (st : Process) (t : TransportRef) : Prop where
  dropped : (st.link t).reader = .gone ∧ (st.link t).writer = .gone ∧ (st.link t).refCount = 0
  offline : OfflineLast st.server.authLog t
  sockets : ∀ s ∈ st.server.sockets.localSocketList, ¬ Belongs st.server.sockets s t
  listeners : ∀ l ∈ st.server.listeners, l.transport ≠ some t

theorem count_deleted {action : Action} {env : Oracle} {server : Server}
    (henabled : Enabled cfg server action) :
    (step cfg env server action).authLog.count (.deleted t) =
      server.authLog.count (.deleted t) + (called action).toList.count (.deleted t) := by
  obtain ⟨events, hevents, hcalls⟩ := authLog_step (l := (action, env)) henabled
  rw [hevents, List.count_append, ← hcalls, List.count_filter rfl]

/-- A step of the process is a thread's or a callback, and a transport is removed
when the registration socket says so. -/
theorem server_next (hsound : Sound cfg st) (hstep : CanStep cfg st l) :
    (next cfg st l).server = st.server ∨ ∃ action env, Enabled cfg st.server action ∧
      (next cfg st l).server = step cfg env st.server action ∧
        ∀ t, action = .remove t → .remove t ∈ st.registration := by
  cases l with
  | callback action env =>
      obtain ⟨-, hown, henabled⟩ := hstep
      refine .inr ⟨action, env, henabled, rfl, ?_⟩
      rintro t rfl
      cases hown
  | packet t' env =>
      simp only [next]
      split
      · exact .inl rfl
      · rename_i p rest _
        exact .inr ⟨.packet t' p, env, (hsound.balanced t').listed hstep.2.1, rfl,
          fun _ heq => by cases heq⟩
  | registration env =>
      simp only [next]
      split
      · exact .inl rfl
      · rename_i m rest hst
        refine .inr ⟨m.action, env, enabled_registration hsound hst, ?_, ?_⟩
        · cases m with
          | register t' state type => rw [registrationFunc_register]; rfl
          | remove t' => rfl
        · intro t heq
          cases m with
          | register t' state type => cases heq
          | remove t' =>
              cases heq
              rw [hst]
              exact List.mem_cons_self
  | readRemote t' p ok =>
      simp only [next]
      split <;> exact .inl rfl
  | take t' ok =>
      simp only [next]
      split <;> exact .inl rfl
  | unref t' w =>
      rw [next, transportUnref_of_leaving (hsound.balanced t') hstep]
      exact .inl rfl
  | announce | sendOnline | readFails | sendOffline | takeFails | sendRemoval => exact .inl rfl

/-- A transport that is deleted is not deleted again. -/
theorem deleted_once_next (hsound : Sound cfg st) (hstep : CanStep cfg st l)
    (h : st.server.authLog.count (.deleted t) = 1) :
    (next cfg st l).server.authLog.count (.deleted t) = 1 := by
  rcases server_next hsound hstep with hsame | ⟨action, env, henabled, hserver, hremove⟩
  · rw [hsame, h]
  · rw [hserver, count_deleted henabled, h]
    have hnone : .deleted t ∉ (called action).toList := by
      intro hmem
      cases action with
      | remove t' =>
          cases List.mem_singleton.mp hmem
          have hdeleted : .deleted t ∈ st.server.authLog := List.count_pos_iff.mp (by omega)
          exact (exclusive_of_sound hsound (hremove t rfl)).kept hdeleted
      | packet | register => cases List.mem_singleton.mp hmem
      | _ => cases hmem
    rw [List.count_eq_zero_of_not_mem hnone]

/-- When the main thread reads the packets of a transport before its removal, nothing
refers to the transport that is deleted, and it is deleted once. -/
theorem deletion_in_order {env : Oracle} (h : (threadSystem cfg).ReachableWhen (InOrder t) st)
    (hstep : CanStep cfg st (.registration env)) (hcondition : InOrder t st (.registration env))
    (hdeletes : st.registration.head? = some (.remove t)) :
    Unreferenced st t ∧
      ∀ st', (threadSystem cfg).ReachableFrom (fun _ _ => True)
          (next cfg st (.registration env)) st' →
        st'.server.authLog.count (.deleted t) = 1 := by
  obtain ⟨hsound, hsettles⟩ := settles_of_reachable h
  obtain ⟨rest, hst⟩ := List.head?_eq_some_iff.mp hdeletes
  have hremove : .remove t ∈ st.registration := hst ▸ List.mem_cons_self
  have hexclusive := exclusive_of_sound hsound hremove
  have hinstalled : (st.link t).installed = true := by
    have hmail : .remove t ∈ mail st.registration t :=
      List.mem_filter.mpr ⟨hremove, by simp [Message.transport]⟩
    have hpos := List.count_pos_iff.mpr hmail
    exact ((hsound.balanced t).counted.of_removes (by omega)).1
  have hended : (st.link t).reader.ended = true := congrArg Phase.ended hexclusive.ended.1
  refine ⟨?_, ?_⟩
  · obtain ⟨p, hp, -⟩ | ⟨-, hcleared, hoffline⟩ := hsettles hinstalled hended
    · rw [hcondition hdeletes] at hp
      cases hp
    · exact ⟨hexclusive.ended, hoffline, hcleared.sockets, hcleared.held.listeners⟩
  · have hdeleted : (next cfg st (.registration env)).server.authLog.count (.deleted t) = 1 := by
      have hserver : (next cfg st (.registration env)).server =
          step cfg env st.server (.remove t) := by
        simp only [next, hst]
        rfl
      have henabled : Enabled cfg st.server (.remove t) := hexclusive.listed
      rw [hserver, count_deleted henabled, List.count_eq_zero_of_not_mem hexclusive.kept, called]
      simp
    intro st' hrun
    have hboth := hrun.preserves
      (I := fun st => Sound cfg st ∧ st.server.authLog.count (.deleted t) = 1)
      ⟨sound_next hsound hstep, hdeleted⟩
      fun st l hst henabled _ => ⟨sound_next hst.1 henabled, deleted_once_next hst.1 henabled hst.2⟩
    exact hboth.2

end Ends

/-- A `Write` fails, and the main thread hears of it by the SYNC message first. -/
def endsInOrder : List Label :=
  [.take 0 true, .take 0 false, .unref 0 .writer, .readFails 0, .sendOffline 0 true, .packet 0 {},
    .unref 0 .reader, .sendRemoval 0 .reader]

def inOrder : Process :=
  (threadSystem (plainConfig false false)).execute .initial (opensStream ++ endsInOrder)

theorem deletion_in_order_writeFails :
    inOrder.registration.head? = some (.remove 0) ∧ Unreferenced inOrder 0 ∧
      ∀ st', (threadSystem (plainConfig false false)).ReachableFrom (fun _ _ => True)
          (next (plainConfig false false) inOrder (.registration {})) st' →
        st'.server.authLog.count (.deleted 0) = 1 := by
  have hreachable : (threadSystem (plainConfig false false)).ReachableWhen (InOrder 0) inOrder :=
    System.reachableWhen_execute ⟨.initial, rfl, .refl⟩ (by decide)
  have hdeletes : inOrder.registration.head? = some (.remove 0) := by decide
  exact ⟨hdeletes, deletion_in_order hreachable (by decide) (by decide) hdeletes⟩

/-- The same end, but the main thread reads the registration socket first. -/
def endsUnread : List Label :=
  [.take 0 true, .take 0 false, .unref 0 .writer, .readFails 0, .sendOffline 0 true,
    .unref 0 .reader, .sendRemoval 0 .reader]

def unread : Process :=
  (threadSystem (plainConfig false false)).execute .initial (opensStream ++ endsUnread)

/-- A socket refers to the transport that is deleted, and `handle_offline` has not run. -/
theorem deleted_while_referenced :
    (threadSystem (plainConfig false false)).Reachable unread ∧
      CanStep (plainConfig false false) unread (.registration {}) ∧
      unread.registration.head? = some (.remove 0) ∧
      0 ∈ unread.server.sockets.localSocketList ∧ Belongs unread.server.sockets 0 0 ∧
      .wentOffline 0 ∉ unread.server.authLog ∧ ¬ Unreferenced unread 0 := by
  have hlisted : 0 ∈ unread.server.sockets.localSocketList := by decide
  have hbelongs : Belongs unread.server.sockets 0 0 := by decide
  exact ⟨System.reachableWhen_execute ⟨.initial, rfl, .refl⟩ (by decide), by decide, by decide,
    hlisted, hbelongs, by decide, fun h => h.sockets 0 hlisted hbelongs⟩

end Adb.TransportDeletion
