import Adb.AuthGate

/-!
The public keys that adbd shows to the framework, and the transports that the
framework's answers bring online.
-/

namespace Adb.KeyConfirmation

open Adb.DescriptorIo
open Adb.WirePackets
open Adb.SocketTable
open Adb.ServerState
open Adb.ServerRuns
open Adb.ServerEffects
open Adb.AuthEffects
open Adb.AuthGate
open Adb.TransitionSystems
open Adb.Histories

/-- A transport is brought online only by an `OK` that answers one of its own
keys. -/
def KeysBound (log : List AuthEvent) : Prop :=
  ∀ before t after, log = before ++ .verified t .framework :: after →
    ∃ earlier key, before = earlier ++ [.frameworkOk (some t) (some (t, key))]

/-- `adbd_auth_confirm_key` writes the key to the framework. -/
def Forwarded (env : Oracle) (st : Server) (key : Bytes) : Prop :=
  st.frameworkConnected = true ∧ key.getLast? = some 0 ∧
    (ascii "PK" ++ cString key).length < maxPayloadV1 ∧ env.replyWritten = true

instance (env : Oracle) (st : Server) (key : Bytes) : Decidable (Forwarded env st key) :=
  inferInstanceAs (Decidable (_ ∧ _))

/-- The framework answers the keys that it was shown, in order and each at most
once. -/
def Answers (st : Server) : Action → Prop
  | .frameworkRead response answered =>
      response = ascii "OK" → answered < st.unanswered.length
  | _ => True

/-- A key arrives while no other transport waits for an answer. -/
def OneAtATime (env : Oracle) (st : Server) : Action → Prop
  | .packet t p => p.command = .aAuth → p.arg0 = adbAuthRsaPublicKey →
      match st.usbTransport with
      | some usb => usb = t ∨ ¬ Forwarded env st p.data
      | none => ∀ m ∈ st.unanswered, m.1 = t
  | _ => True

instance (st : Server) : (action : Action) → Decidable (Answers st action)
  | .frameworkRead response answered =>
      inferInstanceAs (Decidable (response = ascii "OK" → answered < st.unanswered.length))
  | .packet _ _ | .poll _ _ | .dispatch _ | .subprocExited _ _ | .accept _ | .acceptSmart
  | .jdwpUpdated | .register _ _ _ | .remove _ | .reverseRequest _ | .frameworkConnect =>
      inferInstanceAs (Decidable True)

instance (env : Oracle) (st : Server) : (action : Action) → Decidable (OneAtATime env st action)
  | .packet t p =>
      have : Decidable (match st.usbTransport with
          | some usb => usb = t ∨ ¬ Forwarded env st p.data
          | none => ∀ m ∈ st.unanswered, m.1 = t) :=
        match st.usbTransport with
        | some usb => inferInstanceAs (Decidable (usb = t ∨ ¬ Forwarded env st p.data))
        | none => inferInstanceAs (Decidable (∀ m ∈ st.unanswered, m.1 = t))
      inferInstanceAs (Decidable (p.command = .aAuth → p.arg0 = adbAuthRsaPublicKey → _))
  | .frameworkRead _ _ | .poll _ _ | .dispatch _ | .subprocExited _ _ | .accept _ | .acceptSmart
  | .jdwpUpdated | .register _ _ _ | .remove _ | .reverseRequest _ | .frameworkConnect =>
      inferInstanceAs (Decidable True)

/-- `usb_transport` owns every key that may still be answered. -/
structure Bound (st : Server) : Prop where
  owner : ∀ usb, st.usbTransport = some usb → ∀ m ∈ st.unanswered, m.1 = usb
  answers : ∀ usb answered, .frameworkOk (some usb) answered ∈ st.authLog →
    ∃ key, answered = some (usb, key)
  bound : KeysBound st.authLog

section Steps

variable {cfg : Config} {env : Oracle} {st st' : Server} {t : TransportRef}

theorem Bound.step {events : List AuthEvent} (h : Bound st)
    (howner : ∀ usb, st'.usbTransport = some usb → ∀ m ∈ st'.unanswered, m.1 = usb)
    (hlog : st'.authLog = st.authLog ++ events)
    (hanswers : ∀ usb answered, .frameworkOk (some usb) answered ∉ events)
    (hverified : ∀ t, .verified t .framework ∉ events) : Bound st' := by
  refine ⟨howner, ?_, ?_⟩
  · intro usb answered hmem
    rw [hlog] at hmem
    rcases List.mem_append.mp hmem with hmem | hmem
    · exact h.answers usb answered hmem
    · exact absurd hmem (hanswers usb answered)
  · intro before t after hsplit
    rw [hlog] at hsplit
    rcases split_append hsplit with ⟨middle, hold, -⟩ | ⟨middle, hnew, -⟩
    · exact h.bound before t middle hold
    · exact absurd (by simp [hnew]) (hverified t)

theorem Bound.keeps {events : List AuthEvent} (h : Bound st)
    (husb : st'.usbTransport = st.usbTransport) (hunanswered : st'.unanswered = st.unanswered)
    (hlog : st'.authLog = st.authLog ++ events)
    (hanswers : ∀ usb answered, .frameworkOk (some usb) answered ∉ events)
    (hverified : ∀ t, .verified t .framework ∉ events) : Bound st' := by
  refine h.step ?_ hlog hanswers hverified
  rw [husb, hunanswered]
  exact h.owner

theorem Bound.sendAuthRequest (h : Bound st) : Bound (sendAuthRequest env st t) := by
  unfold ServerState.sendAuthRequest
  split
  · exact h.keeps rfl rfl rfl (by simp) (by simp)
  · rename_i token _
    exact h.keeps rfl rfl rfl (by simp) (by simp)

theorem Bound.verified (h : Bound st) {cause : AuthCause}
    (hcaused : CausedBy cfg t st.authLog cause) :
    Bound (handleOnline (st.log (.verified t cause)) t) := by
  cases cause with
  | signature token signature =>
      exact h.keeps rfl rfl rfl
        (by simp) (by simp)
  | framework =>
      obtain ⟨earlier, answered, hlog⟩ := hcaused
      obtain ⟨key, rfl⟩ := h.answers t answered (by simp [hlog])
      refine ⟨h.owner, ?_, ?_⟩
      · intro usb answered hmem
        refine h.answers usb answered ?_
        simpa [handleOnline, Server.modifyTransport, Server.log] using hmem
      · intro before t' after hsplit
        rcases @split_append _ st.authLog _ _ _ _ hsplit with ⟨middle, hold, -⟩ | ⟨middle, hnew, hbefore⟩
        · exact h.bound before t' middle hold
        · cases middle with
          | nil =>
              obtain ⟨rfl, -⟩ : t = t' ∧ [] = after := by simpa using hnew
              exact ⟨earlier, key, by rw [hbefore, List.append_nil, hlog]⟩
          | cons e middle => simp at hnew

theorem Bound.effect (heffect : AuthEffect cfg false st st') (h : Bound st) : Bound st' := by
  generalize htalks : false = talks at heffect
  induction heffect with
  | same hsame =>
      exact h.keeps hsame.usbTransport hsame.unanswered
        (hsame.authLog.trans (List.append_nil _).symm) (by simp) (by simp)
  | received t p =>
      exact h.keeps rfl rfl rfl (by simp) (by simp)
  | @acted st t p _ => exact h.keeps rfl rfl rfl (by simp) (by simp)
  | online => exact h.keeps rfl rfl (List.append_nil _).symm (by simp) (by simp)
  | @offline st t =>
      refine h.step ?_ handleOffline_authLog (by simp) (by simp)
      intro usb husb
      rw [handleOffline_usbTransport] at husb
      rw [handleOffline_unanswered]
      split at husb
      · simp at husb
      · exact h.owner usb husb
  | challenge env t => exact h.sendAuthRequest
  | verify hcaused _ => exact h.verified hcaused
  | confirm _ _ _ hconfirm => simp [← htalks] at hconfirm
  | answer _ hanswer => simp [← htalks] at hanswer
  | framework connected =>
      exact h.step (by simp) (List.append_nil _).symm (by simp) (by simp)
  | @register st t _ _ _ =>
      exact h.keeps rfl rfl rfl (by simp) (by simp)
  | delete t => exact h.keeps rfl rfl rfl (by simp) (by simp)
  | trans _ _ ih₁ ih₂ => exact ih₂ (ih₁ h)

theorem adbdAuthConfirmKey_usbTransport (key : Bytes) :
    (adbdAuthConfirmKey env st t key).usbTransport = some (st.usbTransport.getD t) := by
  unfold adbdAuthConfirmKey
  cases husb : st.usbTransport with
  | none =>
      simp only [Option.isNone_none, if_true]
      split
      · rfl
      · split
        · rfl
        · split <;> rfl
  | some usb =>
      simp only [Option.isNone_some, Bool.false_eq_true, if_false]
      split
      · exact husb
      · split
        · exact husb
        · split <;> exact husb

theorem adbdAuthConfirmKey_unanswered (key : Bytes) :
    (adbdAuthConfirmKey env st t key).unanswered =
      if Forwarded env st key then st.unanswered ++ [(t, cString key)] else st.unanswered := by
  have hconnected : ∀ st' : Server, st'.frameworkConnected = st.frameworkConnected →
      st'.unanswered = st.unanswered →
      (if !st'.frameworkConnected then { st' with needsRetry := true }
      else if key.getLast? ≠ some 0 then st'
      else if (ascii "PK" ++ cString key).length ≥ maxPayloadV1 ∨ !env.replyWritten then st'
      else { st' with unanswered := st'.unanswered ++ [(t, cString key)] }.log
        (.keySent t (cString key))).unanswered =
      if Forwarded env st key then st.unanswered ++ [(t, cString key)] else st.unanswered := by
    intro st' hsame hunanswered
    rw [hsame]
    by_cases hforwarded : Forwarded env st key
    · obtain ⟨hconnected, hkey, hlength, hwritten⟩ := id hforwarded
      rw [if_pos hforwarded, if_neg (by simp [hconnected]), if_neg (by simp [hkey]),
        if_neg (by simpa [hwritten] using hlength), ← hunanswered]
      rfl
    · rw [if_neg hforwarded]
      split
      · exact hunanswered
      · split
        · exact hunanswered
        · split
          · exact hunanswered
          · rename_i hconnected hkey hsent
            simp only [not_or, Nat.not_le] at hsent
            exact absurd ⟨by simpa using hconnected, by simpa using hkey, by simpa using hsent.1,
              by simpa using hsent.2⟩ hforwarded
  unfold adbdAuthConfirmKey
  dsimp only
  split
  · exact hconnected _ rfl rfl
  · exact hconnected _ rfl rfl

theorem Bound.confirm (h : Bound st) {key : Bytes}
    (hone : match st.usbTransport with
      | some usb => usb = t ∨ ¬ Forwarded env st key
      | none => ∀ m ∈ st.unanswered, m.1 = t) : Bound (adbdAuthConfirmKey env st t key) := by
  have howner : ∀ usb, (adbdAuthConfirmKey env st t key).usbTransport = some usb →
      ∀ m ∈ (adbdAuthConfirmKey env st t key).unanswered, m.1 = usb := by
    intro usb husb m hm
    rw [adbdAuthConfirmKey_usbTransport, Option.some.injEq] at husb
    rw [adbdAuthConfirmKey_unanswered] at hm
    cases hold : st.usbTransport with
    | none =>
        simp only [hold] at hone
        obtain rfl : t = usb := by simpa [hold] using husb
        split at hm
        · rcases List.mem_append.mp hm with hm | hm
          · exact hone m hm
          · rw [List.mem_singleton.mp hm]
        · exact hone m hm
    | some usb' =>
        simp only [hold] at hone
        obtain rfl : usb' = usb := by simpa [hold] using husb
        split at hm
        · rename_i hforwarded
          rcases List.mem_append.mp hm with hm | hm
          · exact h.owner usb' hold m hm
          · rw [List.mem_singleton.mp hm]
            exact (hone.resolve_right fun hnot => hnot hforwarded).symm
        · exact h.owner usb' hold m hm
  rcases adbdAuthConfirmKey_log key with hlog | hlog
  · exact h.step howner (hlog.trans (List.append_nil _).symm) (by simp) (by simp)
  · exact h.step howner hlog (by simp) (by simp)

theorem Bound.answer (h : Bound st) {answered : Nat} (hanswered : answered < st.unanswered.length) :
    Bound ({ st with unanswered := st.unanswered.drop (answered + 1) }.log
      (.frameworkOk st.usbTransport st.unanswered[answered]?)) := by
  refine ⟨fun usb husb m hm => h.owner usb husb m (List.mem_of_mem_drop hm), ?_, ?_⟩
  · intro usb answered' hmem
    rcases List.mem_append.mp hmem with hmem | hmem
    · exact h.answers usb answered' hmem
    · obtain ⟨husb, rfl⟩ : some usb = st.usbTransport ∧
          answered' = st.unanswered[answered]? := by simpa using hmem
      have howner := h.owner usb husb.symm st.unanswered[answered] (List.getElem_mem hanswered)
      refine ⟨st.unanswered[answered].2, ?_⟩
      rw [List.getElem?_eq_getElem hanswered, ← howner]
  · intro before t' after hsplit
    rcases @split_append _ st.authLog _ _ _ _ hsplit with ⟨middle, hold, -⟩ | ⟨middle, hnew, -⟩
    · exact h.bound before t' middle hold
    · cases middle with
      | nil => simp at hnew
      | cons e middle => simp at hnew

theorem Bound.adbdAuthEvent (h : Bound st) {response : Bytes} {answered : Nat}
    (hanswers : response = ascii "OK" → answered < st.unanswered.length) :
    Bound (adbdAuthEvent cfg st response answered) := by
  unfold ServerState.adbdAuthEvent
  split
  · have hclosed : AuthEffect cfg false st
        { st with frameworkConnected := false, unanswered := [] } := .framework false
    exact h.effect hclosed
  · split
    · rename_i hok
      have hanswered := h.answer (hanswers hok)
      dsimp only
      split
      · rename_i t' husb
        have husb' : st.usbTransport = some t' := husb
        have hcaused : CausedBy cfg t' ({ st with
            unanswered := st.unanswered.drop (answered + 1) }.log
              (.frameworkOk st.usbTransport st.unanswered[answered]?)).authLog .framework :=
          ⟨st.authLog, st.unanswered[answered]?, by rw [← husb']; rfl⟩
        exact (hanswered.verified hcaused).effect authEffect_sendConnect
      · exact hanswered
    · exact h

theorem Bound.action (h : Bound st) {l : Action × Oracle} (henabled : Enabled cfg st l.1)
    (hanswers : Answers st l.1) (hone : OneAtATime l.2 st l.1) :
    Bound (ServerRuns.step cfg l.2 st l.1) := by
  cases htalks : talksToFramework l.1 with
  | false => exact h.effect (htalks ▸ authEffect_step henabled)
  | true =>
      obtain ⟨action, env⟩ := l
      have heffect : AuthEffect cfg false st { st with sockets := scripted env st } :=
        authEffect_sockets _
      cases action with
      | packet t p =>
          obtain ⟨hcommand, hkey⟩ : p.command = .aAuth ∧ p.arg0 = adbAuthRsaPublicKey := by
            simpa [talksToFramework] using htalks
          have hreceived : AuthEffect cfg false st ({ st with
              sockets := (scripted env st).record (.received t p) }.log (.received t p)) :=
            (authEffect_sockets _).trans (.received t p)
          simp only [ServerRuns.step, handlePacket, hcommand, handleAuth]
          split
          · rename_i hhost
            simp [hkey, adbAuthToken, adbAuthRsaPublicKey] at hhost
          · split
            · rename_i hsignature
              simp [hkey, adbAuthSignature, adbAuthRsaPublicKey] at hsignature
            · split
              · exact (h.effect hreceived).confirm (hone hcommand hkey)
              · exact h.effect (hreceived.trans authEffect_goOffline)
      | frameworkRead response answered => exact (h.effect heffect).adbdAuthEvent hanswers
      | _ => simp [talksToFramework] at htalks

end Steps

/-- In a run in which keys arrive one transport at a time, an `OK` brings online
the transport whose key it answers. -/
theorem keysBound_of_oneAtATime (cfg : Config) {st : Server}
    (h : (serverSystem cfg).ReachableWhen
      (fun st l => Answers st l.1 ∧ OneAtATime l.2 st l.1) st) : KeysBound st.authLog := by
  refine (h.invariant (I := Bound) ?_ ?_).bound
  · rintro st rfl
    exact ⟨by simp [Server.initial], by simp [Server.initial],
      by simp [KeysBound, Server.initial]⟩
  · intro st l hinv henabled hcondition
    exact hinv.action henabled.2 hcondition.1 hcondition.2

def keyPacket (key : Bytes) : Apacket :=
  { command := .aAuth, arg0 := adbAuthRsaPublicKey, arg1 := 0, data := key }

/-- A key is shown to the framework, and the framework says `OK`. -/
def confirmOne : List (Action × Oracle) :=
  [(.frameworkConnect, {}), (.register 0 .offline .usb, {}), (.packet 0 (keyPacket [97, 0]), {}),
    (.frameworkRead (ascii "OK") 0, {})]

/-- Two transports show their keys, and the framework says `OK` to the second one. -/
def confirmSecond : List (Action × Oracle) :=
  [(.frameworkConnect, {}), (.register 0 .offline .usb, {}), (.register 1 .offline .usb, {}),
    (.packet 0 (keyPacket [97, 0]), {}), (.packet 1 (keyPacket [98, 0]), {}),
    (.frameworkRead (ascii "OK") 1, {})]

theorem keysBound_confirmOne :
    (serverSystem (plainConfig false true)).Executable
        (fun st l => Answers st l.1 ∧ OneAtATime l.2 st l.1) .initial confirmOne ∧
      .verified 0 .framework ∈
        ((serverSystem (plainConfig false true)).execute .initial confirmOne).authLog ∧
      KeysBound ((serverSystem (plainConfig false true)).execute .initial confirmOne).authLog := by
  have hrun : (serverSystem (plainConfig false true)).Executable
      (fun st l => Answers st l.1 ∧ OneAtATime l.2 st l.1) .initial confirmOne := by decide
  refine ⟨hrun, by decide, keysBound_of_oneAtATime (plainConfig false true) ?_⟩
  exact System.reachableWhen_execute ⟨.initial, rfl, .refl⟩ hrun

/-- The `OK` for the key of the second transport brings the first one online. -/
theorem keysBound_fails_confirmSecond :
    (serverSystem (plainConfig false true)).Executable (fun st l => Answers st l.1) .initial
        confirmSecond ∧
      .frameworkOk (some 0) (some (1, [98])) ∈
        ((serverSystem (plainConfig false true)).execute .initial confirmSecond).authLog ∧
      (((serverSystem (plainConfig false true)).execute .initial confirmSecond).transports
        0).online = true ∧
      ¬ KeysBound
        ((serverSystem (plainConfig false true)).execute .initial confirmSecond).authLog := by
  refine ⟨by decide, by decide, by decide, fun h => ?_⟩
  have hlog : ((serverSystem (plainConfig false true)).execute .initial confirmSecond).authLog =
      [.created 0, .created 1, .received 0 (keyPacket [97, 0]), .keySent 0 [97],
        .received 1 (keyPacket [98, 0]), .keySent 1 [98], .frameworkOk (some 0) (some (1, [98]))] ++
        .verified 0 .framework :: [] := by decide
  obtain ⟨earlier, key, hbefore⟩ := h _ 0 _ hlog
  have hlast := congrArg List.getLast? hbefore
  simp at hlast

end Adb.KeyConfirmation
