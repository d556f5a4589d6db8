import Adb.KeyPasses
import Adb.AuthEffects

/-!
The exchange of tokens and answers between a host and a device that requires
authentication, up to the verdict.
-/

namespace Adb.AuthHandshake

open Adb.DescriptorIo
open Adb.WirePackets
open Adb.SocketTable
open Adb.ServerState
open Adb.AuthEffects
open Adb.KeyPasses

variable {F K : Type} [LinearOrder F] {hashKey : K → F}

/-- The tokens among some packets. -/
def tokens (packets : List Apacket) : List Bytes :=
  packets.filterMap fun p =>
    if p.command = .aAuth ∧ p.arg0 = adbAuthToken then some p.data else none

/-- The host answers a token, the device takes the answer, and so on as long as
the device sends a new token.  Each answer has its callback's environment. -/
def exchange (cfg : Config) (sign : K → Bytes → Bytes) (userKey : Bytes) (t : TransportRef) :
    List Oracle → Server → Host hashKey → Bytes → Server × Host hashKey
  | [], device, host, _ => (device, host)
  | env :: envs, device, host, token =>
      let (response, host) := sendAuthResponse sign userKey host token
      match response with
      | none => (device, host)
      | some p =>
          let device' := handlePacket cfg env device t p
          let sent := (device'.sockets.outbox t).drop (device.sockets.outbox t).length
          match tokens sent with
          | [] => (device', host)
          | next :: _ => exchange cfg sign userKey t envs device' host next

section Device

variable {cfg : Config} (env : Oracle) (device : Server) (t : TransportRef) {p : Apacket}

/-- What an answer leaves of the device: what it sends, and what it notes. -/
structure Leaves (t : TransportRef) (device device' : Server) (sent : List Apacket)
    (events : List AuthEvent) : Prop where
  outbox_eq : device'.sockets.outbox t = device.sockets.outbox t ++ sent
  log_eq : device'.authLog = device.authLog ++ events

theorem accepted_signature (hhost : cfg.host = false) (hcommand : p.command = .aAuth)
    (harg : p.arg0 = adbAuthSignature)
    (hverify : cfg.adbdAuthVerify (device.transports t).token p.data = true) :
    (∃ banner, Leaves t device (handlePacket cfg env device t p)
      [{ command := .aCnxn, arg0 := intToWord (device.transports t).protocolVersion,
         arg1 := (device.transports t).maxPayload, data := banner }]
      [.received t p, .verified t (.signature (device.transports t).token p.data)]) ∧
    ((handlePacket cfg env device t p).transports t).online = true := by
  have htoken : ¬((2 : Nat) = 1) := by decide
  refine ⟨⟨cfg.connectionString, ?_, ?_⟩, ?_⟩ <;>
    simp [handlePacket, hcommand, handleAuth, hhost, harg, adbAuthToken, adbAuthSignature,
      Server.log, hverify, adbdAuthVerified, sendConnect, handleOnline,
      Server.modifyTransport, Server.send, Sockets.sendPacket, Sockets.record]

theorem rejected_signature (hhost : cfg.host = false) (hcommand : p.command = .aAuth)
    (harg : p.arg0 = adbAuthSignature)
    (hverify : cfg.adbdAuthVerify (device.transports t).token p.data = false)
    {token : Bytes} (htoken : env.token = .generated token) :
    Leaves t device (handlePacket cfg env device t p)
      [{ command := .aAuth, arg0 := adbAuthToken, arg1 := 0, data := token }]
      [.received t p, .challenged t token] ∧
    ((handlePacket cfg env device t p).transports t).token = token ∧
    ((handlePacket cfg env device t p).transports t).online = (device.transports t).online := by
  refine ⟨⟨?_, ?_⟩, ?_, ?_⟩ <;>
    simp [handlePacket, hcommand, handleAuth, hhost, harg, adbAuthToken, adbAuthSignature,
      Server.log, hverify, sendAuthRequest, htoken, Server.modifyTransport, Server.send,
      Sockets.sendPacket, Sockets.record]

theorem adbdAuthConfirmKey_sockets (key : Bytes) :
    (adbdAuthConfirmKey env device t key).sockets = device.sockets := by
  unfold adbdAuthConfirmKey
  cases husb : device.usbTransport.isNone <;> simp only [Bool.false_eq_true, if_true, if_false]
  all_goals
    split
    · rfl
    · split
      · rfl
      · split <;> rfl

theorem public_key (hhost : cfg.host = false) (hcommand : p.command = .aAuth)
    (harg : p.arg0 = adbAuthRsaPublicKey) :
    (∃ events, (events = [] ∨ events = [.keySent t (cString p.data)]) ∧
      Leaves t device (handlePacket cfg env device t p) [] (.received t p :: events)) ∧
    ((handlePacket cfg env device t p).transports t).online = (device.transports t).online := by
  let asked := { device with sockets := device.sockets.record (.received t p) }.log (.received t p)
  have hauth : handlePacket cfg env device t p = adbdAuthConfirmKey env asked t p.data := by
    simp [handlePacket, hcommand, handleAuth, hhost, harg, adbAuthToken, adbAuthSignature,
      adbAuthRsaPublicKey, asked]
  rw [hauth]
  constructor
  · have hlog : (adbdAuthConfirmKey env asked t p.data).authLog = asked.authLog ∨
        (adbdAuthConfirmKey env asked t p.data).authLog =
          asked.authLog ++ [.keySent t (cString p.data)] := adbdAuthConfirmKey_log p.data
    rcases hlog with hlog | hlog
    · refine ⟨[], Or.inl rfl, ?_, ?_⟩
      · rw [adbdAuthConfirmKey_sockets, List.append_nil]
        rfl
      · rw [hlog]
        rfl
    · refine ⟨_, Or.inr rfl, ?_, ?_⟩
      · rw [adbdAuthConfirmKey_sockets, List.append_nil]
        rfl
      · rw [hlog]
        simp [Server.log, asked]
  · have hkept : { (adbdAuthConfirmKey env asked t p.data).transports t with disconnects := [] } =
        { asked.transports t with disconnects := [] } := adbdAuthConfirmKey_transports p.data t
    have honline := congrArg Atransport.online hkept
    exact honline

end Device

/-- The verdicts on a transport in a part of the history. -/
def verdicts (t : TransportRef) (events : List AuthEvent) : List AuthCause :=
  events.filterMap fun
    | .verified t' cause => if t' = t then some cause else none
    | _ => none

/-- The answers that a transport brought, in a part of the history. -/
def answers (t : TransportRef) (events : List AuthEvent) : List Apacket :=
  events.filterMap fun
    | .received t' p => if t' = t then some p else none
    | _ => none

/-- The host's keys were refused one after the other up to `key`, and then the
device came online. -/
structure Accepted (sign : K → Bytes → Bytes) (t : TransportRef) (trusted : K → Bool)
    (keys : List K) (device' : Server) (taken : List (Option K)) (events : List AuthEvent) :
    Prop where
  online : (device'.transports t).online = true
  accepted : ∃ before key after token, keys = before ++ key :: after ∧
    (∀ refused ∈ before, trusted refused = false) ∧ trusted key = true ∧
    taken = (before ++ [key]).map some ∧
    verdicts t events = [.signature token (sign key token)] ∧
    (answers t events).map Apacket.arg0 =
      List.replicate (before.length + 1) adbAuthSignature

/-- Every key was refused, and the public key is the last answer. -/
structure Refused (userKey : Bytes) (t : TransportRef) (trusted : K → Bool)
    (keys : List K) (device device' : Server) (taken : List (Option K))
    (events : List AuthEvent) : Prop where
  online_eq : (device'.transports t).online = (device.transports t).online
  refused : ∀ key ∈ keys, trusted key = false
  taken_eq : taken = keys.map some ++ [none]
  verdicts_eq : verdicts t events = []
  answers_eq : ∃ signatures, answers t events = signatures ++ (sendAuthPublicKey userKey).toList ∧
    signatures.map Apacket.arg0 = List.replicate keys.length adbAuthSignature

section Outcomes

variable {sign : K → Bytes → Bytes} {t : TransportRef} {trusted : K → Bool} {key : K}
  {keys : List K} {device device' result : Server} {p : Apacket} {token : Bytes}
  {taken : List (Option K)} {events : List AuthEvent}

/-- One more key was refused in front of the others. -/
theorem Accepted.cons (h : Accepted sign t trusted keys result taken events)
    (hrefused : trusted key = false) (hp : p.arg0 = adbAuthSignature) :
    Accepted sign t trusted (key :: keys) result (some key :: taken)
      (.received t p :: .challenged t token :: events) := by
  obtain ⟨honline, before, key', after, token', rfl, hbefore, htrusted, rfl, hverdicts,
    hanswers⟩ := h
  refine ⟨honline, key :: before, key', after, token', rfl, ?_, htrusted, rfl, ?_, ?_⟩
  · intro refused hmem
    rcases List.mem_cons.mp hmem with rfl | hmem
    · exact hrefused
    · exact hbefore refused hmem
  · simpa [verdicts] using hverdicts
  · rw [List.length_cons, List.replicate_succ, ← hanswers]
    simp [answers, hp]

theorem Refused.cons {userKey : Bytes}
    (h : Refused userKey t trusted keys device' result taken events)
    (honline : (device'.transports t).online = (device.transports t).online)
    (hrefused : trusted key = false) (hp : p.arg0 = adbAuthSignature) :
    Refused userKey t trusted (key :: keys) device result (some key :: taken)
      (.received t p :: .challenged t token :: events) := by
  obtain ⟨honline', hkeys, rfl, hverdicts, signatures, hanswers, hsignatures⟩ := h
  refine ⟨honline'.trans honline, ?_, rfl, ?_, p :: signatures, ?_, ?_⟩
  · intro refused hmem
    rcases List.mem_cons.mp hmem with rfl | hmem
    · exact hrefused
    · exact hkeys refused hmem
  · simpa [verdicts] using hverdicts
  · rw [List.cons_append, ← hanswers]
    simp [answers]
  · rw [List.map_cons, List.length_cons, List.replicate_succ, hsignatures, hp]

end Outcomes

section Exchange

variable {cfg : Config} {sign : K → Bytes → Bytes} {t : TransportRef}
  {trusted : K → Bool}

theorem Leaves.tokens_eq {device device' : Server} {sent : List Apacket}
    {events : List AuthEvent} (h : Leaves t device device' sent events) :
    tokens ((device'.sockets.outbox t).drop (device.sockets.outbox t).length) = tokens sent := by
  rw [h.outbox_eq, List.drop_left]

section Round

variable (userKey : Bytes) {env : Oracle} {envs : List Oracle} {device : Server}
  {host : Host hashKey} {token : Bytes} {key : Option K} {keys : List (Option K)}
  (hqueue : host.queue = key :: keys)

include hqueue

theorem exchange_silent (hsilent : authResponse sign userKey token key = none) :
    exchange cfg sign userKey t (env :: envs) device host token =
      (device, { host with queue := keys, taken := host.taken ++ [key] }) := by
  rw [exchange, sendAuthResponse, hqueue, nextKey]
  dsimp only
  rw [hsilent]

section Answered

variable {p : Apacket} (hp : authResponse sign userKey token key = some p) {sent : List Apacket}
  {events : List AuthEvent}
  (hleaves : Leaves t device (handlePacket cfg env device t p) sent events)

include hp hleaves

theorem exchange_ended (hsent : tokens sent = []) :
    exchange cfg sign userKey t (env :: envs) device host token =
      (handlePacket cfg env device t p,
        { host with queue := keys, taken := host.taken ++ [key] }) := by
  rw [exchange, sendAuthResponse, hqueue, nextKey]
  dsimp only
  rw [hp]
  dsimp only
  rw [hleaves.tokens_eq, hsent]

theorem exchange_continued {next : Bytes} {rest : List Bytes} (hsent : tokens sent = next :: rest) :
    exchange cfg sign userKey t (env :: envs) device host token =
      exchange cfg sign userKey t envs (handlePacket cfg env device t p)
        { host with queue := keys, taken := host.taken ++ [key] } next := by
  rw [exchange, sendAuthResponse, hqueue, nextKey]
  dsimp only
  rw [hp]
  dsimp only
  rw [hleaves.tokens_eq, hsent]

end Answered

end Round

theorem sendAuthPublicKey_eq_some {userKey : Bytes} {p : Apacket}
    (h : sendAuthPublicKey userKey = some p) :
    p.command = .aAuth ∧ p.arg0 = adbAuthRsaPublicKey := by
  unfold sendAuthPublicKey at h
  split at h
  · cases h
  · split at h
    · cases h
    · cases h
      exact ⟨rfl, rfl⟩

variable (sign trusted) in
/-- The end of the queue: the public key is sent, and the exchange is over. -/
theorem exchange_publicKey (userKey : Bytes) (hhost : cfg.host = false) {env : Oracle}
    {envs : List Oracle} {device : Server} {host : Host hashKey} {token : Bytes}
    (hqueue : host.queue = [none]) :
    ∃ events, (exchange cfg sign userKey t (env :: envs) device host token).1.authLog =
        device.authLog ++ events ∧
      (exchange cfg sign userKey t (env :: envs) device host token).2.taken =
        host.taken ++ [none] ∧
      Refused userKey t trusted [] device
        (exchange cfg sign userKey t (env :: envs) device host token).1 [none] events := by
  cases hpublic : sendAuthPublicKey userKey with
  | none =>
      rw [exchange_silent userKey hqueue hpublic]
      exact ⟨[], (List.append_nil _).symm, rfl, rfl, by simp, rfl, rfl, [], by rw [hpublic]; rfl,
        rfl⟩
  | some p =>
      obtain ⟨hcommand, harg⟩ := sendAuthPublicKey_eq_some hpublic
      obtain ⟨⟨events, hevents, hleaves⟩, honline⟩ := public_key env device t hhost hcommand harg
      rw [exchange_ended userKey hqueue hpublic hleaves rfl]
      refine ⟨.received t p :: events, hleaves.log_eq, rfl, honline, by simp, rfl, ?_, [], ?_, rfl⟩
      · rcases hevents with rfl | rfl <;> rfl
      · rw [hpublic]
        rcases hevents with rfl | rfl <;> simp [answers]

theorem exchange_queue (userKey : Bytes) (hhost : cfg.host = false)
    (hverify : ∀ key token, token.length = tokenSize →
      cfg.adbdAuthVerify token (sign key token) = trusted key)
    (hsign : ∀ key token, token.length = tokenSize → sign key token ≠ [])
    {envs : List Oracle}
    (henvs : ∀ env ∈ envs, ∃ token, env.token = .generated token ∧ token.length = tokenSize)
    {keys : List K} (hlength : keys.length < envs.length) {device : Server}
    {host : Host hashKey} {token : Bytes} (hqueue : host.queue = keys.map some ++ [none])
    (htoken : (device.transports t).token = token) (hsize : token.length = tokenSize) :
    ∃ events taken,
      (exchange cfg sign userKey t envs device host token).1.authLog = device.authLog ++ events ∧
      (exchange cfg sign userKey t envs device host token).2.taken = host.taken ++ taken ∧
      (Accepted sign t trusted keys (exchange cfg sign userKey t envs device host token).1
          taken events ∨
        Refused userKey t trusted keys device
          (exchange cfg sign userKey t envs device host token).1 taken events) := by
  induction envs generalizing keys device host token with
  | nil => simp at hlength
  | cons env envs ih =>
      cases keys with
      | nil =>
          obtain ⟨events, hlog, htaken, hrefused⟩ :=
            exchange_publicKey sign trusted userKey hhost hqueue
          exact ⟨events, [none], hlog, htaken, .inr hrefused⟩
      | cons key keys =>
          have hqueue' : host.queue = some key :: (keys.map some ++ [none]) := hqueue
          let p : Apacket := {
            command := .aAuth
            arg0 := adbAuthSignature
            arg1 := 0
            data := sign key token }
          have hp : authResponse sign userKey token (some key) = some p := by
            simp [authResponse, adbAuthSign, hsize, hsign key token hsize, p]
          have hverdict : cfg.adbdAuthVerify (device.transports t).token p.data = trusted key := by
            rw [htoken, hverify key token hsize]
          cases htrusted : trusted key with
          | true =>
              rw [htrusted] at hverdict
              obtain ⟨⟨banner, hleaves⟩, honline⟩ :=
                accepted_signature env device t hhost rfl rfl hverdict
              rw [exchange_ended userKey hqueue' hp hleaves rfl]
              refine ⟨_, [some key], hleaves.log_eq, rfl, Or.inl ⟨honline, [], key, keys, token,
                rfl, by simp, htrusted, rfl, ?_, ?_⟩⟩
              · simp [verdicts, htoken, p]
              · simp [answers, p]
          | false =>
              rw [htrusted] at hverdict
              obtain ⟨next, henv, hnextSize⟩ := henvs env List.mem_cons_self
              obtain ⟨hleaves, hnextToken, honline⟩ :=
                rejected_signature env device t hhost rfl rfl hverdict henv
              have hsent : tokens [⟨.aAuth, adbAuthToken, 0, next⟩] = [next] := rfl
              rw [exchange_continued userKey hqueue' hp hleaves hsent]
              obtain ⟨events, taken, hlog, htaken, houtcome⟩ := ih
                (fun env hmem => henvs env (List.mem_cons_of_mem _ hmem))
                (Nat.lt_of_succ_lt_succ hlength)
                (rfl : ({ host with
                  queue := keys.map some ++ [none]
                  taken := host.taken ++ [some key] } : Host hashKey).queue = _)
                hnextToken hnextSize
              refine ⟨.received t p :: .challenged t next :: events, some key :: taken,
                ?_, ?_, ?_⟩
              · rw [hlog, hleaves.log_eq, List.append_assoc]
                rfl
              · rw [htaken, List.append_assoc]
                rfl
              · exact houtcome.imp (fun haccepted => haccepted.cons htrusted rfl)
                  fun hrefused => hrefused.cons honline htrusted rfl

theorem exchange_fresh (userKey : Bytes) (envs : List Oracle) (device : Server)
    (ring : KeyRing hashKey) (taken : List (Option K)) (token : Bytes) (henvs : envs ≠ []) :
    exchange cfg sign userKey t envs device ⟨ring, [], taken⟩ token =
      exchange cfg sign userKey t envs device ⟨ring, adbAuthGetPrivateKeys ring, taken⟩ token := by
  cases envs with
  | nil => exact absurd rfl henvs
  | cons env envs =>
      rw [exchange, exchange, sendAuthResponse, sendAuthResponse]
      dsimp only
      rw [nextKey_nil]

end Exchange

/-- A device that was asked to authenticate a host, with signatures that tell the
trusted keys from the others: when the host has a trusted key, its keys are
refused in order up to the first trusted one, which brings the device online; when
it has none, every key is refused once, the public key comes last, and there is no
verdict. -/
theorem handshake_settles (cfg : Config) (hhost : cfg.host = false)
    (sign : K → Bytes → Bytes) (userKey : Bytes) (t : TransportRef) (trusted : K → Bool)
    (hverify : ∀ key token, token.length = tokenSize →
      cfg.adbdAuthVerify token (sign key token) = trusted key)
    (hsign : ∀ key token, token.length = tokenSize → sign key token ≠ [])
    (ring : KeyRing hashKey) (envs : List Oracle)
    (henvs : ∀ env ∈ envs, ∃ token, env.token = .generated token ∧ token.length = tokenSize)
    (hlength : ring.keys.length < envs.length) (device : Server)
    (hsize : (device.transports t).token.length = tokenSize) :
    let result := exchange cfg sign userKey t envs device ⟨ring, [], []⟩
      (device.transports t).token
    ∃ events, result.1.authLog = device.authLog ++ events ∧
      ((∃ key ∈ ring.keys, trusted key = true) →
        Accepted sign t trusted ring.keys result.1 result.2.taken events) ∧
      ((∀ key ∈ ring.keys, trusted key = false) →
        Refused userKey t trusted ring.keys device result.1 result.2.taken events) := by
  intro result
  have henvs' : envs ≠ [] := by
    rintro rfl
    simp at hlength
  have hresult : result = exchange cfg sign userKey t envs device
      ⟨ring, adbAuthGetPrivateKeys ring, []⟩ (device.transports t).token :=
    exchange_fresh userKey envs device ring [] _ henvs'
  rw [hresult]
  obtain ⟨events, taken, hlog, htaken, houtcome⟩ := exchange_queue userKey
    hhost hverify hsign henvs hlength
    (rfl : (⟨ring, adbAuthGetPrivateKeys ring, []⟩ : Host hashKey).queue = _) rfl hsize
  rw [List.nil_append] at htaken
  refine ⟨events, hlog, ?_, ?_⟩
  · rintro ⟨key, hmem, htrusted⟩
    rcases houtcome with haccepted | hrefused
    · rwa [htaken]
    · have := hrefused.refused key hmem
      rw [htrusted] at this
      cases this
  · intro hnone
    rcases houtcome with haccepted | hrefused
    · obtain ⟨before, key, after, -, hkeys, -, htrusted, -⟩ := haccepted.accepted
      have := hnone key (by rw [hkeys]; simp)
      rw [htrusted] at this
      cases this
    · rwa [htaken]

/-- The keys 3 and 7, of which the device trusts the second. -/
def sampleRing : KeyRing UInt8.toNat := ⟨[3, 7], by decide⟩

def sampleConfig : Config :=
  { ServerRuns.plainConfig false true with adbdAuthVerify := fun _ signature => signature = [7] }

theorem handshake_settles_sample :
    let result := exchange sampleConfig (fun (key : UInt8) _ => [key]) (ascii "key") 0
      (List.replicate 3 { token := .generated zeroToken }) .initial ⟨sampleRing, [], []⟩
      (Server.initial.transports 0).token
    ∃ events, result.1.authLog = Server.initial.authLog ++ events ∧
      ((∃ key ∈ sampleRing.keys, (key == 7) = true) →
        Accepted (fun key _ => [key]) 0 (· == 7) sampleRing.keys result.1 result.2.taken events) ∧
      ((∀ key ∈ sampleRing.keys, (key == 7) = false) →
        Refused (ascii "key") 0 (· == 7) sampleRing.keys .initial result.1 result.2.taken
          events) :=
  handshake_settles sampleConfig rfl (fun (key : UInt8) _ => [key]) (ascii "key") 0 (· == 7)
    (fun key _ _ => by simp [sampleConfig, beq_eq_decide]) (fun _ _ _ => by simp) sampleRing _
    (fun env hmem => ⟨zeroToken, by rw [List.eq_of_mem_replicate hmem], rfl⟩) (by decide)
    .initial rfl

end Adb.AuthHandshake
