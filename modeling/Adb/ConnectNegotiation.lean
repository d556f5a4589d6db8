import Adb.ServerState
import Adb.TcpWire
import Adb.TransitionSystems

/-!
The CNXN exchange between a host and a device with constants of their own,
with the AUTH messages that may come between the host's CNXN and the answer.
-/

namespace Adb.ConnectNegotiation

open Adb.ConnectionLimits
open Adb.ServerState
open Adb.TcpWire
open Adb.TransitionSystems
open Adb.WirePackets

/-- The messages of the exchange, with the length of their payload. -/
inductive Message where
  | empty
  | cnxn (version maxdata banner : Nat)
  | authToken
  | authSignature (length : Nat)
  | authRsaPublicKey (length : Nat)
  deriving DecidableEq, Repr

def Message.length : Message → Nat
  | empty => 0
  | cnxn _ _ banner => banner
  | authToken => tokenSize
  | authSignature length => length
  | authRsaPublicKey length => length

/-- The connection strings are no longer than `MAX_PAYLOAD_V1`: a longer one is
fatal in `send_connect`. -/
structure Config where
  authRequired : Bool
  hostBanner : Nat
  deviceBanner : Nat
  hostBanner_le : hostBanner ≤ maxPayloadV1
  deviceBanner_le : deviceBanner ≤ maxPayloadV1

/-- Both ends of a transport and the messages in flight.  `usbTransport` says
whether the device has asked its framework to confirm a key of this transport
(it is never reset, so there are more runs here than of the device),
`exchanged` whether the host has handled a CNXN. -/
structure Link (h d : Build) where
  host : Limits h
  device : Limits d
  toDevice : List Message
  toHost : List Message
  usbTransport : Bool
  exchanged : Bool
  up : Bool
  deriving DecidableEq, Repr

/-- What `send_auth_response` on the host sends for a token. -/
inductive Answer where
  | signature (length : Nat)
  | rsaPublicKey (length : Nat)
  | nothing
  deriving DecidableEq, Repr

def Answer.messages : Answer → List Message
  | signature length => [.authSignature length]
  | rsaPublicKey length => [.authRsaPublicKey length]
  | nothing => []

inductive Action where
  | hostConnect
  | deliverToDevice (verified generated : Bool)
  | deliverToHost (answer : Answer)
  | frameworkOk
  | frameworkConnect (generated : Bool)
  deriving DecidableEq, Repr

variable {h d : Build}

/-- `send_connect`: both words are 32 bits wide. -/
def sendConnect {build : Build} (limits : Limits build) (banner : Nat) : Message :=
  .cnxn (intToWord limits.protocolVersion) (limits.maxPayload % 2 ^ 32) banner

def sendConnectOnHost (cfg : Config) (st : Link h d) : Link h d :=
  { st with toDevice := st.toDevice ++ [.empty, sendConnect st.host cfg.hostBanner] }

def adbdAuthVerified (cfg : Config) (st : Link h d) : Link h d :=
  { st with toHost := st.toHost ++ [sendConnect st.device cfg.deviceBanner] }

/-- `send_auth_request`, which sends nothing when no token is generated. -/
def sendAuthRequest (generated : Bool) (st : Link h d) : Link h d :=
  if generated then { st with toHost := st.toHost ++ [.authToken] } else st

/-- `handle_packet` on the device. -/
def handleOnDevice (cfg : Config) (verified generated : Bool) (st : Link h d) :
    Message → Link h d
  | .cnxn version maxdata _ =>
      let st := { st with device := .updateVersion d (wordToInt version) maxdata }
      if cfg.authRequired then sendAuthRequest generated st else adbdAuthVerified cfg st
  | .authSignature _ =>
      if verified then adbdAuthVerified cfg st else sendAuthRequest generated st
  | .authRsaPublicKey _ => { st with usbTransport := true }
  | _ => st

/-- `handle_packet` on the host. -/
def handleOnHost (answer : Answer) (st : Link h d) : Message → Link h d
  | .cnxn version maxdata _ =>
      { st with host := .updateVersion h (wordToInt version) maxdata, exchanged := true }
  | .authToken => { st with toDevice := st.toDevice ++ answer.messages }
  | _ => st

/-- A message whose length `check_header` refuses ends the connection. -/
def step (cfg : Config) (st : Link h d) : Action → Link h d
  | .hostConnect => sendConnectOnHost cfg st
  | .deliverToDevice verified generated =>
      match st.toDevice with
      | [] => st
      | msg :: rest =>
          let st := { st with toDevice := rest }
          if msg.length ≤ st.device.maxPayload then
            handleOnDevice cfg verified generated st msg
          else { st with up := false }
  | .deliverToHost answer =>
      match st.toHost with
      | [] => st
      | msg :: rest =>
          let st := { st with toHost := rest }
          if msg.length ≤ st.host.maxPayload then handleOnHost answer st msg
          else { st with up := false }
  | .frameworkOk => if st.usbTransport then adbdAuthVerified cfg st else st
  | .frameworkConnect generated =>
      if st.usbTransport then sendAuthRequest generated st else st

def initial : Link h d where
  host := Limits.initial h
  device := Limits.initial d
  toDevice := []
  toHost := []
  usbTransport := false
  exchanged := false
  up := true

def linkSystem (h d : Build) (cfg : Config) : System (Link h d) Action where
  initial st := st = initial
  enabled st _ := st.up = true
  next := step cfg

instance (cfg : Config) (st : Link h d) (action : Action) :
    Decidable ((linkSystem h d cfg).enabled st action) :=
  inferInstanceAs (Decidable (st.up = true))

/-- The version and the limit that both ends settle on.  The host's constant
goes through a 32-bit word, the device's only after the minimum was taken. -/
def agreedVersion (h d : Build) : Int := min h.version d.version

def agreedPayload (h d : Build) : Nat := min (h.maxPayload % 2 ^ 32) d.maxPayload

def Settled {build : Build} (limits : Limits build) (h d : Build) : Prop :=
  limits.protocolVersion = agreedVersion h d ∧ limits.maxPayload = agreedPayload h d

theorem wordToInt_intToWord {i : Int} (hi : -2 ^ 31 ≤ i ∧ i < 2 ^ 31) :
    wordToInt (intToWord i) = i := by
  unfold wordToInt intToWord
  split
  · omega
  · omega

theorem settled_device {version payload : Nat}
    (hmsg : (version = intToWord h.version ∧ payload = h.maxPayload % 2 ^ 32) ∨
      (version = intToWord (agreedVersion h d) ∧ payload = agreedPayload h d)) :
    Settled (Limits.updateVersion d (wordToInt version) payload) h d := by
  have hh := h.isInt
  have hd := d.isInt
  rcases hmsg with ⟨rfl, rfl⟩ | ⟨rfl, rfl⟩
  · rw [wordToInt_intToWord hh]
    exact ⟨rfl, rfl⟩
  · have hagreed : -2 ^ 31 ≤ agreedVersion h d ∧ agreedVersion h d < 2 ^ 31 := by
      unfold agreedVersion
      omega
    rw [wordToInt_intToWord hagreed]
    constructor
    · simp only [Limits.updateVersion, agreedVersion]
      omega
    · simp only [Limits.updateVersion, agreedPayload]
      omega

theorem settled_host {version payload : Nat}
    (hversion : version = intToWord (agreedVersion h d))
    (hpayload : payload = agreedPayload h d) :
    Settled (Limits.updateVersion h (wordToInt version) payload) h d := by
  have hh := h.isInt
  have hd := d.isInt
  have hagreed : -2 ^ 31 ≤ agreedVersion h d ∧ agreedVersion h d < 2 ^ 31 := by
    unfold agreedVersion
    omega
  subst hversion hpayload
  rw [wordToInt_intToWord hagreed]
  constructor
  · simp only [Limits.updateVersion, agreedVersion]
    omega
  · simp only [Limits.updateVersion, agreedPayload]
    have hmod := Nat.mod_le h.maxPayload (2 ^ 32)
    omega

theorem sendConnect_of_settled {build : Build} {limits : Limits build}
    (hsettled : Settled limits h d) (banner : Nat) :
    sendConnect limits banner =
      .cnxn (intToWord (agreedVersion h d)) (agreedPayload h d) banner := by
  have hlt : agreedPayload h d < 2 ^ 32 := by
    have hmod := Nat.mod_lt h.maxPayload (show 2 ^ 32 > 0 by omega)
    unfold agreedPayload
    omega
  rw [sendConnect, hsettled.1, hsettled.2, Nat.mod_eq_of_lt hlt]

/-- A message that the host may have sent when the device has answered
something, or nothing yet. -/
def FromHost (h d : Build) (answered : Prop) : Message → Prop
  | .empty => True
  | .cnxn version payload _ =>
      (version = intToWord h.version ∧ payload = h.maxPayload % 2 ^ 32) ∨
        (version = intToWord (agreedVersion h d) ∧ payload = agreedPayload h d)
  | _ => answered

/-- A message that the device may have sent. -/
def FromDevice (h d : Build) : Message → Prop
  | .cnxn version payload _ =>
      version = intToWord (agreedVersion h d) ∧ payload = agreedPayload h d
  | _ => True

/-- The device is silent until it has handled a CNXN, and from then on both
ends only announce and accept what they agree on. -/
structure Negotiating (st : Link h d) : Prop where
  host : st.host = Limits.initial h ∨ Settled st.host h d
  device : (st.toHost = [] ∧ st.usbTransport = false) ∨ Settled st.device h d
  toDevice : ∀ msg ∈ st.toDevice, FromHost h d (Settled st.device h d) msg
  toHost : ∀ msg ∈ st.toHost, FromDevice h d msg
  exchanged : st.exchanged = true → Settled st.host h d ∧ Settled st.device h d

namespace Negotiating

variable {cfg : Config} {st : Link h d}

theorem initial : Negotiating (ConnectNegotiation.initial : Link h d) where
  host := .inl rfl
  device := .inl ⟨rfl, rfl⟩
  toDevice := by simp [ConnectNegotiation.initial]
  toHost := by simp [ConnectNegotiation.initial]
  exchanged := by simp [ConnectNegotiation.initial]

theorem sendConnectOnHost (hst : Negotiating st) :
    Negotiating (sendConnectOnHost cfg st) where
  host := hst.host
  device := hst.device
  toDevice := by
    intro msg hmsg
    rcases List.mem_append.mp hmsg with hold | hnew
    · exact hst.toDevice msg hold
    · rcases List.mem_cons.mp hnew with rfl | hnew
      · trivial
      · obtain rfl := List.mem_singleton.mp hnew
        rcases hst.host with hinit | hsettled
        · rw [hinit]
          exact .inl ⟨rfl, rfl⟩
        · rw [sendConnect_of_settled hsettled]
          exact .inr ⟨rfl, rfl⟩
  toHost := hst.toHost
  exchanged := hst.exchanged

theorem sent (hst : Negotiating st) (hdevice : Settled st.device h d) {msg : Message}
    (hmsg : FromDevice h d msg) : Negotiating { st with toHost := st.toHost ++ [msg] } where
  host := hst.host
  device := .inr hdevice
  toDevice := hst.toDevice
  toHost := by
    intro other hother
    rcases List.mem_append.mp hother with hold | hnew
    · exact hst.toHost other hold
    · obtain rfl := List.mem_singleton.mp hnew
      exact hmsg
  exchanged := hst.exchanged

theorem adbdAuthVerified (hst : Negotiating st) (hdevice : Settled st.device h d) :
    Negotiating (adbdAuthVerified cfg st) := by
  apply hst.sent hdevice
  rw [sendConnect_of_settled hdevice]
  exact ⟨rfl, rfl⟩

theorem sendAuthRequest (hst : Negotiating st) (hdevice : Settled st.device h d)
    (generated : Bool) : Negotiating (sendAuthRequest generated st) := by
  unfold ConnectNegotiation.sendAuthRequest
  split
  · exact hst.sent hdevice trivial
  · exact hst

theorem updated (hst : Negotiating st) {version payload : Nat}
    (hmsg : FromHost h d (Settled st.device h d) (.cnxn version payload 0)) :
    Negotiating { st with device := .updateVersion d (wordToInt version) payload } where
  host := hst.host
  device := .inr (settled_device hmsg)
  toDevice := by
    intro msg hin
    have hold := hst.toDevice msg hin
    cases msg with
    | empty => trivial
    | cnxn version payload banner => exact hold
    | authToken => exact settled_device hmsg
    | authSignature length => exact settled_device hmsg
    | authRsaPublicKey length => exact settled_device hmsg
  toHost := hst.toHost
  exchanged := fun hdone => ⟨(hst.exchanged hdone).1, settled_device hmsg⟩

theorem handleOnDevice (hst : Negotiating st) (verified generated : Bool) {msg : Message}
    (hmsg : FromHost h d (Settled st.device h d) msg) :
    Negotiating (handleOnDevice cfg verified generated st msg) := by
  cases msg with
  | empty => exact hst
  | cnxn version payload banner =>
      have hnew := hst.updated hmsg
      simp only [ConnectNegotiation.handleOnDevice]
      split
      · exact hnew.sendAuthRequest (settled_device hmsg) generated
      · exact hnew.adbdAuthVerified (settled_device hmsg)
  | authToken => exact hst
  | authSignature length =>
      simp only [ConnectNegotiation.handleOnDevice]
      split
      · exact hst.adbdAuthVerified hmsg
      · exact hst.sendAuthRequest hmsg generated
  | authRsaPublicKey length =>
      exact ⟨hst.host, .inr hmsg, hst.toDevice, hst.toHost, hst.exchanged⟩

theorem handleOnHost (hst : Negotiating st) (hdevice : Settled st.device h d)
    (answer : Answer) {msg : Message} (hmsg : FromDevice h d msg) :
    Negotiating (handleOnHost answer st msg) := by
  cases msg with
  | cnxn version payload banner =>
      have hhost := settled_host hmsg.1 hmsg.2
      exact ⟨.inr hhost, .inr hdevice, hst.toDevice, hst.toHost, fun _ => ⟨hhost, hdevice⟩⟩
  | authToken =>
      refine ⟨hst.host, .inr hdevice, ?_, hst.toHost, hst.exchanged⟩
      intro other hother
      rcases List.mem_append.mp hother with hold | hnew
      · exact hst.toDevice other hold
      · cases answer with
        | signature length =>
            obtain rfl := List.mem_singleton.mp hnew
            exact hdevice
        | rsaPublicKey length =>
            obtain rfl := List.mem_singleton.mp hnew
            exact hdevice
        | nothing => cases hnew
  | empty => exact hst
  | authSignature length => exact hst
  | authRsaPublicKey length => exact hst

theorem step (hst : Negotiating st) (action : Action) : Negotiating (step cfg st action) := by
  cases action with
  | hostConnect => exact hst.sendConnectOnHost
  | deliverToDevice verified generated =>
      simp only [ConnectNegotiation.step]
      split
      · exact hst
      · rename_i msg rest hqueue
        have hmsg := hst.toDevice msg (by rw [hqueue]; simp)
        have hrest : Negotiating { st with toDevice := rest } :=
          ⟨hst.host, hst.device,
            fun other hother => hst.toDevice other (by rw [hqueue]; simp [hother]),
            hst.toHost, hst.exchanged⟩
        split
        · exact hrest.handleOnDevice verified generated hmsg
        · exact ⟨hrest.host, hrest.device, hrest.toDevice, hrest.toHost, hrest.exchanged⟩
  | deliverToHost answer =>
      simp only [ConnectNegotiation.step]
      split
      · exact hst
      · rename_i msg rest hqueue
        have hmsg := hst.toHost msg (by rw [hqueue]; simp)
        have hdevice : Settled st.device h d := by
          rcases hst.device with ⟨hempty, _⟩ | hdevice
          · rw [hempty] at hqueue
            cases hqueue
          · exact hdevice
        have hrest : Negotiating { st with toHost := rest } :=
          ⟨hst.host, .inr hdevice, hst.toDevice,
            fun other hother => hst.toHost other (by rw [hqueue]; simp [hother]),
            hst.exchanged⟩
        split
        · exact hrest.handleOnHost hdevice answer hmsg
        · exact ⟨hrest.host, hrest.device, hrest.toDevice, hrest.toHost, hrest.exchanged⟩
  | frameworkOk =>
      simp only [ConnectNegotiation.step]
      split
      · rename_i husb
        rcases hst.device with ⟨_, hnone⟩ | hdevice
        · rw [hnone] at husb
          cases husb
        · exact hst.adbdAuthVerified hdevice
      · exact hst
  | frameworkConnect generated =>
      simp only [ConnectNegotiation.step]
      split
      · rename_i husb
        rcases hst.device with ⟨_, hnone⟩ | hdevice
        · rw [hnone] at husb
          cases husb
        · exact hst.sendAuthRequest hdevice generated
      · exact hst

end Negotiating

/-- The server of both programs updates its transports in the same way, with
the constants of adb.h. -/
theorem handleNewConnection_limits (cfg : ServerState.Config) (env : Oracle) (st : Server)
    (t : SocketTable.TransportRef) (p : Apacket) :
    ((handleNewConnection cfg env st t p).transports t).protocolVersion =
        (Limits.updateVersion adbBuild (wordToInt p.arg0) p.arg1).protocolVersion ∧
      ((handleNewConnection cfg env st t p).transports t).maxPayload =
        (Limits.updateVersion adbBuild (wordToInt p.arg0) p.arg1).maxPayload := by
  unfold handleNewConnection updateTransports handleOnline ServerState.sendConnect
    ServerState.sendAuthRequest
  dsimp only
  generalize (if (st.transports t).connectionState ≠ .offline then
    handleOffline (setConnectionState st t .offline) t else st) = offline
  cases cfg.host <;> cases cfg.authRequired <;> cases env.token <;>
    simp [Server.modifyTransport, Server.send, Server.log, Limits.updateVersion, adbBuild,
      aVersion]

/-- Once the host has handled a CNXN, both ends hold the same version and the
same limit, and what one end may send passes the other end's header check. -/
theorem negotiation_agrees (cfg : Config) {st : Link h d}
    (hreach : (linkSystem h d cfg).Reachable st) (hdone : st.exchanged = true) :
    st.host.protocolVersion = min h.version d.version ∧
      st.device.protocolVersion = min h.version d.version ∧
      st.host.maxPayload = min (h.maxPayload % 2 ^ 32) d.maxPayload ∧
      st.device.maxPayload = min (h.maxPayload % 2 ^ 32) d.maxPayload ∧
      (h.maxPayload < 2 ^ 32 → st.host.maxPayload = min h.maxPayload d.maxPayload) ∧
      ∀ p : Packet,
        (p.msg.dataLength.toNat ≤ st.host.maxPayload →
          checkHeader st.device (sendPacket p).msg = true) ∧
        (p.msg.dataLength.toNat ≤ st.device.maxPayload →
          checkHeader st.host (sendPacket p).msg = true) := by
  have hst : Negotiating st := hreach.invariant
    (fun st hinit => hinit ▸ Negotiating.initial)
    fun st action hst _ _ => hst.step action
  obtain ⟨hhost, hdevice⟩ := hst.exchanged hdone
  have hsame : st.host.maxPayload = st.device.maxPayload := hhost.2.trans hdevice.2.symm
  refine ⟨hhost.1, hdevice.1, hhost.2, hdevice.2, ?_, ?_⟩
  · intro hsmall
    rw [hhost.2, agreedPayload, Nat.mod_eq_of_lt hsmall]
  · intro p
    constructor
    · intro hlen
      exact checkHeader_sendPacket (hsame ▸ hlen)
    · intro hlen
      exact checkHeader_sendPacket (hsame ▸ hlen)

/-- One exchange with authentication, and then a second one that crosses it. -/
def exchangeTwice : List Action :=
  [.hostConnect, .deliverToDevice false false, .hostConnect, .deliverToDevice false true,
    .deliverToHost (.signature 256), .deliverToDevice false false,
    .deliverToDevice false false, .deliverToDevice true false, .deliverToHost .nothing]

def sampleConfig : Config := ⟨true, 10, 20, by decide, by decide⟩

/-- An older device, with a smaller limit. -/
def olderBuild : Build := ⟨0x00ffffff, maxPayloadV1, by decide, by decide⟩

theorem negotiation_agrees_twice :
    ((linkSystem adbBuild olderBuild sampleConfig).execute initial
      exchangeTwice).host.maxPayload = min (adbBuild.maxPayload % 2 ^ 32) maxPayloadV1 :=
  (negotiation_agrees sampleConfig
    (System.reachableWhen_execute ⟨initial, rfl, .refl⟩ (by decide)) (by decide)).2.2.1

/-- A host whose limit needs more than 32 bits announces a smaller one. -/
def wideBuild : Build := ⟨0x01000000, 2 ^ 32 + 2 * maxPayloadV1, adbBuild.isInt, by decide⟩

def exchangeOnce : List Action :=
  [.hostConnect, .deliverToDevice false false, .deliverToDevice false false,
    .deliverToHost .nothing]

theorem negotiation_fails_wideBuild :
    ∃ st : Link wideBuild adbBuild,
      (linkSystem wideBuild adbBuild { sampleConfig with authRequired := false }).Reachable st ∧
        st.toDevice = [] ∧ st.toHost = [] ∧ st.exchanged = true ∧
        st.host.maxPayload ≠ min wideBuild.maxPayload adbBuild.maxPayload :=
  ⟨(linkSystem wideBuild adbBuild { sampleConfig with authRequired := false }).execute
      initial exchangeOnce,
    System.reachableWhen_execute ⟨initial, rfl, .refl⟩ (by decide), by decide, by decide,
    by decide, by decide⟩

end Adb.ConnectNegotiation
