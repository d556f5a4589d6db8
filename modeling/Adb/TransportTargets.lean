import Adb.HostReplies

/-!
The names under which a client can ask for a transport: `MatchesTarget`, which
walks C strings, and the long listing of `list_transports`, which prints them.
-/

namespace Adb.TransportTargets

open Adb.DescriptorIo
open Adb.HostReplies
open Adb.Numerals
open Adb.ProtocolStrings
open Adb.ServerState
open Adb.SocketTable
open Adb.WirePackets

/-- `*s` for a C string, whose end reads as a NUL. -/
def charAt (s : Bytes) : UInt8 := s.headD 0

/-- The first loop of `qual_match`: the rest of the text after the label. -/
def skipLabel : Bytes → Bytes → Option Bytes
  | [], toTest => some toTest
  | c :: label, toTest => if c ≠ charAt toTest then none else skipLabel label toTest.tail

/-- A character of a value as `qual_match` compares it. -/
def shown (sanitizeQual : Bool) (ch : UInt8) : UInt8 :=
  if sanitizeQual && !isAlnum ch then 95 else ch

/-- The second loop of `qual_match` and its end. -/
def matchQual (sanitizeQual : Bool) : Bytes → Bytes → Bool
  | [], toTest => charAt toTest == 0
  | ch :: qual, toTest =>
      if shown sanitizeQual ch ≠ charAt toTest then false
      else matchQual sanitizeQual qual toTest.tail

/-- `qual_match`; a null pointer is `none`. -/
def qualMatch (toTest label qual : Option Bytes) (sanitizeQual : Bool) : Bool :=
  match toTest with
  | none | some [] => qual = none || qual = some []
  | some toTest =>
      match qual with
      | none => false
      | some qual =>
          match skipLabel (label.getD []) toTest with
          | none => false
          | some rest => matchQual sanitizeQual qual rest

/-- `ParseNetAddress`: the host of an address, and its port if it has one. -/
abbrev ParseNetAddress := Bytes → Option (Bytes × Option Nat)

/-- The address in a target, after the protocol. -/
def afterProtocol (target : Bytes) : Bytes :=
  if (ascii "tcp:").isPrefixOf target || (ascii "udp:").isPrefixOf target then target.drop 4
  else target

/-- The part of `MatchesTarget` that compares addresses.  `ParseNetAddress` does
not touch the port when the address has none. -/
def matchesAddress (parseNetAddress : ParseNetAddress) (serial target : Bytes) : Bool :=
  match parseNetAddress serial with
  | none => false
  | some (serialHost, port) =>
      let serialPort : Int := (port.map Int.ofNat).getD (-1)
      match parseNetAddress (cString (afterProtocol target)) with
      | none => false
      | some (targetHost, port) =>
          let targetPort := (port.map Int.ofNat).getD serialPort
          serialHost = targetHost && serialPort = targetPort

def matchesTarget (parseNetAddress : ParseNetAddress) (type : TransportType)
    (texts : DeviceTexts) (target : Bytes) : Bool :=
  let bySerial := match texts.serial with
    | none => false
    | some serial =>
        target = serial ||
          (type = .localTransport && matchesAddress parseNetAddress serial target)
  bySerial || texts.devpath = some target ||
    qualMatch (some (cString target)) (some (ascii "product:")) texts.product false ||
    qualMatch (some (cString target)) (some (ascii "model:")) texts.model true ||
    qualMatch (some (cString target)) (some (ascii "device:")) texts.device false

/-- The texts of a transport are C strings. -/
def CStrings (texts : DeviceTexts) : Prop :=
  ∀ field ∈ [texts.serial, texts.devpath, texts.product, texts.model, texts.device],
    ∀ text ∈ field, 0 ∉ text

/-- A character of a model as clients see it. -/
def sanitized (c : UInt8) : UInt8 := if isAlnum c then c else 95

/-- The documented targets of a transport. -/
inductive IsTarget (parseNetAddress : ParseNetAddress) (type : TransportType)
    (texts : DeviceTexts) : Bytes → Prop
  | serial {serial : Bytes} (h : texts.serial = some serial) : IsTarget _ _ _ serial
  | devpath {devpath : Bytes} (h : texts.devpath = some devpath) : IsTarget _ _ _ devpath
  | product {product : Bytes} (h : texts.product = some product) :
      IsTarget _ _ _ (ascii "product:" ++ product)
  | model {model : Bytes} (h : texts.model = some model) :
      IsTarget _ _ _ (ascii "model:" ++ model.map sanitized)
  | device {device : Bytes} (h : texts.device = some device) :
      IsTarget _ _ _ (ascii "device:" ++ device)
  | address {serial target host : Bytes} {serialPort targetPort : Option Nat}
      (hlocal : type = .localTransport) (h : texts.serial = some serial)
      (hserial : parseNetAddress serial = some (host, serialPort))
      (htarget : parseNetAddress (afterProtocol target) = some (host, targetPort))
      (hport : targetPort = serialPort ∨ targetPort = none) : IsTarget _ _ _ target

/-- The key and the value of one item of the long listing, if it is printed. -/
def listedItem (key : Bytes) (value : Option Bytes) (sanitize : Bool) : List Bytes :=
  match value with
  | none | some [] => []
  | some value => [key ++ value.map fun c => if !sanitize || isAlnum c then c else 95]

/-- The items that the long listing prints after the connection state. -/
def listedItems (texts : DeviceTexts) : List Bytes :=
  listedItem [] texts.devpath false ++ listedItem (ascii "product:") texts.product false ++
    listedItem (ascii "model:") texts.model true ++
    listedItem (ascii "device:") texts.device false

/-- The serial as the listings print it. -/
def listedSerial (texts : DeviceTexts) : Bytes :=
  match texts.serial with
  | none | some [] => ascii "(no serial number)"
  | some serial => serial

section

variable {parseNetAddress : ParseNetAddress} {type : TransportType} {texts : DeviceTexts}
  {target : Bytes}

theorem charAt_ne_zero {c : UInt8} {s : Bytes} (h : 0 ∉ c :: s) : c ≠ 0 := by
  rintro rfl
  exact h List.mem_cons_self

theorem skipLabel_eq_some {label rest : Bytes} (hlabel : 0 ∉ label) :
    skipLabel label target = some rest ↔ target = label ++ rest := by
  induction label generalizing target with
  | nil => exact ⟨fun h => Option.some.inj h, fun h => congrArg some h⟩
  | cons c label ih =>
      have hc := charAt_ne_zero hlabel
      have ih := @ih target.tail (fun h => hlabel (List.mem_cons_of_mem _ h))
      rw [skipLabel]
      cases target with
      | nil => simp [charAt, hc]
      | cons b target =>
          rcases eq_or_ne c b with rfl | hne
          · simpa [charAt] using ih
          · simp [charAt, hne, hne.symm]

theorem shown_false (text : Bytes) : text.map (shown false) = text := by
  rw [show shown false = id from rfl, List.map_id]

theorem shown_true : shown true = sanitized := by
  funext c
  rw [shown, sanitized]
  cases isAlnum c with
  | true => rfl
  | false => rfl

theorem shown_ne_zero (sanitize : Bool) {c : UInt8} (h : c ≠ 0) : shown sanitize c ≠ 0 := by
  rw [shown]
  split
  · decide
  · exact h

theorem matchQual_iff {sanitize : Bool} {qual : Bytes} (hqual : 0 ∉ qual) (htarget : 0 ∉ target) :
    matchQual sanitize qual target = true ↔ target = qual.map (shown sanitize) := by
  induction qual generalizing target with
  | nil =>
      cases target with
      | nil => exact ⟨fun _ => rfl, fun _ => rfl⟩
      | cons b target => simp [matchQual, charAt, charAt_ne_zero htarget]
  | cons c qual ih =>
      have hrest : 0 ∉ qual := fun h => hqual (List.mem_cons_of_mem _ h)
      have hch := shown_ne_zero sanitize (charAt_ne_zero hqual)
      cases target with
      | nil => simp [matchQual, charAt, hch]
      | cons b target =>
          have htail : 0 ∉ target := fun h => htarget (List.mem_cons_of_mem _ h)
          rcases eq_or_ne (shown sanitize c) b with rfl | hne
          · simp [matchQual, charAt, ih hrest htail]
          · simp [matchQual, charAt, hne, hne.symm]

theorem qualMatch_iff (sanitize : Bool) (label : Bytes) {qual : Option Bytes}
    (hlabel : 0 ∉ label) (hnonempty : target ≠ []) (htarget : 0 ∉ target)
    (hqual : ∀ text ∈ qual, 0 ∉ text) :
    qualMatch (some target) (some label) qual sanitize = true ↔
      ∃ text, qual = some text ∧ target = label ++ text.map (shown sanitize) := by
  obtain ⟨b, rest, rfl⟩ := List.exists_cons_of_ne_nil hnonempty
  cases qual with
  | none => simp [qualMatch]
  | some text =>
      have htext := hqual text rfl
      simp only [qualMatch, Option.getD_some, Option.some.injEq, exists_eq_left']
      cases hskip : skipLabel label (b :: rest) with
      | none =>
          have hnot : ∀ tail, b :: rest ≠ label ++ tail := by
            intro tail htail
            rw [(skipLabel_eq_some hlabel).mpr htail] at hskip
            cases hskip
          simp [hnot]
      | some tail =>
          have hsplit := (skipLabel_eq_some hlabel).mp hskip
          have htail : 0 ∉ tail := by
            rw [hsplit] at htarget
            exact fun h => htarget (List.mem_append_right _ h)
          rw [hsplit, List.append_cancel_left_eq]
          exact matchQual_iff htext htail

theorem matchesAddress_iff {serial : Bytes} (htarget : 0 ∉ target) :
    matchesAddress parseNetAddress serial target = true ↔
      ∃ host serialPort targetPort, parseNetAddress serial = some (host, serialPort) ∧
        parseNetAddress (afterProtocol target) = some (host, targetPort) ∧
        (targetPort = serialPort ∨ targetPort = none) := by
  have hrest : 0 ∉ afterProtocol target := by
    rw [afterProtocol]
    split
    · exact fun h => htarget (List.mem_of_mem_drop h)
    · exact htarget
  rw [matchesAddress, cString_of_not_mem hrest]
  cases hserial : parseNetAddress serial with
  | none => simp
  | some parsed =>
      obtain ⟨serialHost, serialPort⟩ := parsed
      cases hparsed : parseNetAddress (afterProtocol target) with
      | none => simp
      | some parsed =>
          obtain ⟨targetHost, targetPort⟩ := parsed
          -- a port is not negative, so `-1` stands for a serial without a port
          have hport : ((serialPort.map Int.ofNat).getD (-1) =
              (targetPort.map Int.ofNat).getD ((serialPort.map Int.ofNat).getD (-1))) ↔
                (targetPort = serialPort ∨ targetPort = none) := by
            cases targetPort with
            | none => simp
            | some port =>
                cases serialPort with
                | none =>
                    simp only [Option.map_none, Option.map_some, Option.getD_none,
                      Option.getD_some, reduceCtorEq, or_self]
                | some other =>
                    simp only [Option.map_some, Option.getD_some, Int.ofNat_eq_natCast,
                      Int.natCast_inj, Option.some.injEq, reduceCtorEq, or_false]
                    exact eq_comm
          simp only [Bool.and_eq_true, decide_eq_true_eq, hport]
          constructor
          · rintro ⟨rfl, h⟩
            exact ⟨serialHost, serialPort, targetPort, rfl, rfl, h⟩
          · rintro ⟨host, port, port', hhost, hhost', h⟩
            cases hhost
            cases hhost'
            exact ⟨rfl, h⟩

theorem bySerial_iff :
    (match texts.serial with
      | none => false
      | some serial =>
          target = serial ||
            (type = .localTransport && matchesAddress parseNetAddress serial target)) = true ↔
      ∃ serial, texts.serial = some serial ∧
        (target = serial ∨ type = .localTransport ∧
          matchesAddress parseNetAddress serial target = true) := by
  cases texts.serial with
  | none => simp
  | some serial => simp

/-- `MatchesTarget` accepts the documented targets and no others. -/
theorem matchesTarget_iff (parseNetAddress : ParseNetAddress) (type : TransportType)
    (hstrings : CStrings texts) (hnonempty : target ≠ []) (htarget : 0 ∉ target) :
    matchesTarget parseNetAddress type texts target = true ↔
      IsTarget parseNetAddress type texts target := by
  have hproduct := qualMatch_iff false (ascii "product:") (by decide) hnonempty
    htarget (hstrings texts.product (by simp))
  have hmodel := qualMatch_iff true (ascii "model:") (by decide) hnonempty
    htarget (hstrings texts.model (by simp))
  have hdevice := qualMatch_iff false (ascii "device:") (by decide) hnonempty
    htarget (hstrings texts.device (by simp))
  simp only [shown_false, shown_true] at hproduct hmodel hdevice
  rw [matchesTarget, cString_of_not_mem htarget]
  simp only [Bool.or_eq_true, decide_eq_true_eq, hproduct, hmodel, hdevice,
    bySerial_iff, matchesAddress_iff htarget]
  constructor
  · rintro ((((⟨serial, hserial, rfl | ⟨hlocal, host, port, port', hhost, hhost', hport⟩⟩ |
      hdevpath) | ⟨text, htext, rfl⟩) | ⟨text, htext, rfl⟩) | ⟨text, htext, rfl⟩)
    · exact .serial hserial
    · exact .address hlocal hserial hhost hhost' hport
    · exact .devpath hdevpath
    · exact .product htext
    · exact .model htext
    · exact .device htext
  · rintro (h | h | h | h | h | ⟨hlocal, h, hhost, hhost', hport⟩)
    · exact .inl (.inl (.inl (.inl ⟨_, h, .inl rfl⟩)))
    · exact .inl (.inl (.inl (.inr h)))
    · exact .inl (.inl (.inr ⟨_, h, rfl⟩))
    · exact .inl (.inr ⟨_, h, rfl⟩)
    · exact .inr ⟨_, h, rfl⟩
    · exact .inl (.inl (.inl (.inl ⟨_, h, .inr ⟨hlocal, _, _, _, hhost, hhost', hport⟩⟩)))

theorem mem_listedItem {key item : Bytes} {value : Option Bytes} {sanitize : Bool}
    (h : item ∈ listedItem key value sanitize) :
    ∃ text, value = some text ∧ text ≠ [] ∧ item = key ++ text.map (shown sanitize) := by
  unfold listedItem at h
  split at h
  · cases h
  · cases h
  · rename_i text hempty
    refine ⟨text, rfl, hempty, ?_⟩
    rw [List.mem_singleton.mp h, List.append_cancel_left_eq]
    apply List.map_congr_left
    intro c _
    rw [shown]
    cases sanitize with
    | true =>
        cases isAlnum c with
        | true => rfl
        | false => rfl
    | false => rfl

theorem targetText_of_mem_listedItem {key item : Bytes} {value : Option Bytes} {sanitize : Bool}
    (hkey : 0 ∉ key) (hvalue : ∀ text ∈ value, 0 ∉ text)
    (h : item ∈ listedItem key value sanitize) : item ≠ [] ∧ 0 ∉ item := by
  obtain ⟨text, rfl, hnonempty, rfl⟩ := mem_listedItem h
  have htext := hvalue text rfl
  constructor
  · intro hnil
    exact hnonempty (List.map_eq_nil_iff.mp (List.append_eq_nil_iff.mp hnil).2)
  · intro hzero
    rcases List.mem_append.mp hzero with hzero | hzero
    · exact hkey hzero
    · obtain ⟨c, hc, hzero⟩ := List.mem_map.mp hzero
      exact shown_ne_zero sanitize (fun hc0 => htext (hc0 ▸ hc)) hzero

theorem isTarget_of_mem_listedItems {item : Bytes} (hstrings : CStrings texts)
    (h : item ∈ listedItems texts) :
    IsTarget parseNetAddress type texts item ∧ item ≠ [] ∧ 0 ∉ item := by
  rw [listedItems, List.mem_append, List.mem_append, List.mem_append] at h
  rcases h with ((h | h) | h) | h
  · obtain ⟨text, htext, -, rfl⟩ := mem_listedItem h
    refine ⟨?_, targetText_of_mem_listedItem (by simp) (hstrings _ (by simp)) h⟩
    rw [List.nil_append, shown_false]
    exact .devpath htext
  · obtain ⟨text, htext, -, rfl⟩ := mem_listedItem h
    refine ⟨?_, targetText_of_mem_listedItem (by decide) (hstrings _ (by simp)) h⟩
    rw [shown_false]
    exact .product htext
  · obtain ⟨text, htext, -, rfl⟩ := mem_listedItem h
    refine ⟨?_, targetText_of_mem_listedItem (by decide) (hstrings _ (by simp)) h⟩
    rw [shown_true]
    exact .model htext
  · obtain ⟨text, htext, -, rfl⟩ := mem_listedItem h
    refine ⟨?_, targetText_of_mem_listedItem (by decide) (hstrings _ (by simp)) h⟩
    rw [shown_false]
    exact .device htext

theorem transportInfo_eq (key : Bytes) (value : Option Bytes) (sanitize : Bool) :
    transportInfo key value sanitize = (listedItem key value sanitize).flatMap (32 :: ·) := by
  rcases value with - | - | ⟨b, text⟩
  · rfl
  · rfl
  · simp [transportInfo, listedItem]

theorem transportLine_long (host : Surroundings) (t : TransportRef) :
    transportLine host true t =
      padded (listedSerial (host.texts t)) ++ 32 :: connectionStateName host t ++
        (listedItems (host.texts t)).flatMap (32 :: ·) ++ [10] := by
  rw [transportLine, listedItems]
  simp only [if_true, transportInfo_eq, List.flatMap_append, List.append_assoc]
  rfl

theorem matchesTarget_serial {serial : Bytes} (h : texts.serial = some serial) :
    matchesTarget parseNetAddress type texts serial = true := by
  simp [matchesTarget, h]

theorem matchesTarget_devpath {devpath : Bytes} (h : texts.devpath = some devpath) :
    matchesTarget parseNetAddress type texts devpath = true := by
  simp [matchesTarget, h]

end

/-- The targets of a transport are the documented ones, and what the long listing
shows of a transport can be used to ask for it. -/
theorem targets_exact (parseNetAddress : ParseNetAddress) (host : Surroundings)
    (t : TransportRef) (hstrings : CStrings (host.texts t)) :
    let type := (host.server.transports t).type
    let texts := host.texts t
    let matched := fun target => matchesTarget parseNetAddress type texts target = true
    (∀ target, target ≠ [] → 0 ∉ target →
      (matched target ↔ IsTarget parseNetAddress type texts target)) ∧
    (∀ serial ∈ texts.serial, serial ≠ [] → matched serial) ∧
    (∀ devpath ∈ texts.devpath, matched devpath) ∧
    (∀ item ∈ listedItems texts, matched item) ∧
    transportLine host true t =
      padded (listedSerial texts) ++ 32 :: connectionStateName host t ++
        (listedItems texts).flatMap (32 :: ·) ++ [10] := by
  refine ⟨?_, ?_, ?_, ?_, transportLine_long host t⟩
  · intro target hnonempty htarget
    exact matchesTarget_iff parseNetAddress _ hstrings hnonempty htarget
  · intro serial hserial _
    exact matchesTarget_serial hserial
  · intro devpath hdevpath
    exact matchesTarget_devpath hdevpath
  · intro item hitem
    obtain ⟨htarget, hnonempty, hzero⟩ := isTarget_of_mem_listedItems hstrings hitem
    exact (matchesTarget_iff parseNetAddress _ hstrings hnonempty hzero).mpr htarget

/-- `ParseNetAddress` on host names with an optional port. -/
def plainAddress : ParseNetAddress := fun address =>
  some (address.takeWhile (· ≠ 58),
    if 58 ∈ address then some (digitsValue 10 0 ((address.dropWhile (· ≠ 58)).drop 1)) else none)

/-- A phone that is connected over the network. -/
noncomputable def phoneHost : Surroundings where
  cfg :=
    { host := true
      authRequired := true
      adbdAuthVerify := fun _ _ => false
      matchesTarget := fun _ _ => false
      noPermText := []
      vendorKeys := none
      connectionString := [] }
  server := { Server.initial with transports := fun _ => .blank .device .localTransport }
  texts := fun _ =>
    ⟨some (ascii "10.0.0.2:5555"), none, some (ascii "bullhead"), some (ascii "Nexus 5X"), none, ∅⟩
  traversal := Banners.someTraversal
  shouldUseLibusb := false
  usbNoPermissionsShortHelpText := []
  parseNetAddress := fun _ => .error []
  socketSpecListen := fun _ => .error []

theorem cStrings_phoneHost : CStrings (phoneHost.texts 0) := by
  change ∀ field ∈ [some (ascii "10.0.0.2:5555"), none, some (ascii "bullhead"),
    some (ascii "Nexus 5X"), none], ∀ text ∈ field, (0 : UInt8) ∉ text
  simp only [List.mem_cons, List.not_mem_nil, or_false]
  rintro field (rfl | rfl | rfl | rfl | rfl) text htext <;> cases htext <;> decide

theorem targets_exact_phone :
    CStrings (phoneHost.texts 0) ∧
      matchesTarget plainAddress .localTransport (phoneHost.texts 0) (ascii "model:Nexus_5X") =
        true ∧
      matchesTarget plainAddress .localTransport (phoneHost.texts 0) (ascii "tcp:10.0.0.2") =
        true := by
  obtain ⟨hexact, -, -, hitems, -⟩ := targets_exact plainAddress phoneHost 0 cStrings_phoneHost
  refine ⟨cStrings_phoneHost, hitems (ascii "model:Nexus_5X") ?_, ?_⟩
  · change _ ∈ [ascii "product:bullhead", ascii "model:Nexus_5X"]
    exact List.mem_cons_of_mem _ List.mem_cons_self
  · apply (hexact (ascii "tcp:10.0.0.2") (by decide) (by decide)).mpr
    exact .address rfl rfl (show plainAddress (ascii "10.0.0.2:5555") =
      some (ascii "10.0.0.2", some 5555) by decide) (show _ = some (_, none) by decide) (.inr rfl)

end Adb.TransportTargets
