import Adb.SmartSockets
import Mathlib.Data.List.TakeWhile

/-!
The serial in a `host-serial:` request.  `format_host_command` joins a serial
and a command with a colon, and both may hold colons themselves.
-/

namespace Adb.HostSerials

open Adb.DescriptorIo
open Adb.SmartSockets
open Adb.SocketTable
open Adb.WirePackets

inductive Protocol where
  | tcp
  | udp
  deriving DecidableEq, Repr

def Protocol.text : Protocol → Bytes
  | tcp => ascii "tcp:"
  | udp => ascii "udp:"

/-- The prefixes with which a device is named by one of its properties. -/
inductive Property where
  | usb
  | product
  | model
  | device
  deriving DecidableEq, Repr

def Property.text : Property → Bytes
  | usb => ascii "usb:"
  | product => ascii "product:"
  | model => ascii "model:"
  | device => ascii "device:"

/-- What a name may not be when no protocol comes before it. -/
def reservedNames : List Bytes :=
  [ascii "tcp", ascii "udp", ascii "usb", ascii "product", ascii "model", ascii "device"]

/-- The address of a device, after `protocol`. -/
inductive IsAddress (protocol : Option Protocol) : Bytes → Prop
  | bracketed (inside : Bytes) (hinside : 93 ∉ inside) : IsAddress protocol (91 :: inside ++ [93])
  | name (text : Bytes) (hcolon : 58 ∉ text) (hbracket : text.head? ≠ some 91)
      (hreserved : protocol = none → text ∉ reservedNames) : IsAddress protocol text

def IsPort (digits : Bytes) : Prop := digits ≠ [] ∧ ∀ b ∈ digits, isDigit b = true

structure NetworkSerial where
  protocol : Option Protocol
  address : Bytes
  port : Option Bytes
  isAddress : IsAddress protocol address
  isPort : ∀ digits ∈ port, IsPort digits

structure PropertySerial where
  property : Property
  value : Bytes
  noColon : 58 ∉ value

/-- The documented forms of a serial. -/
inductive Serial where
  | network (serial : NetworkSerial)
  | property (serial : PropertySerial)

def portText (port : Option Bytes) : Bytes :=
  match port with
  | some digits => 58 :: digits
  | none => []

def protocolText (protocol : Option Protocol) : Bytes :=
  match protocol with
  | some protocol => protocol.text
  | none => []

def Serial.text : Serial → Bytes
  | network serial => protocolText serial.protocol ++ serial.address ++ portText serial.port
  | property serial => serial.property.text ++ serial.value

def Serial.HasPort : Serial → Prop
  | network serial => serial.port ≠ none
  | property _ => False

/-- The command starts like a port and the colon after it. -/
def StartsWithPort (command : Bytes) : Prop :=
  ∃ digits rest, IsPort digits ∧ command = digits ++ 58 :: rest

/-- A command that cannot be taken for the port of the serial. -/
def Serial.Allows : Serial → Bytes → Prop
  | network serial, command => serial.port = none → ¬ StartsWithPort command
  | property _, _ => True

def formatHostCommand (command : Bytes) (type : TransportType) (serial : Option Bytes) : Bytes :=
  match serial with
  | some serial => ascii "host-serial:" ++ serial ++ 58 :: command
  | none =>
      match type with
      | .usb => ascii "host-usb:" ++ command
      | .localTransport => ascii "host-local:" ++ command
      | _ => ascii "host:" ++ command

section

variable {text rest front : Bytes} {c : UInt8}

theorem strchr_append (h : c ∉ text) (rest : Bytes) :
    strchr (text ++ c :: rest) c = some text.length := by
  induction text with
  | nil => simp [strchr, List.findIdx?_cons]
  | cons b text ih =>
      rw [List.mem_cons, not_or] at h
      have hb : (b == c) = false := beq_eq_false_iff_ne.mpr (Ne.symm h.1)
      have htail := ih h.2
      rw [strchr] at htail ⊢
      rw [List.cons_append, List.findIdx?_cons, hb, htail]
      rfl

theorem strchr_of_not_mem (h : c ∉ text) : strchr text c = none := by
  rw [strchr, List.findIdx?_eq_none_iff]
  intro b hb
  apply beq_eq_false_iff_ne.mpr
  rintro rfl
  exact h hb

theorem takeWhile_digits {digits : Bytes} (hdigits : ∀ b ∈ digits, isDigit b = true)
    (rest : Bytes) : (digits ++ 58 :: rest).takeWhile isDigit = digits := by
  rw [List.takeWhile_append_of_pos hdigits, List.takeWhile_cons_of_neg (by decide),
    List.append_nil]

theorem drop_to_colon (front text rest : Bytes) :
    (front ++ text ++ 58 :: rest).drop front.length = text ++ 58 :: rest := by
  rw [List.append_assoc, List.drop_left]

theorem drop_past_colon (front text rest : Bytes) :
    (front ++ text ++ 58 :: rest).drop (front.length + text.length + 1) = rest := by
  rw [← List.drop_drop, ← List.length_append, List.drop_left]
  rfl

/-- After a colon that starts a port, the serial ends at the next one. -/
theorem skipSerialFrom_port {digits : Bytes} (htext : 58 ∉ text) (hport : IsPort digits)
    (front rest : Bytes) :
    skipSerialFrom (front ++ text ++ 58 :: (digits ++ 58 :: rest)) front.length =
      some (front ++ text ++ 58 :: digits).length := by
  have hafter := drop_past_colon front text (digits ++ 58 :: rest)
  have hnext : (front ++ text ++ 58 :: (digits ++ 58 :: rest))[front.length + text.length + 1 +
      digits.length]? = some 58 := by
    rw [← List.getElem?_drop, hafter, List.getElem?_append_right (Nat.le_refl _), Nat.sub_self]
    rfl
  rw [skipSerialFrom, drop_to_colon, strchr_append htext]
  simp only [hafter, takeWhile_digits hport.2]
  rw [if_pos ⟨hport.1, hnext⟩]
  simp only [List.length_append, List.length_cons]
  congr 1
  omega

theorem skipSerialFrom_noPort (htext : 58 ∉ text) (hrest : ¬ StartsWithPort rest) (front : Bytes) :
    skipSerialFrom (front ++ text ++ 58 :: rest) front.length = some (front ++ text).length := by
  have hafter := drop_past_colon front text rest
  rw [skipSerialFrom, drop_to_colon, strchr_append htext]
  simp only [hafter]
  rw [if_neg, List.length_append]
  rintro ⟨hne, hnext⟩
  apply hrest
  rw [← List.getElem?_drop, hafter] at hnext
  refine ⟨rest.takeWhile isDigit, (rest.dropWhile isDigit).tail, ⟨hne, ?_⟩, ?_⟩
  · intro b hb
    exact List.mem_takeWhile_imp hb
  · have hsplit : rest.takeWhile isDigit ++ rest.dropWhile isDigit = rest :=
      List.takeWhile_append_dropWhile
    have hhead : (rest.takeWhile isDigit ++ rest.dropWhile isDigit)[
        (rest.takeWhile isDigit).length]? = some 58 := by
      rw [hsplit]
      exact hnext
    rw [List.getElem?_append_right (Nat.le_refl _), Nat.sub_self] at hhead
    cases hdrop : rest.dropWhile isDigit with
    | nil =>
        rw [hdrop] at hhead
        cases hhead
    | cons b tail =>
        rw [hdrop] at hhead hsplit
        cases hhead
        exact hsplit.symm

theorem skipSerialFrom_of_not_mem (htext : 58 ∉ text) (front : Bytes) :
    skipSerialFrom (front ++ text) front.length = none := by
  rw [skipSerialFrom, List.drop_left, strchr_of_not_mem htext]

theorem eq_of_isPrefixOf {word : Bytes} (hword : 58 ∉ word) (htext : 58 ∉ text)
    (h : (word ++ [58]).isPrefixOf (text ++ 58 :: rest) = true) : word = text := by
  obtain ⟨tail, htail⟩ := List.isPrefixOf_iff_prefix.mp h
  rw [List.append_assoc] at htail
  have hword' := strchr_append hword tail
  rw [show word ++ 58 :: tail = text ++ 58 :: rest from htail, strchr_append htext] at hword'
  have hlength : word.length = text.length := (Option.some.inj hword').symm
  exact (List.append_inj htail hlength).1

/-- What follows the test for a property and the protocol. -/
def skipAddress (service : Bytes) (start : Nat) : Option Nat :=
  if service[start]? = some 91 then
    match strchr (service.drop start) 93 with
    | some offset => skipSerialFrom service (start + offset)
    | none => skipSerialFrom service start
  else skipSerialFrom service start

theorem skipHostSerial_of_property (property : Property) (text : Bytes) :
    skipHostSerial (property.text ++ text) =
      (strchr text 58).map (· + property.text.length) := by
  cases property with
  | usb => rfl
  | product => rfl
  | model => rfl
  | device => rfl

theorem skipHostSerial_of_protocol (protocol : Protocol) (text : Bytes) :
    skipHostSerial (protocol.text ++ text) = skipAddress (protocol.text ++ text) 4 := by
  cases protocol with
  | tcp => rfl
  | udp => rfl

theorem skipHostSerial_of_plain (hproperty : ∀ property : Property,
    property.text.isPrefixOf text = false) (hprotocol : ∀ protocol : Protocol,
    protocol.text.isPrefixOf text = false) : skipHostSerial text = skipAddress text 0 := by
  have husb := hproperty .usb
  have hproduct := hproperty .product
  have hmodel := hproperty .model
  have hdevice := hproperty .device
  have htcp := hprotocol .tcp
  have hudp := hprotocol .udp
  simp only [Property.text] at husb hproduct hmodel hdevice
  simp only [Protocol.text] at htcp hudp
  rw [skipHostSerial]
  simp only [List.find?_cons, husb, hproduct, hmodel, hdevice, List.find?_nil, htcp, hudp]
  rfl

theorem skipAddress_eq {protocol : Option Protocol} {address : Bytes}
    (h : IsAddress protocol address) (front : Bytes) {tail : Bytes} (htail : tail.head? ≠ some 91) :
    ∃ front' text', 58 ∉ text' ∧ front ++ address = front' ++ text' ∧
      skipAddress (front ++ address ++ tail) front.length =
        skipSerialFrom (front' ++ text' ++ tail) front'.length := by
  have hdrop : (front ++ address ++ tail).drop front.length = address ++ tail := by
    rw [List.append_assoc, List.drop_left]
  have hhead : (front ++ address ++ tail)[front.length]? = (address ++ tail).head? := by
    rw [← hdrop, List.head?_drop]
  rw [skipAddress, hdrop, hhead]
  cases h with
  | bracketed inside hinside =>
      refine ⟨front ++ 91 :: inside, [93], by decide, by simp, ?_⟩
      have hopening : (93 : UInt8) ∉ 91 :: inside := by
        rw [List.mem_cons, not_or]
        exact ⟨by decide, hinside⟩
      have hsearch : strchr (91 :: inside ++ [93] ++ tail) 93 = some (inside.length + 1) := by
        rw [List.append_assoc]
        exact strchr_append hopening tail
      rw [hsearch]
      simp only [List.append_assoc, List.cons_append, List.head?_cons, if_true,
        List.length_append, List.length_cons]
  | name text hcolon hbracket hreserved =>
      refine ⟨front, address, hcolon, rfl, ?_⟩
      rw [if_neg]
      cases address with
      | nil => exact htail
      | cons b address => exact hbracket

theorem colon_not_mem_reserved {word : Bytes} (h : word ∈ reservedNames) : 58 ∉ word := by
  revert word
  decide

theorem head_reserved {word : Bytes} (h : word ∈ reservedNames) : word.head? ≠ some 91 := by
  revert word
  decide

theorem not_isPrefixOf_of_isAddress {address tail : Bytes} (h : IsAddress none address)
    (htail : tail = [] ∨ ∃ rest, tail = 58 :: rest) {word : Bytes} (hword : word ∈ reservedNames) :
    (word ++ [58]).isPrefixOf (address ++ tail) = false := by
  have hcolon' := colon_not_mem_reserved hword
  apply Bool.eq_false_iff.mpr
  intro hstart
  cases h with
  | bracketed inside hinside =>
      obtain ⟨more, hmore⟩ := List.isPrefixOf_iff_prefix.mp hstart
      cases word with
      | nil => cases hmore
      | cons b word =>
          apply head_reserved hword
          rw [List.cons_append, List.cons_append, List.cons_append, List.cons_append,
            List.cons.injEq] at hmore
          rw [hmore.1]
          rfl
  | name text hcolon hbracket hreserved =>
      rcases htail with rfl | ⟨rest, rfl⟩
      · apply hcolon
        obtain ⟨more, hmore⟩ := List.isPrefixOf_iff_prefix.mp hstart
        rw [List.append_nil] at hmore
        rw [← hmore]
        simp
      · apply hreserved rfl
        rw [← eq_of_isPrefixOf hcolon' hcolon hstart]
        exact hword

/-- The part of the search that follows the protocol, for every serial of a
network device. -/
theorem skipHostSerial_network (serial : NetworkSerial) {tail : Bytes}
    (htail : tail = [] ∨ ∃ rest, tail = 58 :: rest) :
    ∃ front text, 58 ∉ text ∧ protocolText serial.protocol ++ serial.address = front ++ text ∧
      skipHostSerial (protocolText serial.protocol ++ serial.address ++ tail) =
        skipSerialFrom (front ++ text ++ tail) front.length := by
  have hbracket : tail.head? ≠ some 91 := by
    rcases htail with rfl | ⟨rest, rfl⟩
    · exact fun h => nomatch h
    · exact fun h => nomatch h
  obtain ⟨front, text, htext, hsplit, hskip⟩ :=
    skipAddress_eq serial.isAddress (protocolText serial.protocol) hbracket
  refine ⟨front, text, htext, hsplit, ?_⟩
  rw [← hskip]
  have haddress := serial.isAddress
  cases hprotocol : serial.protocol with
  | none =>
      rw [hprotocol] at haddress
      have hplain := fun word (hword : word ∈ reservedNames) =>
        not_isPrefixOf_of_isAddress haddress htail hword
      apply skipHostSerial_of_plain
      · intro property
        cases property with
        | usb => exact hplain (ascii "usb") (by decide)
        | product => exact hplain (ascii "product") (by decide)
        | model => exact hplain (ascii "model") (by decide)
        | device => exact hplain (ascii "device") (by decide)
      · intro protocol
        cases protocol with
        | tcp => exact hplain (ascii "tcp") (by decide)
        | udp => exact hplain (ascii "udp") (by decide)
  | some protocol =>
      rw [List.append_assoc]
      have hlength : (protocolText (some protocol)).length = 4 := by
        cases protocol with
        | tcp => rfl
        | udp => rfl
      rw [hlength]
      exact skipHostSerial_of_protocol protocol _

theorem skipHostSerial_join (serial : Serial) {command : Bytes} (h : serial.Allows command) :
    skipHostSerial (serial.text ++ 58 :: command) = some serial.text.length := by
  cases serial with
  | property serial =>
      rw [Serial.text, List.append_assoc, skipHostSerial_of_property,
        strchr_append serial.noColon, Option.map_some, List.length_append, Nat.add_comm]
  | network serial =>
      cases hport : serial.port with
      | none =>
          obtain ⟨front, text, htext, hsplit, hskip⟩ :=
            skipHostSerial_network serial (.inr ⟨command, rfl⟩)
          rw [Serial.text, hport, portText, List.append_nil, hskip,
            skipSerialFrom_noPort htext (h hport), hsplit]
      | some digits =>
          obtain ⟨front, text, htext, hsplit, hskip⟩ :=
            skipHostSerial_network serial (.inr ⟨digits ++ 58 :: command, rfl⟩)
          rw [Serial.text, hport, portText, List.append_assoc, List.cons_append, hskip,
            skipSerialFrom_port htext (serial.isPort digits hport), hsplit]

theorem skipHostSerial_alone (serial : Serial) (h : ¬ serial.HasPort) :
    skipHostSerial serial.text = none := by
  cases serial with
  | property serial =>
      rw [Serial.text, skipHostSerial_of_property, strchr_of_not_mem serial.noColon]
      rfl
  | network serial =>
      have hport : serial.port = none := Decidable.not_not.mp h
      obtain ⟨front, text, htext, hsplit, hskip⟩ :=
        skipHostSerial_network serial (.inl rfl)
      rw [List.append_nil, List.append_nil] at hskip
      rw [Serial.text, hport, portText, List.append_nil, hskip,
        skipSerialFrom_of_not_mem htext]

theorem parseHostService_formatHostCommand {serial command : Bytes} (type : TransportType)
    (h : skipHostSerial (serial ++ 58 :: command) = some serial.length) :
    parseHostService (formatHostCommand command type (some serial)) =
      some ⟨.any, some serial, command⟩ := by
  have htext : formatHostCommand command type (some serial) =
      ascii "host-serial:" ++ (serial ++ 58 :: command) := List.append_assoc _ _ _
  have hstart : (ascii "host-serial:").isPrefixOf
      (ascii "host-serial:" ++ (serial ++ 58 :: command)) = true :=
    List.isPrefixOf_iff_prefix.mpr (List.prefix_append _ _)
  have hdrop : (ascii "host-serial:" ++ (serial ++ 58 :: command)).drop 12 =
      serial ++ 58 :: command := rfl
  have hcommand : (serial ++ 58 :: command).drop (serial.length + 1) = command := by
    rw [← List.drop_drop, List.drop_left]
    rfl
  rw [htext, parseHostService, if_pos hstart]
  simp only [hdrop, h, List.take_left, hcommand]

/-- The server splits off the serial and the command that the client joined. -/
theorem host_serial_recovered (serial : Serial) (command : Bytes) (type : TransportType)
    (h : serial.Allows command) :
    skipHostSerial (serial.text ++ 58 :: command) = some serial.text.length ∧
      parseHostService (formatHostCommand command type (some serial.text)) =
        some ⟨.any, some serial.text, command⟩ ∧
      (¬ serial.HasPort → skipHostSerial serial.text = none) :=
  ⟨skipHostSerial_join serial h,
    parseHostService_formatHostCommand type (skipHostSerial_join serial h),
    skipHostSerial_alone serial⟩

/-- The serial `tcp:[::1]:5555`. -/
def loopbackSerial : Serial := .network
  { protocol := some .tcp
    address := 91 :: ascii "::1" ++ [93]
    port := some (ascii "5555")
    isAddress := .bracketed (ascii "::1") (by decide)
    isPort := by
      rintro digits ⟨⟩
      exact ⟨by decide, List.all_eq_true.mp (by decide)⟩ }

theorem loopback_recovered :
    loopbackSerial.Allows (ascii "features") ∧
      parseHostService (ascii "host-serial:tcp:[::1]:5555:features") =
        some ⟨.any, some (ascii "tcp:[::1]:5555"), ascii "features"⟩ := by
  have hallows : loopbackSerial.Allows (ascii "features") := fun h => nomatch h
  exact ⟨hallows, (host_serial_recovered loopbackSerial (ascii "features") .any hallows).2.1⟩

end

end Adb.HostSerials
