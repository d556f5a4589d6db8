import Adb.DescriptorIo

/-! The messages that two adb endpoints exchange. -/

namespace Adb.WirePackets

open Adb.DescriptorIo

/-- The largest payload, `MAX_PAYLOAD` of adb.h. -/
def maxPayloadConst : Nat := 256 * 1024

/-- `MAX_PAYLOAD_V1`, the limit for connect and auth packets. -/
def maxPayloadV1 : Nat := 4 * 1024

/-- The command word of an `amessage`. -/
inductive Command where
  | aSync
  | aCnxn
  | aOpen
  | aOkay
  | aClse
  | aWrte
  | aAuth
  | other (code : Nat)
  deriving DecidableEq, Repr

/-- An `apacket` on the wire: the message header without the fields that
`send_packet` computes, and the payload of `data_length` bytes. -/
structure Apacket where
  command : Command
  arg0 : Nat
  arg1 : Nat
  data : Bytes
  deriving DecidableEq, Repr

/-- The bytes of a C string constant. -/
def ascii (s : String) : Bytes := s.toList.map fun c => UInt8.ofNat c.toNat

/-- The C string that starts a buffer: everything before the first NUL. -/
def cString (data : Bytes) : Bytes := data.takeWhile (· ≠ 0)

/-- What `snprintf(buf, 5, "%04x", n)` leaves in front of its NUL. -/
def hexHeader (n : Nat) : Bytes :=
  let digits := Nat.toDigits 16 n
  let padded := List.replicate (4 - digits.length) '0' ++ digits
  (padded.take 4).map fun c => UInt8.ofNat c.toNat

end Adb.WirePackets
