import Adb.DescriptorIo
import Adb.LoopTermination
import Adb.Numerals
import Adb.WirePackets

/-!
The scan for the `adb` interfaces of USB devices: the loop over the descriptors of
a device ends, unless it comes to one that claims to have no length.
-/

namespace Adb.UsbScan

open Adb.DescriptorIo
open Adb.LoopTermination
open Adb.Numerals
open Adb.WirePackets

def deviceSize : Nat := 18

def configSize : Nat := 9

def interfaceSize : Nat := 9

def endpointSize : Nat := 7

def companionSize : Nat := 6

def typeDevice : UInt8 := 1

def typeConfig : UInt8 := 2

def typeInterface : UInt8 := 4

def typeEndpoint : UInt8 := 5

def typeCompanion : UInt8 := 0x30

def transferBulk : UInt8 := 2

def directionMask : UInt8 := 0x80

def isAdbInterface (usbClass usbSubclass usbProtocol : UInt8) : Bool :=
  usbClass = 0xff && usbSubclass = 0x42 && usbProtocol = 1

/-- An open device: `devdesc` with the memory behind it, what `unix_read` returned, and
the target of the device's link in `/sys/dev/char`, if it is a character device that has one. -/
structure Device where
  devdesc : Nat → UInt8
  count : Int
  link : Option Bytes

section

variable (d : Device) (o : Nat)

def Device.desclength : Nat := (d.count % 2 ^ 64).toNat

def Device.length : UInt8 := d.devdesc o

def Device.type : UInt8 := d.devdesc (o + 1)

def Device.bInterfaceNumber : UInt8 := d.devdesc (o + 2)

def Device.bNumEndpoints : UInt8 := d.devdesc (o + 4)

def Device.bInterfaceClass : UInt8 := d.devdesc (o + 5)

def Device.bInterfaceSubClass : UInt8 := d.devdesc (o + 6)

def Device.bInterfaceProtocol : UInt8 := d.devdesc (o + 7)

def Device.bEndpointAddress : UInt8 := d.devdesc (o + 2)

def Device.bmAttributes : UInt8 := d.devdesc (o + 3)

def Device.wMaxPacketSize : Nat := (d.devdesc (o + 4)).toNat + 256 * (d.devdesc (o + 5)).toNat

def Device.iSerialNumber : UInt8 := d.devdesc 16

def Device.ForAdb : Prop :=
  d.bNumEndpoints o = 2 ∧
    isAdbInterface (d.bInterfaceClass o) (d.bInterfaceSubClass o) (d.bInterfaceProtocol o) = true

def Device.skipCompanion : Nat :=
  if ((o + 2 : Nat) : Int) ≤ d.count ∧ d.length o = UInt8.ofNat companionSize ∧
      d.type o = typeCompanion then
    o + companionSize
  else o

/-- Where the second endpoint of the interface at `o` is looked for. -/
def Device.secondEndpoint : Nat := d.skipCompanion (o + interfaceSize + endpointSize)

/-- The end of both endpoints of the interface at `o`. -/
def Device.endpointsEnd : Nat := d.skipCompanion (d.secondEndpoint o + endpointSize)

def Device.IsEndpoint : Prop := d.length o = UInt8.ofNat endpointSize ∧ d.type o = typeEndpoint

def Device.EndpointsFound : Prop :=
  (d.endpointsEnd o : Int) ≤ d.count ∧ d.IsEndpoint (o + interfaceSize) ∧
    d.IsEndpoint (d.secondEndpoint o)

def Device.BothBulk : Prop :=
  d.bmAttributes (o + interfaceSize) = transferBulk ∧
    d.bmAttributes (d.secondEndpoint o) = transferBulk

instance : Decidable (d.ForAdb o) := inferInstanceAs (Decidable (_ ∧ _))

instance : Decidable (d.IsEndpoint o) := inferInstanceAs (Decidable (_ ∧ _))

instance : Decidable (d.EndpointsFound o) := inferInstanceAs (Decidable (_ ∧ _ ∧ _))

instance : Decidable (d.BothBulk o) := inferInstanceAs (Decidable (_ ∧ _))

end

structure Match where
  interface : Nat
  ep1 : Nat
  ep2 : Nat
  deriving DecidableEq, Repr

/-- The loop over the descriptors, from `bufptr`. -/
def scanStep (d : Device) (bufptr : Nat) : Nat ⊕ Option Match :=
  if d.count ≤ bufptr then .inr none
  else if d.type bufptr = typeInterface then
    if d.length bufptr ≠ UInt8.ofNat interfaceSize then .inr none
    else if d.ForAdb bufptr then
      if ¬ d.EndpointsFound bufptr then .inr none
      else if ¬ d.BothBulk bufptr then .inl (d.endpointsEnd bufptr)
      else .inr (some ⟨bufptr, bufptr + interfaceSize, d.secondEndpoint bufptr⟩)
    else .inl (bufptr + interfaceSize)
  else .inl (bufptr + (d.length bufptr).toNat)

/-- The device and the configuration descriptor stand first. -/
def Device.HasHeader (d : Device) : Prop :=
  deviceSize + configSize ≤ d.desclength ∧
    (d.length 0 = UInt8.ofNat deviceSize ∧ d.type 0 = typeDevice) ∧
    (d.length deviceSize = UInt8.ofNat configSize ∧ d.type deviceSize = typeConfig)

instance (d : Device) : Decidable d.HasHeader := inferInstanceAs (Decidable (_ ∧ _ ∧ _))

/-- What is done with one device after it was opened. -/
def scan (fuel : Nat) (d : Device) : Option (Option Match) :=
  if d.HasHeader then loop (scanStep d) fuel (deviceSize + configSize) else some none

/-- The arguments of `register_device_callback`. -/
structure Registration where
  devName : Bytes
  devpath : Option Bytes
  epIn : UInt8
  epOut : UInt8
  interfaceNumber : UInt8
  serialIndex : UInt8
  zeroMask : Nat
  maxPacketSize : Nat
  deriving DecidableEq, Repr

/-- What follows the last slash of the link, in a buffer of 128 bytes. -/
def Device.devpath (d : Device) : Option Bytes := do
  let target := cString (← d.link)
  if 47 ∈ target then
    some ((ascii "usb:" ++ (target.reverse.takeWhile (· ≠ 47)).reverse).take 127)
  else none

def register (devName : Bytes) (d : Device) (m : Match) : Registration :=
  let terminated := d.bInterfaceProtocol m.interface = 1
  let firstIn := d.bEndpointAddress m.ep1 &&& directionMask ≠ 0
  { devName := devName
    devpath := d.devpath
    epIn := if firstIn then d.bEndpointAddress m.ep1 else d.bEndpointAddress m.ep2
    epOut := if firstIn then d.bEndpointAddress m.ep2 else d.bEndpointAddress m.ep1
    interfaceNumber := d.bInterfaceNumber m.interface
    serialIndex := d.iSerialNumber
    zeroMask := if terminated then (d.wMaxPacketSize m.ep1 + (2 ^ 32 - 1)) % 2 ^ 32 else 0
    maxPacketSize := if terminated then d.wMaxPacketSize m.ep1 else 0 }

def containsNonDigit (name : Bytes) : Bool := (cString name).any fun c => (digitValue 10 c).isNone

/-- A file in the directory of a bus; `device` is what opening it gives. -/
structure DeviceFile where
  name : Bytes
  known : Bool
  device : Option Device

/-- The devices that are scanned, with their names; a bus whose directory cannot be opened
has no files. -/
def scannedDevices (base : Bytes) (buses : List (Bytes × List DeviceFile)) :
    List (Bytes × Device) :=
  (buses.filter fun bus => !containsNonDigit bus.1).flatMap fun (bus, files) =>
    (files.filter fun file => !containsNonDigit file.name && !file.known).filterMap fun file =>
      file.device.map fun d => (base ++ ascii "/" ++ bus ++ ascii "/" ++ file.name, d)

def findUsbDevice (fuel : Nat) (base : Bytes) (buses : List (Bytes × List DeviceFile)) :
    Option (List Registration) := do
  let results ← (scannedDevices base buses).mapM fun (devName, d) =>
    (scan fuel d).map fun m => m.map (register devName d)
  return results.filterMap id

/-- The descriptor at `o'` is looked at after the one at `o`: the lengths of the
descriptors lead from one to the next, and the endpoints of an interface for `adb` are
looked at together with it. -/
inductive Device.Follows (d : Device) (o : Nat) : Nat → Prop where
  | other (hread : (o : Int) < d.count) (htype : d.type o ≠ typeInterface) :
      d.Follows o (o + (d.length o).toNat)
  | interface (hread : (o : Int) < d.count) (htype : d.type o = typeInterface)
      (hlength : d.length o = UInt8.ofNat interfaceSize) (hadb : ¬ d.ForAdb o) :
      d.Follows o (o + interfaceSize)
  | endpoints (hread : (o : Int) < d.count) (htype : d.type o = typeInterface)
      (hlength : d.length o = UInt8.ofNat interfaceSize) (hadb : d.ForAdb o)
      (hfound : d.EndpointsFound o) (hbulk : ¬ d.BothBulk o) : d.Follows o (d.endpointsEnd o)

def Device.Listed (d : Device) (o : Nat) : Prop :=
  d.HasHeader ∧ Relation.ReflTransGen d.Follows (deviceSize + configSize) o

/-- The descriptors lie inside the bytes that were read. -/
def Device.Covers (d : Device) (m : Match) : Prop :=
  ((m.interface + interfaceSize : Nat) : Int) ≤ d.count ∧
    ((m.ep1 + endpointSize : Nat) : Int) ≤ d.count ∧
    ((m.ep2 + endpointSize : Nat) : Int) ≤ d.count

section

variable {d : Device} {o o' : Nat} {m : Match}

theorem scanStep_eq_inl_iff : scanStep d o = .inl o' ↔ d.Follows o o' := by
  constructor
  · intro h
    rw [scanStep] at h
    split at h
    · cases h
    · next hread =>
        rw [Int.not_le] at hread
        split at h
        · next htype =>
            split at h
            · cases h
            · next hlength =>
                rw [not_not] at hlength
                split at h
                · next hadb =>
                    split at h
                    · cases h
                    · next hfound =>
                        rw [not_not] at hfound
                        split at h
                        · next hbulk =>
                            cases h
                            exact .endpoints hread htype hlength hadb hfound hbulk
                        · cases h
                · next hadb =>
                    cases h
                    exact .interface hread htype hlength hadb
        · next htype =>
            cases h
            exact .other hread htype
  · intro h
    cases h with
    | other hread htype => rw [scanStep, if_neg (Int.not_le.mpr hread), if_neg htype]
    | interface hread htype hlength hadb =>
        rw [scanStep, if_neg (Int.not_le.mpr hread), if_pos htype, if_neg (not_not.mpr hlength),
          if_neg hadb]
    | endpoints hread htype hlength hadb hfound hbulk =>
        rw [scanStep, if_neg (Int.not_le.mpr hread), if_pos htype, if_neg (not_not.mpr hlength),
          if_pos hadb, if_neg (not_not.mpr hfound), if_pos hbulk]

theorem goesTo_scanStep (d : Device) : GoesTo (scanStep d) = d.Follows := by
  funext o o'
  exact propext scanStep_eq_inl_iff

theorem le_skipCompanion (d : Device) (o : Nat) : o ≤ d.skipCompanion o := by
  rw [Device.skipCompanion]
  split
  · exact Nat.le_add_right o companionSize
  · exact Nat.le_refl o

theorem secondEndpoint_le (d : Device) (o : Nat) :
    o + interfaceSize + endpointSize ≤ d.secondEndpoint o := le_skipCompanion d _

theorem endpointsEnd_le (d : Device) (o : Nat) :
    d.secondEndpoint o + endpointSize ≤ d.endpointsEnd o := le_skipCompanion d _

theorem Device.Follows.advances (h : d.Follows o o') :
    (o : Int) < d.count ∧ o ≤ o' ∧ (o' = o ↔ d.type o ≠ typeInterface ∧ d.length o = 0) := by
  cases h with
  | other hread htype =>
      refine ⟨hread, Nat.le_add_right _ _, ?_⟩
      rw [and_iff_right htype, Nat.add_eq_left, ← UInt8.toNat_inj]
      rfl
  | interface hread htype hlength hadb =>
      refine ⟨hread, Nat.le_add_right _ _, iff_of_false ?_ fun h => h.1 htype⟩
      rw [interfaceSize]
      omega
  | endpoints hread htype hlength hadb hfound hbulk =>
      have hsecond := secondEndpoint_le d o
      have hend := endpointsEnd_le d o
      rw [interfaceSize, endpointSize] at hsecond
      rw [endpointSize] at hend
      exact ⟨hread, by omega, iff_of_false (by omega) fun h => h.1 htype⟩

theorem follows_self_iff :
    d.Follows o o ↔ (o : Int) < d.count ∧ d.type o ≠ typeInterface ∧ d.length o = 0 := by
  constructor
  · intro h
    exact ⟨h.advances.1, h.advances.2.2.mp rfl⟩
  · rintro ⟨hread, htype, hlength⟩
    have hfollows := Device.Follows.other hread htype
    rw [hlength] at hfollows
    exact hfollows

theorem scanStep_eq_inr_some (h : scanStep d o = .inr (some m)) : d.Covers m := by
  rw [scanStep] at h
  split at h
  · cases h
  split at h
  · split at h
    · cases h
    split at h
    · split at h
      · cases h
      · next hfound =>
          split at h
          · cases h
          · cases h
            rw [not_not] at hfound
            have hcount := hfound.1
            have hsecond := secondEndpoint_le d o
            have hend := endpointsEnd_le d o
            rw [Device.Covers]
            dsimp only
            rw [interfaceSize, endpointSize] at hsecond ⊢
            rw [endpointSize] at hend
            omega
    · cases h
  · cases h

theorem covers_of_scan {fuel : Nat} (h : scan fuel d = some (some m)) : d.Covers m := by
  rw [scan] at h
  split at h
  · obtain ⟨o, -, hstop⟩ := exists_of_loop h trivial fun _ _ _ _ => trivial
    exact scanStep_eq_inr_some hstop
  · cases h

theorem exists_scan_iff (d : Device) :
    (∃ fuel result, scan fuel d = some result) ↔
      ∀ o, d.Listed o → (o : Int) < d.count → d.type o ≠ typeInterface → d.length o ≠ 0 := by
  unfold scan Device.Listed
  by_cases hheader : d.HasHeader
  · simp only [hheader, if_true, true_and]
    rw [exists_loop_iff fun o : Nat => (d.count - o).toNat]
    · rw [goesTo_scanStep]
      refine forall_congr' fun o => imp_congr_right fun _ => ?_
      rw [Ne, scanStep_eq_inl_iff, follows_self_iff]
      tauto
    · intro o o' hstep hne
      have hfollows := (scanStep_eq_inl_iff.mp hstep).advances
      omega
  · exact iff_of_true ⟨0, none, if_neg hheader⟩ fun o h => absurd h.1 hheader

end

/-- The loop over the descriptors of a device ends, with a match inside the bytes that
were read or with none, exactly when none of the descriptors that are looked at has the
length zero; an interface descriptor may, since the loop checks the length of these. -/
theorem scan_ends_iff (d : Device) :
    (∃ fuel result, scan fuel d = some result ∧ ∀ m, result = some m → d.Covers m) ↔
      ∀ o, d.Listed o → (o : Int) < d.count → d.type o ≠ typeInterface → d.length o ≠ 0 := by
  rw [← exists_scan_iff]
  constructor
  · rintro ⟨fuel, result, h, -⟩
    exact ⟨fuel, result, h⟩
  · rintro ⟨fuel, result, h⟩
    refine ⟨fuel, result, h, ?_⟩
    rintro m rfl
    exact covers_of_scan h

/-- A configuration that is followed by a descriptor without a length. -/
def emptyDescriptor : Device where
  devdesc o := ([18, 1, 0, 2, 0, 0, 0, 64, 0xd1, 0x18, 0xe7, 0x4e, 0, 0, 1, 2, 3, 1,
    9, 2, 11, 0, 1, 1, 0, 0x80, 50, 0, 0x24] : Bytes).getD o 0
  count := 29
  link := none

theorem emptyDescriptor_hangs : ¬ ∀ d : Device, ∃ fuel result, scan fuel d = some result ∧
    ∀ m, result = some m → d.Covers m := by
  intro h
  obtain ⟨fuel, result, hscan, -⟩ := h emptyDescriptor
  have hheader : emptyDescriptor.HasHeader := by decide
  have hstuck : scanStep emptyDescriptor (deviceSize + configSize) =
      .inl (deviceSize + configSize) := by decide
  rw [scan, if_pos hheader, loop_of_stuck .refl hstuck] at hscan
  cases hscan

section

variable {base : Bytes} {buses : List (Bytes × List DeviceFile)}

theorem scan_mono {d : Device} {fuel fuel' : Nat} {result : Option Match}
    (h : scan fuel d = some result) (hle : fuel ≤ fuel') : scan fuel' d = some result := by
  rw [scan] at h ⊢
  split
  · next hheader =>
      rw [if_pos hheader] at h
      exact loop_mono h hle
  · next hheader =>
      rw [if_neg hheader] at h
      exact h

theorem findUsbDevice_ends_iff :
    (∃ fuel registrations, findUsbDevice fuel base buses = some registrations) ↔
      ∀ x ∈ scannedDevices base buses, ∃ fuel result, scan fuel x.2 = some result := by
  have hmapM := exists_mapM_iff (fun fuel (x : Bytes × Device) =>
    (scan fuel x.2).map fun m => m.map (register x.1 x.2)) ?_ (scannedDevices base buses)
  · simp only [Option.map_eq_some_iff] at hmapM
    simp only [findUsbDevice, Option.bind_eq_bind, Option.bind_eq_some_iff, Option.pure_def]
    constructor
    · rintro ⟨fuel, -, results, hresults, -⟩ x hx
      obtain ⟨fuel, _, result, hresult, -⟩ := hmapM.mp ⟨fuel, results, hresults⟩ x hx
      exact ⟨fuel, result, hresult⟩
    · intro h
      obtain ⟨fuel, results, hresults⟩ := hmapM.mpr fun x hx => by
        obtain ⟨fuel, result, hresult⟩ := h x hx
        exact ⟨fuel, _, result, hresult, rfl⟩
      exact ⟨fuel, _, results, hresults, rfl⟩
  · intro x y fuel fuel' h hle
    obtain ⟨result, hresult, rfl⟩ := Option.map_eq_some_iff.mp h
    exact Option.map_eq_some_iff.mpr ⟨result, scan_mono hresult hle, rfl⟩

/-- Every registered device has its interface and both endpoints inside the bytes that were
read from it. -/
theorem covers_of_findUsbDevice {fuel : Nat} {registrations : List Registration}
    (h : findUsbDevice fuel base buses = some registrations) :
    ∀ registration ∈ registrations, ∃ x ∈ scannedDevices base buses, ∃ m,
      x.2.Covers m ∧ registration = register x.1 x.2 m := by
  intro registration hmem
  obtain ⟨results, hresults, hfilter⟩ := Option.bind_eq_some_iff.mp h
  cases hfilter
  rw [List.mem_filterMap] at hmem
  obtain ⟨_, hmem, rfl⟩ := hmem
  obtain ⟨x, hx, hresult⟩ := mem_of_mapM hresults hmem
  obtain ⟨result, hscan, hregister⟩ := Option.map_eq_some_iff.mp hresult
  obtain ⟨m, rfl, rfl⟩ := Option.map_eq_some_iff.mp hregister
  exact ⟨x, hx, m, covers_of_scan hscan, rfl⟩

end

end Adb.UsbScan
