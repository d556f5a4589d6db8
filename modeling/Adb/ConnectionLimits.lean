import Adb.WirePackets
import Mathlib.Algebra.Group.Int.Defs
import Mathlib.Algebra.Group.Nat.Defs

/-!
The two values of an `atransport` that a CNXN negotiates.  They never exceed
the constants of the endpoint that holds them.
-/

namespace Adb.ConnectionLimits

open Adb.WirePackets

/-- The constants compiled into an endpoint: `A_VERSION` is an `int` and
`MAX_PAYLOAD` a `size_t`. -/
structure Build where
  version : Int
  maxPayload : Nat
  isInt : -2 ^ 31 ≤ version ∧ version < 2 ^ 31
  isSize : maxPayload < 2 ^ 64
  deriving DecidableEq, Repr

/-- The constants of adb.h. -/
def adbBuild : Build where
  version := 0x01000000
  maxPayload := maxPayloadConst
  isInt := by decide
  isSize := by decide

structure Limits (build : Build) where
  protocolVersion : Int
  maxPayload : Nat
  version_le : protocolVersion ≤ build.version
  payload_le : maxPayload ≤ build.maxPayload
  deriving DecidableEq, Repr

namespace Limits

variable {build : Build}

/-- The constructor of `atransport`. -/
def initial (build : Build) : Limits build where
  protocolVersion := build.version
  maxPayload := build.maxPayload
  version_le := Int.le_refl _
  payload_le := Nat.le_refl _

def updateVersion (build : Build) (version : Int) (payload : Nat) : Limits build where
  protocolVersion := min version build.version
  maxPayload := min payload build.maxPayload
  version_le := Int.min_le_right _ _
  payload_le := Nat.min_le_right _ _

@[ext] theorem ext {left right : Limits build}
    (hversion : left.protocolVersion = right.protocolVersion)
    (hpayload : left.maxPayload = right.maxPayload) : left = right := by
  cases left
  cases right
  simp_all

end Limits

end Adb.ConnectionLimits
