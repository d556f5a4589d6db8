import Adb.StoppingPrograms
import Adb.SyncTransfers

/-!
What every call on the client's machine keeps, `local_build_list` keeps, over
any connection.
-/

namespace Adb.TransferRules

open Adb.DescriptorIo
open Adb.StoppingPrograms
open Adb.SyncClient
open Adb.SyncTransfers

variable {σ : Type} {Kept Stopped : σ → Prop}

/-- The calls on the machine keep this, and so does a walk that goes too deep. -/
structure Keeps (c : LocalMachine (Program σ)) (Kept Stopped : σ → Prop) : Prop where
  ask : ∀ {α : Type} (answer : Nat → α) (s : σ), Kept s →
    Ensures (c.ask answer) s (fun _ => Kept) Stopped
  outOfDepth : ∀ (s : σ), Kept s →
    Ensures (c.outOfDepth : Program σ (Option (List CopyInfo))) s (fun _ => Kept) Stopped

variable {c : LocalMachine (Program σ)} {s : σ}

theorem Keeps.lstatEach (hc : Keeps c Kept Stopped) (hs : Kept s) (lpath rpath : Bytes)
    (names : List Bytes) :
    Ensures (lstatEach c lpath rpath names) s (fun _ => Kept) Stopped := by
  induction names generalizing s with
  | nil => exact ensures_pure hs
  | cons name names ih =>
      rw [SyncTransfers.lstatEach]
      refine (hc.ask _ s hs).bind ?_
      intro st s₁ hs₁
      refine (ih hs₁).bind ?_
      intro rest s₂ hs₂
      split
      · exact ensures_pure hs₂
      · split
        · exact ensures_pure hs₂
        · exact ensures_pure hs₂

theorem keeps_buildLocalDirs {build : Bytes → Bytes → Program σ (Option (List CopyInfo))}
    (hbuild : ∀ {s}, Kept s → ∀ lpath rpath,
      Ensures (build lpath rpath) s (fun _ => Kept) Stopped)
    (hs : Kept s) (dirs : List CopyInfo) :
    Ensures (buildLocalDirs build dirs) s (fun _ => Kept) Stopped := by
  induction dirs generalizing s with
  | nil => exact ensures_pure hs
  | cons ci dirs ih =>
      rw [buildLocalDirs]
      refine (hbuild hs ci.lpath ci.rpath).bind ?_
      intro found s₁ hs₁
      refine (ih hs₁).bind ?_
      intro rest s₂ hs₂
      exact ensures_pure hs₂

theorem Keeps.localBuildList (hc : Keeps c Kept Stopped) (depth : Nat) (hs : Kept s)
    (lpath rpath : Bytes) :
    Ensures (localBuildList c depth lpath rpath) s (fun _ => Kept) Stopped := by
  induction depth generalizing s lpath rpath with
  | zero => exact hc.outOfDepth s hs
  | succ depth ih =>
      rw [SyncTransfers.localBuildList]
      refine (hc.ask _ s hs).bind ?_
      intro names s₁ hs₁
      split
      · exact ensures_pure hs₁
      · simp only
        split
        · exact ensures_pure hs₁
        · refine (hc.lstatEach hs₁ lpath rpath _).bind ?_
          intro entries s₂ hs₂
          refine (keeps_buildLocalDirs (fun hs => ih hs) hs₂ entries.2).bind ?_
          intro rest s₃ hs₃
          exact ensures_pure hs₃

end Adb.TransferRules
