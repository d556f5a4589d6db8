import Mathlib.Data.List.Induction

/-!
Labelled transition systems with a next-state function, the states that can be
reached by steps that all meet a condition, and the invariant rule.
-/

namespace Adb.TransitionSystems

universe u v

structure System (State : Type u) (Label : Type v) where
  initial : State → Prop
  enabled : State → Label → Prop
  next : State → Label → State

namespace System

variable {State : Type u} {Label : Type v} (S : System State Label)

/-- The states that are reached from `start` when every step meets `condition`. -/
inductive ReachableFrom (condition : State → Label → Prop) (start : State) : State → Prop where
  | refl : ReachableFrom condition start start
  | step {st : State} {l : Label} (h : ReachableFrom condition start st)
      (henabled : S.enabled st l) (hcondition : condition st l) :
      ReachableFrom condition start (S.next st l)

/-- The states that are reached from an initial one. -/
def ReachableWhen (condition : State → Label → Prop) (st : State) : Prop :=
  ∃ start, S.initial start ∧ S.ReachableFrom condition start st

/-- The states that are reached by any steps. -/
def Reachable (st : State) : Prop := S.ReachableWhen (fun _ _ => True) st

variable {S} {condition : State → Label → Prop} {start st : State}

/-- What one step preserves, a run preserves. -/
theorem ReachableFrom.preserves (h : S.ReachableFrom condition start st)
    {I : State → Prop} (hstart : I start)
    (hstep : ∀ st l, I st → S.enabled st l → condition st l → I (S.next st l)) : I st := by
  induction h with
  | refl => exact hstart
  | step _ henabled hcondition ih => exact hstep _ _ ih henabled hcondition

theorem ReachableFrom.mono {condition' : State → Label → Prop}
    (h : S.ReachableFrom condition start st)
    (himp : ∀ st l, condition st l → condition' st l) :
    S.ReachableFrom condition' start st := by
  induction h with
  | refl => exact .refl
  | step _ henabled hcondition ih => exact .step ih henabled (himp _ _ hcondition)

theorem ReachableWhen.invariant {I : State → Prop} (h : S.ReachableWhen condition st)
    (hinitial : ∀ st, S.initial st → I st)
    (hstep : ∀ st l, I st → S.enabled st l → condition st l → I (S.next st l)) : I st := by
  obtain ⟨start, hstart, hrun⟩ := h
  exact hrun.preserves (hinitial start hstart) hstep

theorem ReachableWhen.mono {condition' : State → Label → Prop}
    (h : S.ReachableWhen condition st)
    (himp : ∀ st l, condition st l → condition' st l) : S.ReachableWhen condition' st := by
  obtain ⟨start, hstart, hrun⟩ := h
  exact ⟨start, hstart, hrun.mono himp⟩

theorem ReachableWhen.reachable (h : S.ReachableWhen condition st) : S.Reachable st :=
  h.mono fun _ _ _ => trivial

theorem ReachableWhen.next {l : Label} (h : S.ReachableWhen condition st)
    (henabled : S.enabled st l) (hcondition : condition st l) :
    S.ReachableWhen condition (S.next st l) := by
  obtain ⟨start, hstart, hrun⟩ := h
  exact ⟨start, hstart, hrun.step henabled hcondition⟩

theorem ReachableWhen.from {st' : State} (h : S.ReachableWhen condition st)
    (hrun : S.ReachableFrom condition st st') : S.ReachableWhen condition st' :=
  hrun.preserves (I := S.ReachableWhen condition) h fun _ _ ih => ih.next

variable (S condition)

/-- The state after the steps of a list. -/
def execute (st : State) (labels : List Label) : State := labels.foldl S.next st

/-- Every step of a list can be taken and meets the condition. -/
def Executable : State → List Label → Prop
  | _, [] => True
  | st, l :: labels => (S.enabled st l ∧ condition st l) ∧ Executable (S.next st l) labels

instance Executable.decidable [∀ st l, Decidable (S.enabled st l)]
    [∀ st l, Decidable (condition st l)] :
    ∀ (st : State) (labels : List Label), Decidable (S.Executable condition st labels)
  | _, [] => inferInstanceAs (Decidable True)
  | st, l :: labels =>
      have := Executable.decidable (S.next st l) labels
      inferInstanceAs (Decidable ((_ ∧ _) ∧ _))

variable {S condition}

theorem reachableWhen_execute {labels : List Label} (h : S.ReachableWhen condition st)
    (hlabels : S.Executable condition st labels) :
    S.ReachableWhen condition (S.execute st labels) := by
  induction labels generalizing st with
  | nil => exact h
  | cons l labels ih => exact ih (h.next hlabels.1.1 hlabels.1.2) hlabels.2

theorem execute_concat (labels : List Label) (l : Label) :
    S.execute st (labels ++ [l]) = S.next (S.execute st labels) l := by
  rw [execute, List.foldl_append]
  rfl

theorem Executable.step {labels earlier : List Label} {l : Label}
    (h : S.Executable condition st labels) (hearlier : earlier ++ [l] <+: labels) :
    S.enabled (S.execute st earlier) l ∧ condition (S.execute st earlier) l := by
  induction earlier generalizing st labels with
  | nil =>
      obtain ⟨later, rfl⟩ := hearlier
      exact h.1
  | cons first earlier ih =>
      obtain ⟨later, rfl⟩ := hearlier
      exact ih h.2 ⟨later, rfl⟩

theorem Executable.enabled {labels earlier : List Label} {l : Label}
    (h : S.Executable condition st labels) (hearlier : earlier ++ [l] <+: labels) :
    S.enabled (S.execute st earlier) l := (h.step hearlier).1

theorem execute_preserves {labels earlier : List Label} {I : State → Prop} (hstart : I st)
    (hstep : ∀ earlier l, earlier ++ [l] <+: labels → I (S.execute st earlier) →
      I (S.next (S.execute st earlier) l))
    (hearlier : earlier <+: labels) : I (S.execute st earlier) := by
  induction earlier using List.reverseRecOn with
  | nil => exact hstart
  | append_singleton earlier l ih =>
      rw [execute_concat]
      exact hstep earlier l hearlier (ih ((List.prefix_append _ _).trans hearlier))

end System

end Adb.TransitionSystems
