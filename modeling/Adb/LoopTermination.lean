import Mathlib.Data.List.Basic
import Mathlib.Logic.Relation

/-!
Loops whose steps go on with a state or stop with a result, run with fuel, and when
they stop: if every step moves ahead or stays where it is, exactly when no step stays.
-/

namespace Adb.LoopTermination

universe u v

variable {σ : Type u} {ρ : Type v} {step : σ → σ ⊕ ρ} {s s' : σ} {r : ρ}

/-- The result of a loop that stops after at most so many steps. -/
def loop (step : σ → σ ⊕ ρ) : Nat → σ → Option ρ
  | 0, _ => none
  | fuel + 1, s =>
      match step s with
      | .inl s' => loop step fuel s'
      | .inr r => some r

def GoesTo (step : σ → σ ⊕ ρ) (s s' : σ) : Prop := step s = .inl s'

theorem loop_of_inl (h : step s = .inl s') (fuel : Nat) :
    loop step (fuel + 1) s = loop step fuel s' := by
  rw [loop, h]

theorem loop_of_inr (h : step s = .inr r) (fuel : Nat) : loop step (fuel + 1) s = some r := by
  rw [loop, h]

theorem loop_mono {fuel fuel' : Nat} (h : loop step fuel s = some r) (hle : fuel ≤ fuel') :
    loop step fuel' s = some r := by
  induction fuel generalizing s fuel' with
  | zero => cases h
  | succ fuel ih =>
      obtain ⟨fuel', rfl⟩ := Nat.exists_eq_add_of_le' (Nat.le_of_add_left_le hle)
      cases hstep : step s with
      | inl next =>
          rw [loop_of_inl hstep] at h ⊢
          exact ih h (Nat.le_of_succ_le_succ hle)
      | inr result =>
          rw [loop_of_inr hstep] at h ⊢
          exact h

theorem exists_of_loop {fuel : Nat} {I : σ → Prop} (h : loop step fuel s = some r) (hs : I s)
    (hstep : ∀ s s', I s → step s = .inl s' → I s') : ∃ last, I last ∧ step last = .inr r := by
  induction fuel generalizing s with
  | zero => cases h
  | succ fuel ih =>
      cases hnext : step s with
      | inl next =>
          rw [loop_of_inl hnext] at h
          exact ih h (hstep s next hs hnext)
      | inr result =>
          rw [loop_of_inr hnext] at h
          cases h
          exact ⟨s, hs, hnext⟩

theorem loop_of_stuck (hcomes : Relation.ReflTransGen (GoesTo step) s s')
    (hstuck : step s' = .inl s') (fuel : Nat) : loop step fuel s = none := by
  induction fuel generalizing s with
  | zero => rfl
  | succ fuel ih =>
      rcases hcomes.cases_head with rfl | ⟨next, hnext, hcomes⟩
      · rw [loop_of_inl hstuck]
        exact ih .refl
      · rw [loop_of_inl hnext]
        exact ih hcomes

/-- A step that goes on either stays or makes the measure smaller. -/
theorem exists_loop_iff (measure : σ → Nat)
    (hmeasure : ∀ s s', step s = .inl s' → s' ≠ s → measure s' < measure s) :
    (∃ fuel r, loop step fuel s = some r) ↔
      ∀ s', Relation.ReflTransGen (GoesTo step) s s' → step s' ≠ .inl s' := by
  constructor
  · rintro ⟨fuel, r, h⟩ s' hcomes hstuck
    rw [loop_of_stuck hcomes hstuck] at h
    cases h
  · intro h
    induction hn : measure s using Nat.strongRecOn generalizing s with
    | ind n ih =>
        subst hn
        cases hstep : step s with
        | inl next =>
            have hne : next ≠ s := by
              rintro rfl
              exact h next .refl hstep
            obtain ⟨fuel, r, hloop⟩ := ih (measure next) (hmeasure s next hstep hne)
              (fun s' hcomes => h s' (hcomes.head hstep)) rfl
            refine ⟨fuel + 1, r, ?_⟩
            rw [loop_of_inl hstep, hloop]
        | inr result => exact ⟨1, result, loop_of_inr hstep 0⟩

section

variable {α : Type u} {β : Type v} {run : Nat → α → Option β}

theorem mapM_mono
    (hmono : ∀ x y fuel fuel', run fuel x = some y → fuel ≤ fuel' → run fuel' x = some y)
    {l : List α} {ys : List β} {fuel fuel' : Nat} (h : l.mapM (run fuel) = some ys)
    (hle : fuel ≤ fuel') : l.mapM (run fuel') = some ys := by
  induction l generalizing ys with
  | nil => exact h
  | cons x l ih =>
      simp only [List.mapM_cons, Option.bind_eq_bind, Option.bind_eq_some_iff] at h ⊢
      obtain ⟨y, hx, ys', hl, hys⟩ := h
      exact ⟨y, hmono x y fuel fuel' hx hle, ys', ih hl, hys⟩

theorem mem_of_mapM {f : α → Option β} {l : List α} {ys : List β} {y : β}
    (h : l.mapM f = some ys) (hy : y ∈ ys) : ∃ x ∈ l, f x = some y := by
  induction l generalizing ys with
  | nil =>
      cases h
      cases hy
  | cons x l ih =>
      simp only [List.mapM_cons, Option.bind_eq_bind, Option.bind_eq_some_iff] at h
      obtain ⟨first, hx, rest, hl, hys⟩ := h
      cases hys
      rcases List.mem_cons.mp hy with rfl | hy
      · exact ⟨x, List.mem_cons_self, hx⟩
      · obtain ⟨x', hx', hf⟩ := ih hl hy
        exact ⟨x', List.mem_cons_of_mem x hx', hf⟩

theorem exists_mapM_iff (run : Nat → α → Option β)
    (hmono : ∀ x y fuel fuel', run fuel x = some y → fuel ≤ fuel' → run fuel' x = some y)
    (l : List α) :
    (∃ fuel ys, l.mapM (run fuel) = some ys) ↔ ∀ x ∈ l, ∃ fuel y, run fuel x = some y := by
  induction l with
  | nil => exact iff_of_true ⟨0, [], rfl⟩ (by simp)
  | cons x l ih =>
      rw [List.forall_mem_cons, ← ih]
      simp only [List.mapM_cons, Option.bind_eq_bind, Option.bind_eq_some_iff, Option.pure_def]
      constructor
      · rintro ⟨fuel, -, y, hx, ys, hl, -⟩
        exact ⟨⟨fuel, y, hx⟩, fuel, ys, hl⟩
      · rintro ⟨⟨fuel, y, hx⟩, fuel', ys, hl⟩
        have hx' := hmono x y fuel (max fuel fuel') hx (Nat.le_max_left _ _)
        have hl' := mapM_mono hmono hl (Nat.le_max_right fuel fuel')
        exact ⟨max fuel fuel', y :: ys, y, hx', ys, hl', rfl⟩

end

end Adb.LoopTermination
