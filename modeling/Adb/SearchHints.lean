import Mathlib.Data.Fin.Tuple.Basic
import Mathlib.Logic.Function.Basic
import Mathlib.Order.Bounds.Defs
import Mathlib.Order.Fin.Basic

/-!
A table of slots and a hint: the search for the first free slot starts at the
hint instead of at the first slot.
-/

namespace Adb.SearchHints

variable {n : Nat} {free : Fin n → Bool} {hint : Nat} {i : Fin n}

/-- The first free slot from the hint on.  A large table is not searched by unfolding. -/
@[irreducible] def firstFrom (free : Fin n → Bool) (hint : Nat) : Option (Fin n) :=
  Fin.find? fun i => decide (hint ≤ i) && free i

/-- The hint hides no free slot. -/
def Sound (free : Fin n → Bool) (hint : Nat) : Prop := ∀ i : Fin n, free i = true → hint ≤ i

theorem sound_zero (free : Fin n → Bool) : Sound free 0 := fun _ _ => Nat.zero_le _

theorem Sound.taken (h : Sound free hint) (hi : (i : Nat) < hint) : free i = false := by
  rw [← Bool.not_eq_true]
  intro hfree
  exact absurd (h i hfree) (Nat.not_le_of_lt hi)

theorem firstFrom_eq_some_iff (h : Sound free hint) :
    firstFrom free hint = some i ↔ IsLeast {j | free j = true} i := by
  rw [firstFrom, Fin.find?_eq_some_iff]
  constructor
  · rintro ⟨hi, hfirst⟩
    rw [Bool.and_eq_true, decide_eq_true_eq] at hi
    refine ⟨hi.2, fun j hj => ?_⟩
    by_contra hlt
    have hj' := hfirst j (lt_of_not_ge hlt)
    rw [Bool.and_eq_false_iff, decide_eq_false_iff_not] at hj'
    rcases hj' with hhint | hfree
    · exact hhint (h j hj)
    · exact absurd hj (by simp [hfree])
  · rintro ⟨hi, hleast⟩
    refine ⟨?_, fun j hj => ?_⟩
    · rw [Bool.and_eq_true, decide_eq_true_eq]
      exact ⟨h i hi, hi⟩
    · rw [Bool.and_eq_false_iff, ← Bool.not_eq_true (free j)]
      exact .inr fun hfree => absurd (hleast hfree) (not_le_of_gt hj)

theorem firstFrom_eq_none_iff (h : Sound free hint) :
    firstFrom free hint = none ↔ ∀ i, free i = false := by
  rw [firstFrom, Fin.find?_eq_none_iff]
  constructor
  · intro hnone i
    rcases Bool.and_eq_false_iff.mp (hnone i) with hhint | hfree
    · rw [← Bool.not_eq_true]
      intro hfree
      exact absurd (h i hfree) (of_decide_eq_false hhint)
    · exact hfree
  · intro hnone i
    rw [hnone i, Bool.and_false]

theorem Sound.take (h : Sound free hint) (hi : firstFrom free hint = some i) :
    Sound (Function.update free i false) (i + 1) := by
  obtain ⟨-, hleast⟩ := (firstFrom_eq_some_iff h).mp hi
  intro j hj
  rcases eq_or_ne j i with rfl | hne
  · simp at hj
  · rw [Function.update_of_ne hne] at hj
    have hle : (i : Nat) ≤ j := hleast hj
    have hval : (j : Nat) ≠ i := fun hsame => hne (Fin.ext hsame)
    omega

theorem Sound.release (h : Sound free hint) (i : Fin n) :
    Sound (Function.update free i true) (min hint i) := by
  intro j hj
  rcases eq_or_ne j i with rfl | hne
  · exact Nat.min_le_right _ _
  · rw [Function.update_of_ne hne] at hj
    exact (Nat.min_le_left _ _).trans (h j hj)

end Adb.SearchHints
