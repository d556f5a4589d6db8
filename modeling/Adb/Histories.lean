import Mathlib.Data.List.Basic

/-! Positions of an entry in a history that grows at its end. -/

namespace Adb.Histories

universe u

variable {α : Type u} {old new before after : List α} {x : α}

theorem split_append (h : old ++ new = before ++ x :: after) :
    (∃ middle, old = before ++ x :: middle ∧ after = middle ++ new) ∨
      ∃ middle, new = middle ++ x :: after ∧ before = old ++ middle := by
  rcases List.append_eq_append_iff.mp h with ⟨middle, hbefore, hnew⟩ | ⟨middle, hold, hrest⟩
  · exact .inr ⟨middle, hnew, hbefore⟩
  · cases middle with
    | nil => exact .inr ⟨[], by simpa using hrest.symm, by simpa using hold.symm⟩
    | cons y middle =>
        rw [List.cons_append, List.cons.injEq] at hrest
        exact .inl ⟨middle, by rw [hold, hrest.1], hrest.2⟩

/-- Two entries of one history are the same one, or one comes after the other. -/
theorem split_trichotomy {y : α} {before' after' : List α}
    (h : before ++ x :: after = before' ++ y :: after') :
    (before = before' ∧ x = y ∧ after = after') ∨ y ∈ after ∨ x ∈ after' := by
  rcases split_append h with ⟨middle, -, hafter⟩ | ⟨middle, hnew, hbefore⟩
  · exact .inr (.inr (by simp [hafter]))
  · cases middle with
    | nil =>
        obtain ⟨rfl, rfl⟩ : x = y ∧ after = after' := by simpa using hnew
        exact .inl ⟨by simpa using hbefore.symm, rfl, rfl⟩
    | cons z middle =>
        obtain ⟨-, rfl⟩ : x = z ∧ after = middle ++ y :: after' := by simpa using hnew
        exact .inr (.inl (by simp))

end Adb.Histories
