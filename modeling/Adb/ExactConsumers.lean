import Mathlib.Data.List.Basic

/-!
Programs that read exact numbers of elements from a stream.  A state says how
many elements it waits for and what it becomes when they have come; a state
that waits for none has stopped reading.
-/

namespace Adb.ExactConsumers

universe u v

structure Consumer (σ : Type u) (τ : Type v) where
  need : σ → Nat
  next : σ → List τ → σ

/-- A state and the elements that have come for it so far. -/
structure Progress (σ : Type u) (τ : Type v) where
  state : σ
  buffer : List τ

namespace Consumer

variable {σ : Type u} {τ : Type v} (C : Consumer σ τ)

def feedOne (p : Progress σ τ) (x : τ) : Progress σ τ :=
  if C.need p.state = 0 then p
  else if p.buffer.length + 1 = C.need p.state then ⟨C.next p.state (p.buffer ++ [x]), []⟩
  else ⟨p.state, p.buffer ++ [x]⟩

def feed (p : Progress σ τ) (input : List τ) : Progress σ τ := input.foldl C.feedOne p

variable {C} {p : Progress σ τ}

theorem feed_append (first second : List τ) :
    C.feed p (first ++ second) = C.feed (C.feed p first) second := by
  rw [feed, List.foldl_append]
  rfl

/-- It does not matter in which pieces the input comes. -/
theorem feed_flatten (pieces : List (List τ)) :
    C.feed p pieces.flatten = pieces.foldl C.feed p := by
  induction pieces generalizing p with
  | nil => rfl
  | cons piece pieces ih => rw [List.flatten_cons, feed_append, ih, List.foldl_cons]

theorem feed_of_stopped (h : C.need p.state = 0) (input : List τ) : C.feed p input = p := by
  induction input with
  | nil => rfl
  | cons x input ih =>
      have hone : C.feedOne p x = p := by
        rw [feedOne, if_pos h]
      rw [feed, List.foldl_cons, hone]
      exact ih

theorem feed_of_lt {state : σ} {buffer input : List τ}
    (h : buffer.length + input.length < C.need state) :
    C.feed ⟨state, buffer⟩ input = ⟨state, buffer ++ input⟩ := by
  induction input generalizing buffer with
  | nil => rw [List.append_nil]; rfl
  | cons x input ih =>
      rw [List.length_cons] at h
      have hone : C.feedOne ⟨state, buffer⟩ x = ⟨state, buffer ++ [x]⟩ := by
        simp only [feedOne]
        rw [if_neg (by omega), if_neg (by omega)]
      rw [feed, List.foldl_cons, hone]
      have hrest : C.feed ⟨state, buffer ++ [x]⟩ input = ⟨state, buffer ++ [x] ++ input⟩ := by
        apply ih
        rw [List.length_append, List.length_singleton]
        omega
      rw [feed] at hrest
      rw [hrest, List.append_assoc]
      rfl

theorem feed_of_eq {state : σ} {input : List τ} (hinput : input ≠ [])
    (h : input.length = C.need state) :
    C.feed ⟨state, []⟩ input = ⟨C.next state input, []⟩ := by
  obtain ⟨first, last, rfl⟩ : ∃ first last, input = first ++ [last] :=
    ⟨input.dropLast, input.getLast hinput, (List.dropLast_append_getLast hinput).symm⟩
  rw [List.length_append, List.length_singleton] at h
  have hshort : C.feed ⟨state, []⟩ first = ⟨state, [] ++ first⟩ := by
    apply feed_of_lt
    rw [List.length_nil]
    omega
  rw [List.nil_append] at hshort
  rw [feed_append, hshort]
  simp only [feed, List.foldl_cons, List.foldl_nil, feedOne]
  rw [if_neg (by omega), if_pos h]

end Consumer

end Adb.ExactConsumers
