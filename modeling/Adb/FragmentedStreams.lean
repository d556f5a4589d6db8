import Mathlib.Data.List.Basic
import Mathlib.Control.Lawful

/-!
Readers of a stream that arrives in pieces.  A reader is specified by the
input it consumes and the value it returns, whatever the pieces are and
whatever follows; readers compose by concatenating their inputs.
-/

namespace Adb.FragmentedStreams

variable {τ α β γ : Type}

/-- A computation that consumes a stream from its front and can fail. -/
abbrev Reader (τ α : Type) := StateT (List (List τ)) Option α

/-- The pieces are a way in which the stream can arrive: none of them is empty. -/
def Fragments (pieces : List (List τ)) (stream : List τ) : Prop :=
  (∀ piece ∈ pieces, piece ≠ []) ∧ pieces.flatten = stream

/-- However the input and what follows it arrive, the reader consumes exactly
the input and returns `a`. -/
def Yields (reader : Reader τ α) (input : List τ) (a : α) : Prop :=
  ∀ pieces rest, Fragments pieces (input ++ rest) →
    ∃ pieces', reader.run pieces = some (a, pieces') ∧ Fragments pieces' rest

theorem Fragments.nil : Fragments ([] : List (List τ)) [] :=
  ⟨by simp, rfl⟩

theorem Fragments.whole {stream : List τ} (h : stream ≠ []) :
    Fragments [stream] stream :=
  ⟨by simpa using h, by simp⟩

theorem Fragments.eq_nil {pieces : List (List τ)} (h : Fragments pieces []) :
    pieces = [] := by
  cases pieces with
  | nil => rfl
  | cons piece pieces =>
      have hflat := h.2
      simp only [List.flatten_cons, List.append_eq_nil_iff] at hflat
      exact absurd hflat.1 (h.1 piece (by simp))

namespace Yields

theorem pure (a : α) : Yields (Pure.pure a : Reader τ α) [] a := by
  intro pieces rest h
  exact ⟨pieces, rfl, h⟩

theorem bind {reader : Reader τ α} {next : α → Reader τ β}
    {first second : List τ} {a : α} {b : β}
    (hfirst : Yields reader first a) (hsecond : Yields (next a) second b) :
    Yields (reader >>= next) (first ++ second) b := by
  intro pieces rest h
  rw [List.append_assoc] at h
  obtain ⟨middle, hread, hmiddle⟩ := hfirst pieces (second ++ rest) h
  obtain ⟨last, hnext, hlast⟩ := hsecond middle rest hmiddle
  refine ⟨last, ?_, hlast⟩
  rw [StateT.run_bind, hread]
  exact hnext

theorem finish {reader : Reader τ α} {next : α → Reader τ β}
    {input : List τ} {a : α} {b : β}
    (hfirst : Yields reader input a) (hsecond : Yields (next a) [] b) :
    Yields (reader >>= next) input b := by
  have h := hfirst.bind hsecond
  rwa [List.append_nil] at h

/-- On the input alone nothing is left over. -/
theorem run_of_fragments {reader : Reader τ α} {input : List τ} {a : α}
    (h : Yields reader input a) {pieces : List (List τ)}
    (hpieces : Fragments pieces input) : reader.run pieces = some (a, []) := by
  obtain ⟨last, hread, hlast⟩ := h pieces [] (by rwa [List.append_nil])
  rw [hread, hlast.eq_nil]

end Yields

/-- The values that a number of calls in a row return. -/
def times (reader : Reader τ α) : Nat → Reader τ (List α)
  | 0 => Pure.pure []
  | n + 1 => do
      let a ← reader
      let rest ← times reader n
      Pure.pure (a :: rest)

theorem Yields.times {reader : Reader τ β} {encode : α → List τ} {value : α → β}
    (items : List α) (h : ∀ x ∈ items, Yields reader (encode x) (value x)) :
    Yields (times reader items.length) (items.flatMap encode)
      (items.map value) := by
  induction items with
  | nil => exact Yields.pure []
  | cons x items ih =>
      rw [List.flatMap_cons, List.map_cons, List.length_cons,
        FragmentedStreams.times]
      apply (h x (by simp)).bind
      have htail := ih fun y hy => h y (by simp [hy])
      exact htail.finish (Yields.pure _)

end Adb.FragmentedStreams
