import Mathlib.Control.Lawful
import Mathlib.Data.List.Basic

/-!
Text that arrives in chunks and is handled line by line: what has come since the
last separator waits in a buffer.  The handler may stop in any monad.
-/

namespace Adb.LineStreams

universe u

variable {α σ : Type u} {m : Type u → Type u} [DecidableEq α] [Monad m]

/-- One element of the text: it ends the line in the buffer, or it is appended to it. -/
def feedOne (separator : α) (handle : σ → List α → m σ) (st : σ × List α) (x : α) :
    m (σ × List α) :=
  if x = separator then do
    let s ← handle st.1 st.2
    pure (s, [])
  else pure (st.1, st.2 ++ [x])

def feed (separator : α) (handle : σ → List α → m σ) (st : σ × List α) (chunk : List α) :
    m (σ × List α) :=
  chunk.foldlM (feedOne separator handle) st

/-- All chunks, and then the line that is still in the buffer. -/
def feedAll (separator : α) (handle : σ → List α → m σ) (st : σ × List α)
    (chunks : List (List α)) : m σ := do
  let st ← chunks.foldlM (feed separator handle) st
  handle st.1 st.2

variable [LawfulMonad m] {separator : α} {handle : σ → List α → m σ}

theorem foldlM_feed (st : σ × List α) (chunks : List (List α)) :
    chunks.foldlM (feed separator handle) st = feed separator handle st chunks.flatten := by
  induction chunks generalizing st with
  | nil => rfl
  | cons chunk chunks ih =>
      rw [List.foldlM_cons, List.flatten_cons, feed, feed, List.foldlM_append]
      exact bind_congr ih

/-- The chunks do not matter: every line of the text is handled once, in order. -/
theorem feedAll_eq (s : σ) (buffer : List α) (hbuffer : separator ∉ buffer)
    (chunks : List (List α)) :
    feedAll separator handle (s, buffer) chunks =
      ((buffer ++ chunks.flatten).splitOn separator).foldlM handle s := by
  rw [feedAll, foldlM_feed]
  generalize chunks.flatten = text
  induction text generalizing s buffer with
  | nil =>
      rw [List.append_nil, List.splitOn_eq_singleton hbuffer]
      simp [feed]
  | cons x text ih =>
      rw [feed, List.foldlM_cons, feedOne]
      rcases eq_or_ne x separator with rfl | hne
      · rw [if_pos rfl, List.splitOn_append_cons_self_of_not_mem hbuffer, List.foldlM_cons]
        simp only [bind_assoc, pure_bind]
        exact bind_congr fun s' => ih s' [] List.not_mem_nil
      · rw [if_neg hne, pure_bind, List.append_cons buffer x text]
        apply ih
        simp [hbuffer, hne.symm]

end Adb.LineStreams
