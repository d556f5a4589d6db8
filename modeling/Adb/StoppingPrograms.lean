import Mathlib.Data.List.Basic
import Mathlib.Control.Lawful

/-!
Programs over a state that may stop before they return, and what holds then.
`Ensures` promises one thing for a program that returns and another for one
that stops.
-/

namespace Adb.StoppingPrograms

variable {σ α β : Type}

abbrev Program (σ α : Type) := ExceptT Unit (StateM σ) α

/-- What a program does from a state: its result, if it returns, and the state
it leaves. -/
def execute (program : Program σ α) (s : σ) : Except Unit α × σ := StateT.run program.run s

/-- The program returns with `post`, or stops with `stop`. -/
def Ensures (program : Program σ α) (s : σ) (post : α → σ → Prop) (stop : σ → Prop) : Prop :=
  match execute program s with
  | (.ok a, s') => post a s'
  | (.error _, s') => stop s'

variable {program : Program σ α} {s s' : σ} {post : α → σ → Prop} {stop : σ → Prop}

@[simp] theorem execute_pure (a : α) (s : σ) : execute (pure a) s = (.ok a, s) := rfl

theorem execute_get (s : σ) : execute get s = (.ok s, s) := rfl

theorem execute_modify (f : σ → σ) (s : σ) : execute (modify f) s = (.ok ⟨⟩, f s) := rfl

theorem execute_bind (program : Program σ α) (next : α → Program σ β) (s : σ) :
    execute (program >>= next) s =
      match execute program s with
      | (.ok a, s') => execute (next a) s'
      | (.error e, s') => (.error e, s') := by
  simp only [execute, ExceptT.run_bind, StateT.run_bind]
  cases StateT.run program.run s with
  | mk result s' =>
      cases result with
      | ok a => rfl
      | error e => rfl

theorem execute_bind_of_ok {a : α} (h : execute program s = (.ok a, s'))
    (next : α → Program σ β) : execute (program >>= next) s = execute (next a) s' := by
  rw [execute_bind, h]

theorem ensures_of_ok {a : α} (h : execute program s = (.ok a, s')) (hpost : post a s') :
    Ensures program s post stop := by
  rw [Ensures, h]
  exact hpost

theorem ensures_pure {a : α} (h : post a s) : Ensures (pure a) s post stop := h

theorem ensures_throw (h : stop s) : Ensures (throw () : Program σ α) s post stop := h

theorem Ensures.imp {post' : α → σ → Prop} {stop' : σ → Prop} (h : Ensures program s post stop)
    (hpost : ∀ a s', post a s' → post' a s') (hstop : ∀ s', stop s' → stop' s') :
    Ensures program s post' stop' := by
  unfold Ensures at h ⊢
  revert h
  cases execute program s with
  | mk result s' =>
      cases result with
      | ok a => exact hpost a s'
      | error e => exact hstop s'

theorem Ensures.final {final : σ → Prop} (h : Ensures program s (fun _ => final) final) :
    final (execute program s).2 := by
  unfold Ensures at h
  revert h
  cases execute program s with
  | mk result s' =>
      cases result with
      | ok a => exact id
      | error e => exact id

theorem Ensures.exists_ok (h : Ensures program s post fun _ => False) :
    ∃ a s', execute program s = (.ok a, s') ∧ post a s' := by
  unfold Ensures at h
  revert h
  cases execute program s with
  | mk result s' =>
      cases result with
      | ok a => exact fun hpost => ⟨a, s', rfl, hpost⟩
      | error e => exact False.elim

theorem ensures_forall {ι : Sort*} {post : ι → α → σ → Prop}
    (h : ∀ i, Ensures program s (post i) fun _ => True) :
    Ensures program s (fun a s' => ∀ i, post i a s') fun _ => True := by
  simp only [Ensures] at h ⊢
  revert h
  cases execute program s with
  | mk result s' =>
      cases result with
      | ok a => exact id
      | error e => exact fun _ => trivial

theorem Ensures.and {post' : α → σ → Prop} {stop' : σ → Prop} (h : Ensures program s post stop)
    (h' : Ensures program s post' stop') :
    Ensures program s (fun a s' => post a s' ∧ post' a s') (fun s' => stop s' ∧ stop' s') := by
  unfold Ensures at h h' ⊢
  revert h h'
  cases execute program s with
  | mk result s' =>
      cases result with
      | ok a => exact And.intro
      | error e => exact And.intro

theorem Ensures.and_execute (h : Ensures program s post stop) :
    Ensures program s (fun a s' => post a s' ∧ execute program s = (.ok a, s')) stop := by
  unfold Ensures at h ⊢
  revert h
  cases execute program s with
  | mk result s' =>
      cases result with
      | ok a => exact fun h => ⟨h, rfl⟩
      | error e => exact id

theorem Ensures.bind {next : α → Program σ β} {middle : α → σ → Prop} {post : β → σ → Prop}
    (h : Ensures program s middle stop)
    (hnext : ∀ a s', middle a s' → Ensures (next a) s' post stop) :
    Ensures (program >>= next) s post stop := by
  unfold Ensures at h ⊢
  rw [execute_bind]
  revert h
  cases execute program s with
  | mk result s' =>
      cases result with
      | ok a => exact fun hmiddle => hnext a s' hmiddle
      | error e => exact id

theorem ensures_bind_of_ok {next : α → Program σ β} {post : β → σ → Prop} {a : α}
    (h : execute program s = (.ok a, s')) (hnext : Ensures (next a) s' post stop) :
    Ensures (program >>= next) s post stop := by
  rw [Ensures, execute_bind_of_ok h]
  exact hnext

end Adb.StoppingPrograms
