import Mathlib.Data.List.Basic
import Mathlib.Data.List.Infix

/-!
Paths as walks over a tree of names: the places that a walk leads to when `..`
is resolved by the names alone, and the walks that cannot leave a place.
-/

namespace Adb.PathResolution

variable {α : Type}

/-- What one component of a path says. -/
inductive Step (α : Type) where
  | stay
  | up
  | down (name : α)
  deriving DecidableEq, Repr

/-- A resolved path, the last name first.  A path that is not rooted may lead
some levels above the place where it starts. -/
structure Place (α : Type) where
  rooted : Bool
  above : Nat
  names : List α
  deriving DecidableEq, Repr

def Place.step (p : Place α) : Step α → Place α
  | .stay => p
  | .down name => { p with names := name :: p.names }
  | .up =>
      match p.names with
      | _ :: names => { p with names := names }
      | [] => if p.rooted then p else { p with above := p.above + 1 }

def Place.walk (p : Place α) (steps : List (Step α)) : Place α := steps.foldl Place.step p

/-- The place is `root` itself or lies below it. -/
def Place.Under (root p : Place α) : Prop :=
  p.rooted = root.rooted ∧ p.above = root.above ∧ root.names <:+ p.names

instance [DecidableEq α] (root p : Place α) : Decidable (root.Under p) :=
  inferInstanceAs (Decidable (_ ∧ _ ∧ _))

/-- A walk that starts `depth` levels below a place leaves it on its way. -/
def Climbs : Nat → List (Step α) → Prop
  | _, [] => False
  | depth, .stay :: steps => Climbs depth steps
  | depth, .down _ :: steps => Climbs (depth + 1) steps
  | 0, .up :: _ => True
  | depth + 1, .up :: steps => Climbs depth steps

instance decidableClimbs : (depth : Nat) → (steps : List (Step α)) → Decidable (Climbs depth steps)
  | _, [] => inferInstanceAs (Decidable False)
  | depth, .stay :: steps => decidableClimbs depth steps
  | depth, .down _ :: steps => decidableClimbs (depth + 1) steps
  | 0, .up :: _ => inferInstanceAs (Decidable True)
  | depth + 1, .up :: steps => decidableClimbs depth steps

variable {root p : Place α} {steps : List (Step α)}

@[simp] theorem walk_nil (p : Place α) : p.walk [] = p := rfl

@[simp] theorem walk_cons (p : Place α) (s : Step α) (steps : List (Step α)) :
    p.walk (s :: steps) = (p.step s).walk steps := rfl

theorem walk_append (p : Place α) (first second : List (Step α)) :
    p.walk (first ++ second) = (p.walk first).walk second :=
  List.foldl_append

theorem under_refl (root : Place α) : root.Under root := ⟨rfl, rfl, List.suffix_refl _⟩

theorem walk_under_of_depth (below : List α) (h : ¬ Climbs below.length steps) :
    root.Under (Place.walk { root with names := below ++ root.names } steps) := by
  induction steps generalizing below with
  | nil => exact ⟨rfl, rfl, List.suffix_append below root.names⟩
  | cons s steps ih =>
      cases s with
      | stay => exact ih below h
      | down name => exact ih (name :: below) h
      | up =>
          cases below with
          | nil => exact absurd trivial h
          | cons name below => exact ih below h

theorem climbs_of_le {depth depth' : Nat} (hle : depth ≤ depth') (h : Climbs depth' steps) :
    Climbs depth steps := by
  induction steps generalizing depth depth' with
  | nil => exact h
  | cons s steps ih =>
      cases s with
      | stay => exact ih hle h
      | down name => exact ih (Nat.succ_le_succ hle) h
      | up =>
          cases depth with
          | zero => exact trivial
          | succ depth =>
              cases depth' with
              | zero => exact absurd hle (Nat.not_succ_le_zero depth)
              | succ depth' => exact ih (Nat.le_of_succ_le_succ hle) h

theorem walk_under (hp : root.Under p) (h : ¬ Climbs 0 steps) : root.Under (p.walk steps) := by
  obtain ⟨hrooted, habove, below, hnames⟩ := hp
  have hp : p = { root with names := below ++ root.names } := by
    cases p
    simp only [Place.mk.injEq]
    exact ⟨hrooted, habove, hnames.symm⟩
  rw [hp]
  apply walk_under_of_depth below
  intro hclimbs
  exact h (climbs_of_le (Nat.zero_le _) hclimbs)

theorem not_mem_step {a : α} {s : Step α} (hp : a ∉ p.names) (hs : s ≠ .down a) :
    a ∉ (p.step s).names := by
  cases s with
  | stay => exact hp
  | down name =>
      intro hmem
      rcases List.mem_cons.mp hmem with rfl | hmem
      · exact hs rfl
      · exact hp hmem
  | up =>
      rw [Place.step]
      split
      · next names hnames =>
          intro hmem
          apply hp
          rw [hnames]
          exact List.mem_cons_of_mem _ hmem
      · split
        · exact hp
        · exact hp

theorem not_mem_walk {a : α} (hp : a ∉ p.names) (hsteps : Step.down a ∉ steps) :
    a ∉ (p.walk steps).names := by
  induction steps generalizing p with
  | nil => exact hp
  | cons s steps ih =>
      rw [List.mem_cons, not_or] at hsteps
      exact ih (not_mem_step hp (Ne.symm hsteps.1)) hsteps.2

/-- A walk that climbs out of a place does not come back when it never says its
name. -/
theorem not_mem_walk_of_climbs {a : α} (below : List α) (hbelow : a ∉ below)
    (hsteps : Step.down a ∉ steps) (h : Climbs below.length steps) :
    a ∉ (Place.walk ⟨true, 0, below ++ [a]⟩ steps).names := by
  induction steps generalizing below with
  | nil => exact absurd h id
  | cons s steps ih =>
      rw [List.mem_cons, not_or] at hsteps
      cases s with
      | stay => exact ih below hbelow hsteps.2 h
      | down name =>
          apply ih (name :: below) _ hsteps.2 h
          intro hmem
          rcases List.mem_cons.mp hmem with rfl | hmem
          · exact hsteps.1 rfl
          · exact hbelow hmem
      | up =>
          cases below with
          | nil =>
              have hroot : a ∉ (Place.mk true 0 ([] : List α)).names := List.not_mem_nil
              exact (not_mem_walk hroot hsteps.2 :)
          | cons name below =>
              exact ih below (fun hmem => hbelow (List.mem_cons_of_mem _ hmem)) hsteps.2 h

theorem not_under_of_climbs {a : α} (hsteps : Step.down a ∉ steps) (h : Climbs 0 steps) :
    ¬ Place.Under ⟨true, 0, [a]⟩ (Place.walk ⟨true, 0, [a]⟩ steps) := by
  intro hunder
  apply not_mem_walk_of_climbs [] List.not_mem_nil hsteps h
  exact hunder.2.2.mem (List.mem_singleton_self a)

end Adb.PathResolution
