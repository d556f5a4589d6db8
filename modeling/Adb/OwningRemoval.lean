import Mathlib.Data.List.Basic
import Mathlib.Data.List.ReduceOption

/-!
`std::remove_if` on a list of owning pointers, followed by an `erase` of the one
iterator that it returns.
-/

namespace Adb.OwningRemoval

variable {α : Type*}

/-- The list during the loop: the elements before the iterator that writes, the
pointers between it and the iterator that reads (`none` was moved from), and the
objects deleted so far. -/
structure Removal (α : Type*) where
  kept : List α
  gap : List (Option α)
  deleted : List α

/-- One round.  Before the first match the iterators are at the same place and
nothing moves; a move assignment deletes what the pointer owned. -/
def Removal.round (p : α → Bool) (r : Removal α) (a : α) : Removal α :=
  if p a then { r with gap := r.gap ++ [some a] }
  else
    match r.gap with
    | [] => { r with kept := r.kept ++ [a] }
    | target :: gap => ⟨r.kept ++ [a], gap ++ [none], r.deleted ++ target.toList⟩

def removeIf (p : α → Bool) (list : List α) : Removal α :=
  list.foldl (Removal.round p) ⟨[], [], []⟩

/-- `erase` of the iterator that `remove_if` returned, the first of the gap: the
list and the deleted objects.  Erasing the end is undefined. -/
def Removal.erase (r : Removal α) : Option (List (Option α) × List α) :=
  match r.gap with
  | [] => none
  | target :: gap => some (r.kept.map some ++ gap, r.deleted ++ target.toList)

/-- The pointers as they are left where they stood. -/
def mask (p : α → Bool) (a : α) : Option α := if p a then some a else none

/-- The loop after some elements: the gap is as long as there were matches, and
in it are the last elements, without those that were moved. -/
structure Swept (p : α → Bool) (seen : List α) (r : Removal α) : Prop where
  kept : r.kept = seen.filter fun a => !p a
  gap : ∃ front rest, seen = front ++ rest ∧ rest.length = seen.countP p ∧
    r.gap = rest.map (mask p)
  deleted : r.deleted ++ r.gap.reduceOption = seen.filter p

section

variable {p q : α → Bool} {seen list : List α} {r : Removal α}

theorem Swept.round (h : Swept p seen r) (a : α) : Swept p (seen ++ [a]) (r.round p a) := by
  obtain ⟨front, rest, hseen, hlength, hgap⟩ := h.gap
  have hdeleted := h.deleted
  rw [Removal.round]
  split
  · rename_i hp
    constructor
    · simp [h.kept, hp]
    · refine ⟨front, rest ++ [a], ?_, ?_, ?_⟩
      · rw [hseen, List.append_assoc]
      · simp [hp, hlength]
      · simp [hgap, mask, hp]
    · rw [List.reduceOption_append, ← List.append_assoc, hdeleted]
      simp [hp]
  · rename_i hp
    split
    · rename_i hempty
      rw [hempty] at hgap hdeleted
      obtain rfl := List.map_eq_nil_iff.mp hgap.symm
      constructor
      · simp [h.kept, hp]
      · refine ⟨seen ++ [a], [], ?_, ?_, ?_⟩
        · rw [List.append_nil]
        · simpa [hp] using hlength
        · exact hempty
      · simpa [hempty, hp] using hdeleted
    · rename_i target gap hcons
      rw [hcons] at hgap hdeleted
      cases rest with
      | nil => cases hgap
      | cons b rest =>
          obtain ⟨rfl, rfl⟩ := List.cons.inj hgap
          constructor
          · simp [h.kept, hp]
          · refine ⟨front ++ [b], rest ++ [a], ?_, ?_, ?_⟩
            · simp [hseen]
            · simpa [hp] using hlength
            · simp [mask, hp]
          · rw [List.filter_append, ← hdeleted]
            cases hb : mask p b with
            | none => simp [hp, List.reduceOption_append]
            | some c => simp [hp, List.reduceOption_append]

theorem swept_removeIf (p : α → Bool) (list : List α) : Swept p list (removeIf p list) := by
  have hrun : ∀ (later seen : List α) (r : Removal α), Swept p seen r →
      Swept p (seen ++ later) (later.foldl (Removal.round p) r) := by
    intro later
    induction later with
    | nil =>
        intro seen r h
        rwa [List.append_nil]
    | cons a later ih =>
        intro seen r h
        have hlater := ih (seen ++ [a]) _ (h.round a)
        rwa [List.append_assoc] at hlater
  exact hrun list [] _ ⟨rfl, ⟨[], [], rfl, rfl, rfl⟩, rfl⟩

/-- Exactly one element is to be removed; it is the first match, and the other
matches are the last elements. -/
def SingleMatch (p q : α → Bool) (list : List α) (a : α) : Prop :=
  ∃ front between rest, list = front ++ a :: (between ++ rest) ∧
    (∀ b ∈ front ++ between, p b = false) ∧ p a = true ∧ (∀ b ∈ rest, p b = true) ∧
    q a = true ∧ ∀ b ∈ front ++ (between ++ rest), q b = false

theorem reduceOption_map_mask (rest : List α) :
    (rest.map (mask p)).reduceOption = rest.filter p := by
  induction rest with
  | nil => rfl
  | cons a rest ih =>
      rw [List.map_cons, mask, List.filter_cons]
      split
      · rw [List.reduceOption_cons_of_some, ih]
      · rw [List.reduceOption_cons_of_none, ih]

theorem map_mask_eq_map_some {rest : List α} :
    rest.map (mask p) = rest.map some ↔ ∀ a ∈ rest, p a = true := by
  rw [List.map_inj_left]
  apply forall₂_congr
  intro a _
  simp [mask]

/-- What the two calls leave: the elements that do not match, and as many of the
last pointers as there were further matches. -/
theorem erase_removeIf (hmatch : ∃ a ∈ list, p a = true) :
    ∃ front b rest deleted, list = front ++ b :: rest ∧ rest.length + 1 = list.countP p ∧
      deleted ++ rest.filter p = list.filter p ∧
      (removeIf p list).erase =
        some ((list.filter fun a => !p a).map some ++ rest.map (mask p), deleted) := by
  obtain ⟨hkept, ⟨front, rest, hlist, hlength, hgap⟩, hdeleted⟩ := swept_removeIf p list
  cases rest with
  | nil =>
      obtain ⟨a, ha, hp⟩ := hmatch
      have hpos := List.countP_pos_iff.mpr ⟨a, ha, hp⟩
      rw [← hlength] at hpos
      cases hpos
  | cons b rest =>
      refine ⟨front, b, rest, (removeIf p list).deleted ++ (mask p b).toList, hlist, hlength,
        ?_, ?_⟩
      · rw [← hdeleted, hgap, List.map_cons, ← reduceOption_map_mask]
        cases mask p b with
        | none => simp
        | some c => simp
      · rw [Removal.erase, hgap, hkept]
        rfl

theorem erase_removeIf_eq_none (hmatch : ∀ a ∈ list, p a = false) :
    (removeIf p list).erase = none := by
  obtain ⟨-, ⟨front, rest, -, hlength, hgap⟩, -⟩ := swept_removeIf p list
  have hcount : list.countP p = 0 := by
    rw [List.countP_eq_zero]
    intro a ha
    rw [hmatch a ha]
    exact Bool.false_ne_true
  rw [hcount] at hlength
  rw [List.length_eq_zero_iff.mp hlength] at hgap
  rw [Removal.erase, hgap]
  rfl

theorem filters_of_split {front between rest : List α} {a : α}
    (hother : ∀ b ∈ front ++ between, p b = false) (hp : p a = true)
    (hrest : ∀ b ∈ rest, p b = true) :
    (front ++ a :: (between ++ rest)).filter p = a :: rest ∧
      (front ++ a :: (between ++ rest)).filter (fun b => !p b) = front ++ between := by
  have hnone : ∀ list : List α, (∀ b ∈ list, p b = false) →
      list.filter p = [] ∧ list.filter (fun b => !p b) = list := by
    intro list hlist
    rw [List.filter_eq_nil_iff, List.filter_eq_self]
    exact ⟨fun b hb => by simp [hlist b hb], fun b hb => by simp [hlist b hb]⟩
  have hfront := hnone front fun b hb => hother b (List.mem_append_left _ hb)
  have hbetween := hnone between fun b hb => hother b (List.mem_append_right _ hb)
  have hall : rest.filter p = rest := List.filter_eq_self.mpr hrest
  have hrest' : rest.filter (fun b => !p b) = [] := by
    rw [List.filter_eq_nil_iff]
    intro b hb
    simp [hrest b hb]
  constructor
  · rw [List.filter_append, hfront.1, List.filter_cons_of_pos hp, List.filter_append, hbetween.1,
      hall]
    rfl
  · rw [List.filter_append, hfront.2, List.filter_cons_of_neg (by simp [hp]), List.filter_append,
      hbetween.2, hrest', List.append_nil]

theorem erase_removeIf_of_singleMatch {a : α} (h : SingleMatch p q list a) :
    (removeIf p list).erase = some ((list.filter fun b => !q b).map some, [a]) := by
  obtain ⟨front, between, rest, hlist, hother, hp, hrest, hq, hstay⟩ := h
  obtain ⟨hmatches, hothers⟩ := filters_of_split hother hp hrest
  rw [← hlist] at hmatches hothers
  have hstays : list.filter (fun b => !q b) = front ++ (between ++ rest) := by
    rw [hlist, List.filter_append, List.filter_cons_of_neg (by simp [hq]), ← List.filter_append,
      List.filter_eq_self]
    intro b hb
    simp [hstay b hb]
  have hmem : a ∈ list := by
    rw [hlist]
    exact List.mem_append_right _ List.mem_cons_self
  obtain ⟨front', b, rest', deleted, hlist', hlength, hdeleted, herase⟩ :=
    erase_removeIf ⟨a, hmem, hp⟩
  -- the gap ends where the list ends
  have hrest' : rest' = rest := by
    rw [List.countP_eq_length_filter, hmatches, List.length_cons] at hlength
    have hsplit : (front' ++ [b]) ++ rest' = (front ++ a :: between) ++ rest := by
      simpa using hlist'.symm.trans hlist
    exact List.append_inj_right' hsplit (Nat.succ.inj hlength)
  have hsingle : deleted = [a] := by
    rw [hrest', List.filter_eq_self.mpr hrest, hmatches] at hdeleted
    exact List.append_cancel_right (hdeleted.trans List.singleton_append.symm)
  rw [herase, hrest', map_mask_eq_map_some.mpr hrest, hothers, hstays, hsingle, List.map_append,
    List.map_append, List.map_append, List.append_assoc]

theorem exists_of_countP_eq_one (h : list.countP p = 1) :
    ∃ front a between, list = front ++ a :: between ∧ p a = true ∧
      ∀ b ∈ front ++ between, p b = false := by
  obtain ⟨a, ha, hp⟩ := List.countP_pos_iff.mp (h ▸ Nat.one_pos)
  obtain ⟨front, between, rfl⟩ := List.append_of_mem ha
  refine ⟨front, a, between, rfl, hp, ?_⟩
  have hzero : (front ++ between).countP p = 0 := by
    rw [List.countP_append, List.countP_cons_of_pos hp] at h
    rw [List.countP_append]
    omega
  intro b hb
  exact Bool.eq_false_iff.mpr (List.countP_eq_zero.mp hzero b hb)

theorem only_of_filter_eq [DecidableEq α] {front rest : List α} {a : α}
    (h : front ++ rest = (front ++ a :: rest).filter fun b => !q b) :
    q a = true ∧ ∀ b ∈ front ++ rest, q b = false := by
  constructor
  · -- otherwise `a` would be as often in the result as in the list
    apply Classical.byContradiction
    intro hq
    have hcount := congrArg (List.count a) h
    rw [List.count_filter (by simpa using hq)] at hcount
    simp at hcount
  · intro b hb
    rw [h] at hb
    simpa using (List.mem_filter.mp hb).2

theorem singleMatch_of_erase_removeIf [DecidableEq α] {deleted : List α}
    (h : (removeIf p list).erase = some ((list.filter fun b => !q b).map some, deleted)) :
    ∃ a, SingleMatch p q list a := by
  have hmatch : ∃ a ∈ list, p a = true := by
    apply Classical.byContradiction
    intro hnone
    rw [erase_removeIf_eq_none] at h
    · cases h
    · intro a ha
      exact Bool.eq_false_iff.mpr fun hp => hnone ⟨a, ha, hp⟩
  obtain ⟨front', b, rest, deleted', hlist, hlength, -, herase⟩ := erase_removeIf hmatch
  have hentries := congrArg Prod.fst (Option.some.inj (herase.symm.trans h))
  dsimp only at hentries
  have hrest : ∀ a ∈ rest, p a = true := by
    intro a ha
    have hmem : mask p a ∈ (list.filter fun b => !q b).map some := by
      rw [← hentries]
      exact List.mem_append_right _ (List.mem_map.mpr ⟨a, ha, rfl⟩)
    obtain ⟨c, -, hc⟩ := List.mem_map.mp hmem
    rw [mask] at hc
    split at hc
    · assumption
    · cases hc
  have hone : (front' ++ [b]).countP p = 1 := by
    have hall : rest.countP p = rest.length := List.countP_eq_length.mpr hrest
    rw [hlist, List.append_cons, List.countP_append, hall] at hlength
    omega
  obtain ⟨front, a, between, hsplit, hp, hother⟩ := exists_of_countP_eq_one hone
  have hlist' : list = front ++ a :: (between ++ rest) := by
    rw [hlist, List.append_cons, hsplit]
    simp
  have hkept := (filters_of_split hother hp hrest).2
  rw [← hlist'] at hkept
  rw [map_mask_eq_map_some.mpr hrest, ← List.map_append, hkept, List.append_assoc] at hentries
  have hfilter := List.map_injective_iff.mpr (fun _ _ => Option.some.inj) hentries
  rw [hlist'] at hfilter
  obtain ⟨hq, hstay⟩ := only_of_filter_eq hfilter
  exact ⟨a, front, between, rest, hlist', hother, hp, hrest, hq, hstay⟩

end

end Adb.OwningRemoval
