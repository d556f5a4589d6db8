import Mathlib.Data.List.Chain
import Mathlib.Logic.Function.Basic

/-!
Circular doubly linked lists: nodes with two pointers, the two operations on
them, and the sequence that a list head stands for.
-/

namespace Adb.CircularLists

universe u

/-- The two pointers of every node, which may be null. -/
structure Links (Node : Type u) where
  next : Node → Option Node
  prev : Node → Option Node

namespace Links

variable {Node : Type u}

/-- `b` follows `a`, and both know it. -/
def Joined (l : Links Node) (a b : Node) : Prop := l.next a = some b ∧ l.prev b = some a

/-- From `head` around through `nodes` and back to `head`. -/
structure Ring (l : Links Node) (head : Node) (nodes : List Node) : Prop where
  distinct : (head :: nodes).Nodup
  joined : (head :: nodes ++ [head]).IsChain l.Joined

/-- A node that is on no list. -/
def Loose (l : Links Node) (a : Node) : Prop := l.next a = none ∧ l.prev a = none

variable [DecidableEq Node]

/-- Put a node at the end of a list. -/
def insert (l : Links Node) (a head : Node) : Links Node :=
  match l.prev head with
  | none => l
  | some last =>
      { next := Function.update (Function.update l.next a (some head)) last (some a)
        prev := Function.update (Function.update l.prev a (some last)) head (some a) }

/-- Take a node out of whichever list it is on. -/
def remove (l : Links Node) (a : Node) : Links Node :=
  match l.prev a, l.next a with
  | some before, some after =>
      { next := Function.update (Function.update l.next before (some after)) a none
        prev := Function.update (Function.update l.prev after (some before)) a none }
  | _, _ => l

variable {l l' : Links Node} {head a : Node} {nodes : List Node}

omit [DecidableEq Node] in
theorem Ring.congr (h : l.Ring head nodes)
    (hsame : ∀ b ∈ head :: nodes, l'.next b = l.next b ∧ l'.prev b = l.prev b) :
    l'.Ring head nodes := by
  refine ⟨h.distinct, h.joined.imp_of_mem_imp ?_⟩
  intro b c hb hc hjoined
  have hmem : ∀ {b}, b ∈ head :: nodes ++ [head] → b ∈ head :: nodes := by
    intro b hb
    rcases List.mem_append.mp hb with hb | hb
    · exact hb
    · rw [List.mem_singleton.mp hb]
      exact List.mem_cons_self
  exact ⟨(hsame b (hmem hb)).1.trans hjoined.1, (hsame c (hmem hc)).2.trans hjoined.2⟩

omit [DecidableEq Node] in
theorem Ring.last (h : l.Ring head nodes) :
    ∃ last, (head :: nodes).getLast? = some last ∧ l.Joined last head := by
  obtain ⟨last, hlast⟩ : ∃ last, (head :: nodes).getLast? = some last :=
    ⟨_, List.getLast?_eq_some_getLast (List.cons_ne_nil head nodes)⟩
  exact ⟨last, hlast, (List.isChain_append.mp h.joined).2.2 last hlast head rfl⟩

omit [DecidableEq Node] in
/-- A node of the list has neighbours in it. -/
theorem Ring.split {before after : List Node} (h : l.Ring head (before ++ a :: after)) :
    ∃ b c rest, after ++ [head] = c :: rest ∧ (head :: before).getLast? = some b ∧
      l.Joined b a ∧ l.Joined a c ∧ (head :: before).IsChain l.Joined ∧
      (c :: rest).IsChain l.Joined := by
  obtain ⟨b, hb⟩ : ∃ b, (head :: before).getLast? = some b :=
    ⟨_, List.getLast?_eq_some_getLast (List.cons_ne_nil head before)⟩
  obtain ⟨c, rest, hc⟩ : ∃ c rest, after ++ [head] = c :: rest := by
    cases after with
    | nil => exact ⟨head, [], rfl⟩
    | cons c after => exact ⟨c, after ++ [head], rfl⟩
  have hlist : head :: (before ++ a :: after) ++ [head] = (head :: before) ++ a :: c :: rest := by
    rw [← hc]
    simp
  have hjoined := h.joined
  rw [hlist, List.isChain_append] at hjoined
  obtain ⟨hbefore, hafter, hlink⟩ := hjoined
  obtain ⟨hac, hrest⟩ := List.isChain_cons_cons.mp hafter
  exact ⟨b, c, rest, hc, hb, hlink b hb a rfl, hac, hbefore, hrest⟩

theorem Ring.insert (h : l.Ring head nodes) (ha : a ∉ head :: nodes) :
    (l.insert a head).Ring head (nodes ++ [a]) := by
  obtain ⟨last, hlast, hjoined⟩ := h.last
  have hmem : last ∈ head :: nodes := List.mem_of_getLast? hlast
  have hne : last ≠ a := by
    rintro rfl
    exact ha hmem
  have hhead : head ≠ a := by
    rintro rfl
    exact ha List.mem_cons_self
  constructor
  · rw [← List.cons_append, List.nodup_append]
    refine ⟨h.distinct, by simp, ?_⟩
    rintro b hb c hc rfl
    obtain rfl := List.mem_singleton.mp hc
    exact ha hb
  · have hlist : head :: (nodes ++ [a]) ++ [head] = (head :: nodes) ++ [a, head] := by simp
    rw [hlist]
    simp only [Links.insert, hjoined.2]
    refine List.IsChain.append ?_ ?_ ?_
    · refine (List.isChain_append.mp h.joined).1.imp_of_mem_tail_imp ?_
      intro b c hb hc hbc
      have hca : c ≠ a := by
        rintro rfl
        exact ha (List.mem_cons_of_mem _ hc)
      have hba : b ≠ a := by
        rintro rfl
        exact ha hb
      have hchead : c ≠ head := by
        rintro rfl
        exact (List.nodup_cons.mp h.distinct).1 hc
      -- The last node is followed by the head, which stands in front.
      have hblast : b ≠ last := by
        rintro rfl
        exact hchead (Option.some.inj (hbc.1.symm.trans hjoined.1))
      simp [Joined, hca, hba, hchead, hblast, hbc.1, hbc.2]
    · simp [Joined, hne.symm]
    · intro b hb c hc
      obtain rfl : last = b := Option.some.inj (hlast.symm.trans hb)
      obtain rfl : a = c := Option.some.inj hc
      simp [Joined, hhead.symm]

theorem Ring.insert_other (h : l.Ring head nodes) {b : Node} (hb : b ∉ head :: nodes)
    (hba : b ≠ a) :
    (l.insert a head).next b = l.next b ∧ (l.insert a head).prev b = l.prev b := by
  obtain ⟨last, hlast, hjoined⟩ := h.last
  have hblast : b ≠ last := by
    rintro rfl
    exact hb (List.mem_of_getLast? hlast)
  have hbhead : b ≠ head := by
    rintro rfl
    exact hb List.mem_cons_self
  simp [Links.insert, hjoined.2, hba, hblast, hbhead]

theorem Ring.remove {before after : List Node} (h : l.Ring head (before ++ a :: after)) :
    (l.remove a).Ring head (before ++ after) := by
  obtain ⟨b, c, rest, hrest, hb, hba, hac, hbefore, hafter⟩ := h.split
  have hdistinct := h.distinct
  have ha : a ∉ head :: (before ++ after) := by
    have hperm : (head :: (before ++ a :: after)).Perm (a :: head :: (before ++ after)) :=
      (List.Perm.cons head List.perm_middle).trans (List.Perm.swap a head _)
    exact (List.nodup_cons.mp (hperm.nodup_iff.mp hdistinct)).1
  have habefore : a ∉ head :: before := by
    intro hmem
    exact ha (by simp at hmem ⊢; tauto)
  have harest : a ∉ c :: rest := by
    rw [← hrest]
    intro hmem
    exact ha (by simp at hmem ⊢; tauto)
  have hbne : b ≠ a := by
    rintro rfl
    exact habefore (List.mem_of_getLast? hb)
  have hcne : c ≠ a := by
    rintro rfl
    exact harest List.mem_cons_self
  -- A pair that did not involve the removed node is still a pair.
  have hkept : ∀ x y, x ≠ a → y ≠ a → l.Joined x y → (l.remove a).Joined x y := by
    intro x y hx hy hxy
    have hxb : x ≠ b := by
      rintro rfl
      exact hy (Option.some.inj (hxy.1.symm.trans hba.1))
    have hyc : y ≠ c := by
      rintro rfl
      exact hx (Option.some.inj (hxy.2.symm.trans hac.2))
    simp [Joined, Links.remove, hba.2, hac.1, hx, hy, hxb, hyc, hxy.1, hxy.2]
  constructor
  · refine hdistinct.sublist (List.Sublist.cons_cons head ?_)
    exact List.Sublist.append_left (List.sublist_cons_self a after) before
  · have hlist : head :: (before ++ after) ++ [head] = (head :: before) ++ c :: rest := by
      rw [← hrest]
      simp
    rw [hlist]
    refine List.IsChain.append ?_ ?_ ?_
    · refine hbefore.imp_of_mem_imp fun x y hx hy hxy => hkept x y ?_ ?_ hxy
      · rintro rfl
        exact habefore hx
      · rintro rfl
        exact habefore hy
    · refine hafter.imp_of_mem_imp fun x y hx hy hxy => hkept x y ?_ ?_ hxy
      · rintro rfl
        exact harest hx
      · rintro rfl
        exact harest hy
    · intro x hx y hy
      obtain rfl : b = x := Option.some.inj (hb.symm.trans hx)
      obtain rfl : c = y := Option.some.inj hy
      simp [Joined, Links.remove, hba.2, hac.1, hbne, hcne]

theorem Ring.remove_mem (h : l.Ring head nodes) (ha : a ∈ nodes) :
    (l.remove a).Ring head (nodes.filter (· ≠ a)) := by
  obtain ⟨before, after, rfl⟩ := List.append_of_mem ha
  have hdistinct := (List.nodup_cons.mp h.distinct).2
  have hnone : a ∉ before ∧ a ∉ after := by
    have hfirst := (List.nodup_cons.mp (List.perm_middle.nodup_iff.mp hdistinct)).1
    exact ⟨fun hmem => hfirst (List.mem_append_left _ hmem),
      fun hmem => hfirst (List.mem_append_right _ hmem)⟩
  have hkeep : ∀ {l : List Node}, a ∉ l → l.filter (· ≠ a) = l := by
    intro l hl
    refine List.filter_eq_self.mpr fun b hb => ?_
    have hne : b ≠ a := by
      rintro rfl
      exact hl hb
    simpa using hne
  rw [List.filter_append, List.filter_cons_of_neg (by simp), hkeep hnone.1, hkeep hnone.2]
  exact h.remove

theorem Ring.loose_remove (h : l.Ring head nodes) (ha : a ∈ nodes) : (l.remove a).Loose a := by
  obtain ⟨before, after, rfl⟩ := List.append_of_mem ha
  obtain ⟨b, c, -, -, -, hba, hac, -⟩ := h.split
  simp [Loose, Links.remove, hba.2, hac.1]

theorem Ring.remove_other (h : l.Ring head nodes) (ha : a ∈ nodes) {b : Node}
    (hb : b ∉ head :: nodes) :
    (l.remove a).next b = l.next b ∧ (l.remove a).prev b = l.prev b := by
  obtain ⟨before, after, rfl⟩ := List.append_of_mem ha
  obtain ⟨x, y, rest, hrest, hx, hxa, hay, -⟩ := h.split
  have hba : b ≠ a := by
    rintro rfl
    exact hb (by simp)
  have hbx : b ≠ x := by
    rintro rfl
    have hmem := List.mem_of_getLast? hx
    exact hb (by simp at hmem ⊢; tauto)
  have hby : b ≠ y := by
    rintro rfl
    have hmem : b ∈ after ++ [head] := by simp [hrest]
    exact hb (by simp at hmem ⊢; tauto)
  simp [Links.remove, hxa.2, hay.1, hba, hbx, hby]

theorem Ring.insert_apart {head' : Node} {nodes' : List Node} (h : l.Ring head nodes)
    (h' : l.Ring head' nodes') (hapart : ∀ b ∈ head' :: nodes', b ∉ head :: nodes ∧ b ≠ a) :
    (l.insert a head).Ring head' nodes' :=
  h'.congr fun b hb => h.insert_other (hapart b hb).1 (hapart b hb).2

theorem Ring.remove_apart {head' : Node} {nodes' : List Node} (h : l.Ring head nodes)
    (ha : a ∈ nodes) (h' : l.Ring head' nodes')
    (hapart : ∀ b ∈ head' :: nodes', b ∉ head :: nodes) : (l.remove a).Ring head' nodes' :=
  h'.congr fun b hb => h.remove_other ha (hapart b hb)

theorem remove_of_loose (h : l.Loose a) : l.remove a = l := by
  simp [Links.remove, h.2]

end Links

end Adb.CircularLists
