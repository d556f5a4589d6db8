import Mathlib.Data.List.Basic

/-!
Finite directory trees.  A forest is what a directory holds; what lies below it
is located by the names of the directories that lead there.
-/

namespace Adb.Forests

universe u v

/-- The entries of a directory, in the order in which they are listed. -/
inductive Forest (ν : Type u) (α : Type v) where
  | nil
  | object (name : ν) (value : α) (rest : Forest ν α)
  | directory (name : ν) (children rest : Forest ν α)
  deriving Repr

/-- A place in a tree, and what is there. -/
inductive Item (ν : Type u) (α : Type v) where
  | directory (path : List ν)
  | object (above : List ν) (name : ν) (value : α)
  deriving DecidableEq, Repr

namespace Item

variable {ν : Type u} {α : Type v}

def path : Item ν α → List ν
  | directory path => path
  | object above name _ => above ++ [name]

/-- The directory that an item is in. -/
def container : Item ν α → Item ν α
  | directory path => directory path.dropLast
  | object above _ _ => directory above

end Item

namespace Forest

variable {ν : Type u} {α : Type v}

def names : Forest ν α → List ν
  | nil => []
  | object name _ rest => name :: rest.names
  | directory name _ rest => name :: rest.names

/-- Every object below, with the directory that it is in. -/
def objects : Forest ν α → List ν → List (List ν × ν × α)
  | nil, _ => []
  | object name value rest, above => (above, name, value) :: rest.objects above
  | directory name children rest, above =>
      children.objects (above ++ [name]) ++ rest.objects above

/-- The directories in which nothing is. -/
def emptyDirectories : Forest ν α → List ν → List (List ν)
  | nil, _ => []
  | object _ _ rest, above => rest.emptyDirectories above
  | directory name nil rest, above => (above ++ [name]) :: rest.emptyDirectories above
  | directory name children rest, above =>
      children.emptyDirectories (above ++ [name]) ++ rest.emptyDirectories above

/-- The directories in which nothing is, the directory itself included. -/
def emptyFrom : Forest ν α → List ν → List (List ν)
  | nil, above => [above]
  | forest, above => forest.emptyDirectories above

/-- How many directories lie inside each other. -/
def depth : Forest ν α → Nat
  | nil => 0
  | object _ _ rest => rest.depth
  | directory _ children rest => max (children.depth + 1) rest.depth

/-- Every name in the forest has a property. -/
def EachName (p : ν → Prop) : Forest ν α → Prop
  | nil => True
  | object name _ rest => p name ∧ rest.EachName p
  | directory name children rest => p name ∧ children.EachName p ∧ rest.EachName p

/-- The directories of a forest that lie directly in it. -/
def subdirectories : Forest ν α → List (ν × Forest ν α)
  | nil => []
  | object _ _ rest => rest.subdirectories
  | directory name children rest => (name, children) :: rest.subdirectories

/-- The objects of a forest that lie directly in it. -/
def here : Forest ν α → List (ν × α)
  | nil => []
  | object name value rest => (name, value) :: rest.here
  | directory _ _ rest => rest.here

theorem depth_lt_of_mem {forest children : Forest ν α} {name : ν}
    (h : (name, children) ∈ forest.subdirectories) : children.depth < forest.depth := by
  induction forest with
  | nil => cases h
  | object _ _ rest ih => exact ih h
  | directory name' children' rest _ ih =>
      rw [depth]
      rcases List.mem_cons.mp h with heq | hrest
      · obtain ⟨rfl, rfl⟩ := Prod.mk.inj heq
        omega
      · have := ih hrest
        omega

theorem EachName.of_mem {p : ν → Prop} {forest children : Forest ν α} {name : ν}
    (h : forest.EachName p) (hmem : (name, children) ∈ forest.subdirectories) :
    children.EachName p := by
  induction forest with
  | nil => cases hmem
  | object _ _ rest ih => exact ih h.2 hmem
  | directory name' children' rest _ ih =>
      rcases List.mem_cons.mp hmem with heq | hrest
      · obtain ⟨rfl, rfl⟩ := Prod.mk.inj heq
        exact h.2.1
      · exact ih h.2.2 hrest

theorem names_ne_nil {forest : Forest ν α} (h : forest ≠ nil) : forest.names ≠ [] := by
  cases forest with
  | nil => exact absurd rfl h
  | object => exact List.cons_ne_nil _ _
  | directory => exact List.cons_ne_nil _ _

theorem perm_objects (forest : Forest ν α) (above : List ν) :
    (forest.objects above).Perm
      (forest.here.map (fun o => (above, o.1, o.2)) ++
        forest.subdirectories.flatMap fun d => d.2.objects (above ++ [d.1])) := by
  induction forest with
  | nil => exact List.Perm.refl _
  | object name value rest ih => exact ih.cons (above, name, value)
  | directory name children rest _ ih =>
      rw [objects, subdirectories, List.flatMap_cons, here]
      exact (ih.append_left _).trans (List.perm_append_comm_assoc _ _ _)

theorem mem_objects {forest : Forest ν α} {above : List ν} {o : List ν × ν × α} :
    o ∈ forest.objects above ↔
      (o.1 = above ∧ o.2 ∈ forest.here) ∨
        ∃ d ∈ forest.subdirectories, o ∈ d.2.objects (above ++ [d.1]) := by
  rw [(forest.perm_objects above).mem_iff, List.mem_append, List.mem_map, List.mem_flatMap]
  refine or_congr_left ?_
  constructor
  · rintro ⟨here, hhere, rfl⟩
    exact ⟨rfl, hhere⟩
  · rintro ⟨rfl, hhere⟩
    exact ⟨o.2, hhere, rfl⟩

theorem above_prefix_of_mem {forest : Forest ν α} {above : List ν} {o : List ν × ν × α}
    (h : o ∈ forest.objects above) : above <+: o.1 := by
  induction forest generalizing above with
  | nil => cases h
  | object name value rest ih =>
      rcases List.mem_cons.mp h with rfl | h
      · exact List.prefix_refl _
      · exact ih h
  | directory name children rest ihc ih =>
      rcases List.mem_append.mp h with h | h
      · exact (List.prefix_append _ _).trans (ihc h)
      · exact ih h

theorem mem_names_of_mem_here {forest : Forest ν α} {o : ν × α} (h : o ∈ forest.here) :
    o.1 ∈ forest.names := by
  induction forest with
  | nil => cases h
  | object name value rest ih =>
      rcases List.mem_cons.mp h with rfl | h
      · exact List.mem_cons_self
      · exact List.mem_cons_of_mem _ (ih h)
  | directory name children rest _ ih => exact List.mem_cons_of_mem _ (ih h)

theorem mem_names_of_mem_subdirectories {forest : Forest ν α} {d : ν × Forest ν α}
    (h : d ∈ forest.subdirectories) : d.1 ∈ forest.names := by
  induction forest with
  | nil => cases h
  | object name value rest ih => exact List.mem_cons_of_mem _ (ih h)
  | directory name children rest _ ih =>
      rcases List.mem_cons.mp h with rfl | h
      · exact List.mem_cons_self
      · exact List.mem_cons_of_mem _ (ih h)

theorem EachName.name_of_mem {p : ν → Prop} {forest : Forest ν α} (h : forest.EachName p)
    {name : ν} (hmem : name ∈ forest.names) : p name := by
  induction forest with
  | nil => cases hmem
  | object name' value rest ih =>
      rcases List.mem_cons.mp hmem with rfl | hmem
      · exact h.1
      · exact ih h.2 hmem
  | directory name' children rest _ ih =>
      rcases List.mem_cons.mp hmem with rfl | hmem
      · exact h.1
      · exact ih h.2.2 hmem

theorem emptyDirectories_eq (forest : Forest ν α) (above : List ν) :
    forest.emptyDirectories above =
      forest.subdirectories.flatMap fun d => d.2.emptyFrom (above ++ [d.1]) := by
  induction forest with
  | nil => rfl
  | object _ _ rest ih => exact ih
  | directory name children rest _ ih =>
      cases children <;> simp [emptyDirectories, emptyFrom, subdirectories, ih]

theorem emptyFrom_of_ne_nil {forest : Forest ν α} (h : forest ≠ nil) (above : List ν) :
    forest.emptyFrom above = forest.emptyDirectories above := by
  cases forest with
  | nil => exact absurd rfl h
  | _ => rfl

/-! ## Walks that put a directory before what is in it -/

/-- Everything below a directory. -/
def positions : Forest ν α → List ν → List (Item ν α)
  | nil, _ => []
  | object name value rest, above => .object above name value :: rest.positions above
  | directory name children rest, above =>
      .directory (above ++ [name]) ::
        (children.positions (above ++ [name]) ++ rest.positions above)

/-- No two entries of a directory have one name. -/
def Distinct : Forest ν α → Prop
  | nil => True
  | object name _ rest => name ∉ rest.names ∧ rest.Distinct
  | directory name children rest => name ∉ rest.names ∧ children.Distinct ∧ rest.Distinct

/-- The objects in a directory, some of them later than the others. -/
def direct (late : α → Bool) (forest : Forest ν α) (above : List ν) : List (Item ν α) :=
  (forest.here.filter fun o => !late o.2).map (fun o => .object above o.1 o.2) ++
    (forest.here.filter fun o => late o.2).map (fun o => .object above o.1 o.2)

/-- What is in the subdirectories, from the last of them to the first. -/
def deeper (late : α → Bool) : Forest ν α → List ν → List (Item ν α)
  | nil, _ => []
  | object _ _ rest, above => rest.deeper late above
  | directory name children rest, above =>
      rest.deeper late above ++ .directory (above ++ [name]) ::
        (children.direct late (above ++ [name]) ++ children.deeper late (above ++ [name]))

/-- A walk through a directory. -/
def walk (late : α → Bool) (forest : Forest ν α) (above : List ν) : List (Item ν α) :=
  .directory above :: (forest.direct late above ++ forest.deeper late above)

theorem deeper_eq (late : α → Bool) (forest : Forest ν α) (above : List ν) :
    forest.deeper late above =
      forest.subdirectories.reverse.flatMap fun d => d.2.walk late (above ++ [d.1]) := by
  induction forest with
  | nil => rfl
  | object _ _ rest ih => exact ih
  | directory name children rest _ ih =>
      rw [deeper, subdirectories, List.reverse_cons, List.flatMap_append, ih,
        List.flatMap_singleton]
      rfl

theorem perm_direct_object (late : α → Bool) (name : ν) (value : α) (rest : Forest ν α)
    (above : List ν) :
    ((object name value rest).direct late above).Perm
      (.object above name value :: rest.direct late above) := by
  cases hlate : late value with
  | false => simp [direct, here, hlate]
  | true =>
      simp only [direct, here, List.filter_cons, hlate, Bool.not_true, Bool.false_eq_true,
        if_false, if_true, List.map_cons]
      exact List.perm_middle

theorem perm_direct_deeper (late : α → Bool) (forest : Forest ν α) (above : List ν) :
    (forest.direct late above ++ forest.deeper late above).Perm (forest.positions above) := by
  induction forest generalizing above with
  | nil => exact List.Perm.refl _
  | object name value rest ih =>
      exact ((perm_direct_object late name value rest above).append_right _).trans
        ((ih above).cons _)
  | directory name children rest ihc ih =>
      rw [deeper, positions, ← List.append_assoc]
      refine ((ih above).append_right _).trans (List.perm_append_comm.trans ?_)
      exact ((ihc _).cons _).append_right _

theorem exists_name_of_mem {forest : Forest ν α} {above : List ν} {item : Item ν α}
    (h : item ∈ forest.positions above) :
    ∃ name ∈ forest.names, above ++ [name] <+: item.path := by
  induction forest generalizing above with
  | nil => cases h
  | object name value rest ih =>
      rcases List.mem_cons.mp h with rfl | h
      · exact ⟨name, by simp [names], List.prefix_refl _⟩
      · obtain ⟨other, hother, hpath⟩ := ih h
        exact ⟨other, by simp [names, hother], hpath⟩
  | directory name children rest ihc ih =>
      rcases List.mem_cons.mp h with rfl | h
      · exact ⟨name, by simp [names], List.prefix_refl _⟩
      · rcases List.mem_append.mp h with h | h
        · obtain ⟨_, _, hpath⟩ := ihc h
          exact ⟨name, by simp [names], (List.prefix_append _ _).trans hpath⟩
        · obtain ⟨other, hother, hpath⟩ := ih h
          exact ⟨other, by simp [names, hother], hpath⟩

theorem EachName.of_path {p : ν → Prop} {forest : Forest ν α} {above : List ν}
    {item : Item ν α} (h : forest.EachName p) (hitem : item ∈ forest.positions above)
    (habove : ∀ name ∈ above, p name) : ∀ name ∈ item.path, p name := by
  have hconcat : ∀ {name : ν}, p name → ∀ other ∈ above ++ [name], p other := by
    intro name hname other hother
    rcases List.mem_append.mp hother with hother | hother
    · exact habove other hother
    · rw [List.mem_singleton.mp hother]
      exact hname
  induction forest generalizing above with
  | nil => cases hitem
  | object name value rest ih =>
      rcases List.mem_cons.mp hitem with rfl | hitem
      · exact hconcat h.1
      · exact ih h.2 hitem habove hconcat
  | directory name children rest ihc ih =>
      rcases List.mem_cons.mp hitem with rfl | hitem
      · exact hconcat h.1
      · rcases List.mem_append.mp hitem with hitem | hitem
        · refine ihc h.2.1 hitem (hconcat h.1) ?_
          intro name' hname' other hother
          rcases List.mem_append.mp hother with hother | hother
          · exact hconcat h.1 other hother
          · rw [List.mem_singleton.mp hother]
            exact hname'
        · exact ih h.2.2 hitem habove hconcat

theorem eq_of_prefixes {above path : List ν} {name name' : ν} (h : above ++ [name] <+: path)
    (h' : above ++ [name'] <+: path) : name = name' := by
  have heq : above ++ [name] = above ++ [name'] :=
    (List.prefix_of_prefix_length_le h h' (by simp)).eq_of_length (by simp)
  simpa using heq

theorem nodup_positions {forest : Forest ν α} (h : forest.Distinct) (above : List ν) :
    ((forest.positions above).map Item.path).Nodup := by
  induction forest generalizing above with
  | nil => exact List.nodup_nil
  | object name value rest ih =>
      rw [positions, List.map_cons, List.nodup_cons]
      refine ⟨?_, ih h.2 above⟩
      intro hmem
      obtain ⟨item, hitem, hpath⟩ := List.mem_map.mp hmem
      obtain ⟨other, hother, hlater⟩ := exists_name_of_mem hitem
      rw [hpath] at hlater
      exact h.1 (eq_of_prefixes (List.prefix_refl _) hlater ▸ hother)
  | directory name children rest ihc ih =>
      have hrest : ∀ item ∈ rest.positions above, ¬ above ++ [name] <+: item.path := by
        intro item hitem hmeet
        obtain ⟨other, hother, hlater⟩ := exists_name_of_mem hitem
        exact h.1 (eq_of_prefixes hmeet hlater ▸ hother)
      have hchildren : ∀ item ∈ children.positions (above ++ [name]),
          above ++ [name] <+: item.path ∧ item.path ≠ above ++ [name] := by
        intro item hitem
        obtain ⟨_, _, hlater⟩ := exists_name_of_mem hitem
        refine ⟨(List.prefix_append _ _).trans hlater, ?_⟩
        intro heq
        have hlen := hlater.length_le
        rw [heq, List.length_append, List.length_singleton] at hlen
        omega
      rw [positions, List.map_cons, List.map_append, List.nodup_cons, List.nodup_append]
      refine ⟨?_, ihc h.2.1 _, ih h.2.2 above, ?_⟩
      · intro hmem
        rcases List.mem_append.mp hmem with hmem | hmem
        · obtain ⟨item, hitem, hpath⟩ := List.mem_map.mp hmem
          exact (hchildren item hitem).2 hpath
        · obtain ⟨item, hitem, hpath⟩ := List.mem_map.mp hmem
          refine hrest item hitem ?_
          rw [hpath]
          exact List.prefix_refl _
      · intro path hpath path' hpath' heq
        obtain ⟨item, hitem, rfl⟩ := List.mem_map.mp hpath
        obtain ⟨item', hitem', rfl⟩ := List.mem_map.mp hpath'
        exact hrest item' hitem' (heq ▸ (hchildren item hitem).1)

/-- Every item comes after the directory that it is in, when some have been seen
before. -/
def Contained (seen : List (Item ν α)) : List (Item ν α) → Prop
  | [] => True
  | item :: items => item.container ∈ seen ∧ Contained (seen ++ [item]) items

theorem contained_append {seen first second : List (Item ν α)} :
    Contained seen (first ++ second) ↔
      Contained seen first ∧ Contained (seen ++ first) second := by
  induction first generalizing seen with
  | nil => simp [Contained]
  | cons item first ih => simp [Contained, ih, and_assoc]

theorem Contained.of_split {seen items first rest : List (Item ν α)} {item : Item ν α}
    (h : Contained seen items) (hsplit : items = first ++ item :: rest) :
    item.container ∈ seen ++ first := by
  rw [hsplit, contained_append] at h
  exact h.2.1

theorem contained_of_forall {seen items : List (Item ν α)}
    (h : ∀ item ∈ items, item.container ∈ seen) : Contained seen items := by
  induction items generalizing seen with
  | nil => trivial
  | cons item items ih =>
      refine ⟨h item (by simp), ih fun other hother => ?_⟩
      exact List.mem_append_left _ (h other (by simp [hother]))

theorem contained_direct (late : α → Bool) (forest : Forest ν α) {above : List ν}
    {seen : List (Item ν α)} (h : .directory above ∈ seen) :
    Contained seen (forest.direct late above) := by
  apply contained_of_forall
  intro item hitem
  rcases List.mem_append.mp hitem with hitem | hitem
  · obtain ⟨o, _, rfl⟩ := List.mem_map.mp hitem
    exact h
  · obtain ⟨o, _, rfl⟩ := List.mem_map.mp hitem
    exact h

/-- A walk meets a directory before what is in it. -/
theorem contained_deeper (late : α → Bool) (forest : Forest ν α) {above : List ν}
    {seen : List (Item ν α)} (h : .directory above ∈ seen) :
    Contained seen (forest.deeper late above) := by
  induction forest generalizing above seen with
  | nil => trivial
  | object _ _ rest ih => exact ih h
  | directory name children rest ihc ih =>
      rw [deeper, contained_append]
      refine ⟨ih h, ?_, ?_⟩
      · rw [Item.container, List.dropLast_concat]
        exact List.mem_append_left _ h
      · rw [contained_append]
        have hself : Item.directory (above ++ [name]) ∈
            seen ++ rest.deeper late above ++ [.directory (above ++ [name])] := by simp
        exact ⟨contained_direct late children hself, ihc (List.mem_append_left _ hself)⟩

theorem perm_walk (late : α → Bool) (forest : Forest ν α) (above : List ν) :
    (forest.walk late above).Perm (.directory above :: forest.positions above) :=
  (forest.perm_direct_deeper late above).cons _

theorem nodup_walk (late : α → Bool) {forest : Forest ν α} (h : forest.Distinct)
    (above : List ν) : ((forest.walk late above).map Item.path).Nodup := by
  rw [((forest.perm_walk late above).map Item.path).nodup_iff, List.map_cons, List.nodup_cons]
  refine ⟨?_, nodup_positions h above⟩
  intro hmem
  obtain ⟨item, hitem, hpath⟩ := List.mem_map.mp hmem
  obtain ⟨name, _, hlater⟩ := exists_name_of_mem hitem
  have hlen := hlater.length_le
  rw [hpath, Item.path, List.length_append, List.length_singleton] at hlen
  omega

theorem contained_walk (late : α → Bool) (forest : Forest ν α) (above : List ν) :
    Contained [.directory above] (forest.direct late above ++ forest.deeper late above) := by
  rw [contained_append]
  refine ⟨contained_direct late forest (by simp), contained_deeper late forest ?_⟩
  simp

end Forest

end Adb.Forests
