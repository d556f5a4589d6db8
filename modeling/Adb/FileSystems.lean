import Adb.PathResolution
import Mathlib.Data.List.Basic

/-!
File systems of directories, symbolic links and other objects: where a walk leads to,
and what becomes of it when directories are added.
-/

namespace Adb.FileSystems

open Adb.PathResolution

/-- The entries name nodes by their numbers. -/
structure Directory (α : Type) where
  mode : Nat
  parent : Nat
  entries : α → Option Nat

inductive Node (α τ : Type) where
  | directory (d : Directory α)
  | symlink (rooted : Bool) (target : List (Step α))
  | other (content : τ)

def IsDirectory {α τ : Type} (nodes : List (Node α τ)) (i : Nat) : Prop :=
  ∃ d, nodes[i]? = some (.directory d)

structure FileSystem (α τ : Type) where
  nodes : List (Node α τ)
  root : Nat
  cwd : Nat
  umask : Nat
  root_isDirectory : IsDirectory nodes root
  cwd_isDirectory : IsDirectory nodes cwd
  parent_isDirectory : ∀ d, .directory d ∈ nodes → IsDirectory nodes d.parent
  entries_lt : ∀ d, .directory d ∈ nodes → ∀ name i, d.entries name = some i → i < nodes.length

/-- Where a walk leads to: a node, or a name that its directory does not have. -/
inductive Outcome (α : Type) where
  | found (i : Nat)
  | missing (dir : Nat) (name : α)
  | notFound
  | notDirectory
  | tooManyLinks
  deriving DecidableEq, Repr

namespace FileSystem

variable {α τ : Type} (fs : FileSystem α τ)

/-- A walk up to the next symbolic link, from where it is taken up again.  A link at the
end of the walk is followed on demand. -/
def advance (follow : Bool) (takeUp : Nat → List (Step α) → Outcome α) :
    Nat → List (Step α) → Outcome α
  | dir, [] => .found dir
  | dir, s :: steps =>
      match fs.nodes[dir]? with
      | some (.directory d) =>
          match s with
          | .stay => advance follow takeUp dir steps
          | .up => advance follow takeUp d.parent steps
          | .down name =>
              match d.entries name with
              | none => if steps.isEmpty then .missing dir name else .notFound
              | some child =>
                  match fs.nodes[child]? with
                  | some (.symlink rooted target) =>
                      if steps.isEmpty && !follow then .found child
                      else takeUp (if rooted then fs.root else dir) (target ++ steps)
                  | _ => advance follow takeUp child steps
      | _ => .notDirectory

def walk (follow : Bool) : Nat → Nat → List (Step α) → Outcome α
  | 0 => fs.advance follow fun _ _ => .tooManyLinks
  | links + 1 => fs.advance follow (walk follow links)

/-- The walks that lead to a node or to a name that is missing. -/
inductive Leads (follow : Bool) : Nat → Nat → List (Step α) → Outcome α → Prop where
  | here {links dir : Nat} : Leads follow links dir [] (.found dir)
  | stay {links dir : Nat} {d : Directory α} {steps : List (Step α)} {outcome : Outcome α}
      (hdir : fs.nodes[dir]? = some (.directory d)) (h : Leads follow links dir steps outcome) :
      Leads follow links dir (.stay :: steps) outcome
  | up {links dir : Nat} {d : Directory α} {steps : List (Step α)} {outcome : Outcome α}
      (hdir : fs.nodes[dir]? = some (.directory d))
      (h : Leads follow links d.parent steps outcome) :
      Leads follow links dir (.up :: steps) outcome
  | missing {links dir : Nat} {d : Directory α} {name : α}
      (hdir : fs.nodes[dir]? = some (.directory d)) (hname : d.entries name = none) :
      Leads follow links dir [.down name] (.missing dir name)
  | down {links dir child : Nat} {d : Directory α} {name : α} {steps : List (Step α)}
      {outcome : Outcome α} (hdir : fs.nodes[dir]? = some (.directory d))
      (hname : d.entries name = some child)
      (hchild : ∀ rooted target, fs.nodes[child]? ≠ some (.symlink rooted target))
      (h : Leads follow links child steps outcome) :
      Leads follow links dir (.down name :: steps) outcome
  | last {links dir child : Nat} {d : Directory α} {name : α} {rooted : Bool}
      {target : List (Step α)} (hdir : fs.nodes[dir]? = some (.directory d))
      (hname : d.entries name = some child)
      (hchild : fs.nodes[child]? = some (.symlink rooted target)) (hfollow : follow = false) :
      Leads follow links dir [.down name] (.found child)
  | link {links dir child : Nat} {d : Directory α} {name : α} {steps : List (Step α)}
      {rooted : Bool} {target : List (Step α)} {outcome : Outcome α}
      (hdir : fs.nodes[dir]? = some (.directory d)) (hname : d.entries name = some child)
      (hchild : fs.nodes[child]? = some (.symlink rooted target))
      (hfollow : (steps.isEmpty && !follow) = false)
      (h : Leads follow links (if rooted then fs.root else dir) (target ++ steps) outcome) :
      Leads follow (links + 1) dir (.down name :: steps) outcome

end FileSystem

def Outcome.IsPlace {α : Type} (outcome : Outcome α) : Prop :=
  (∃ i, outcome = .found i) ∨ ∃ dir name, outcome = .missing dir name

section

variable {α τ : Type} {fs : FileSystem α τ} {follow : Bool} {links dir : Nat}
  {steps : List (Step α)} {outcome : Outcome α}

theorem walk_eq_advance (fs : FileSystem α τ) (follow : Bool) (links : Nat) :
    ∃ takeUp, fs.walk follow links = fs.advance follow takeUp := by
  cases links with
  | zero => exact ⟨_, rfl⟩
  | succ links => exact ⟨_, rfl⟩

theorem walk_of_leads (h : fs.Leads follow links dir steps outcome) :
    fs.walk follow links dir steps = outcome := by
  induction h with
  | @here links dir =>
      obtain ⟨takeUp, hwalk⟩ := walk_eq_advance fs follow links
      rw [hwalk]
      rfl
  | @stay links dir d steps outcome hdir h ih =>
      obtain ⟨takeUp, hwalk⟩ := walk_eq_advance fs follow links
      rw [hwalk] at ih ⊢
      simp only [FileSystem.advance, hdir, ih]
  | @up links dir d steps outcome hdir h ih =>
      obtain ⟨takeUp, hwalk⟩ := walk_eq_advance fs follow links
      rw [hwalk] at ih ⊢
      simp only [FileSystem.advance, hdir, ih]
  | @missing links dir d name hdir hname =>
      obtain ⟨takeUp, hwalk⟩ := walk_eq_advance fs follow links
      rw [hwalk]
      simp [FileSystem.advance, hdir, hname]
  | @down links dir child d name steps outcome hdir hname hchild h ih =>
      obtain ⟨takeUp, hwalk⟩ := walk_eq_advance fs follow links
      rw [hwalk] at ih ⊢
      simp only [FileSystem.advance, hdir, hname]
      exact ih
  | @last links dir child d name rooted target hdir hname hchild hfollow =>
      obtain ⟨takeUp, hwalk⟩ := walk_eq_advance fs follow links
      rw [hwalk]
      simp [FileSystem.advance, hdir, hname, hchild, hfollow]
  | @link links dir child d name steps rooted target outcome hdir hname hchild hfollow h ih =>
      rw [FileSystem.walk, FileSystem.advance]
      simp only [hdir, hname, hchild, hfollow]
      exact ih

theorem leads_of_advance {takeUp : Nat → List (Step α) → Outcome α}
    (htakeUp : ∀ dir steps, (takeUp dir steps).IsPlace →
      ∃ fewer, links = fewer + 1 ∧ fs.Leads follow fewer dir steps (takeUp dir steps))
    (h : (fs.advance follow takeUp dir steps).IsPlace) :
    fs.Leads follow links dir steps (fs.advance follow takeUp dir steps) := by
  induction steps generalizing dir with
  | nil => exact .here
  | cons s steps ih =>
      rw [FileSystem.advance] at h ⊢
      split at h
      · next d hdir =>
          cases s with
          | stay => exact .stay hdir (ih h)
          | up => exact .up hdir (ih h)
          | down name =>
              dsimp only at h ⊢
              split at h
              · next hname =>
                  split at h
                  · next hlast =>
                      rw [List.isEmpty_iff] at hlast
                      subst hlast
                      exact .missing hdir hname
                  · simp [Outcome.IsPlace] at h
              · next child hname =>
                  split at h
                  · next rooted target hchild =>
                      by_cases hlast : (steps.isEmpty && !follow) = true
                      · rw [if_pos hlast]
                        rw [Bool.and_eq_true, List.isEmpty_iff, Bool.not_eq_true'] at hlast
                        obtain ⟨rfl, hfollow⟩ := hlast
                        exact .last hdir hname hchild hfollow
                      · rw [if_neg hlast] at h ⊢
                        obtain ⟨fewer, rfl, hleads⟩ := htakeUp _ _ h
                        exact .link hdir hname hchild (Bool.eq_false_iff.mpr hlast) hleads
                  · next hchild =>
                      exact .down hdir hname (fun rooted target hlink => hchild rooted target hlink)
                        (ih h)
      · simp [Outcome.IsPlace] at h

theorem leads_of_walk (h : (fs.walk follow links dir steps).IsPlace) :
    fs.Leads follow links dir steps (fs.walk follow links dir steps) := by
  induction links generalizing dir steps with
  | zero => exact leads_of_advance (fun _ _ hplace => by simp [Outcome.IsPlace] at hplace) h
  | succ links ih => exact leads_of_advance (fun _ _ hplace => ⟨links, rfl, ih hplace⟩) h

theorem leads_of_walk_eq {o : Outcome α} (h : fs.walk follow links dir steps = o)
    (ho : o.IsPlace) : fs.Leads follow links dir steps o := by
  subst h
  exact leads_of_walk ho

theorem leads_follow {dir' : Nat} {name : α}
    (h : fs.Leads follow links dir steps (.missing dir' name)) :
    fs.Leads true links dir steps (.missing dir' name) := by
  generalize ho : Outcome.missing dir' name = o at h
  induction h with
  | here => cases ho
  | stay hdir h ih => exact .stay hdir (ih ho)
  | up hdir h ih => exact .up hdir (ih ho)
  | missing hdir hname => exact .missing hdir hname
  | down hdir hname hchild h ih => exact .down hdir hname hchild (ih ho)
  | last hdir hname hchild hfollow => cases ho
  | link hdir hname hchild hfollow h ih =>
      exact .link hdir hname hchild (Bool.and_false _) (ih ho)

theorem missing_of_leads {dir' : Nat} {name : α}
    (h : fs.Leads follow links dir steps (.missing dir' name)) :
    ∃ d, fs.nodes[dir']? = some (.directory d) ∧ d.entries name = none := by
  generalize ho : Outcome.missing dir' name = o at h
  induction h with
  | here => cases ho
  | stay hdir h ih => exact ih ho
  | up hdir h ih => exact ih ho
  | missing hdir hname =>
      cases ho
      exact ⟨_, hdir, hname⟩
  | down hdir hname hchild h ih => exact ih ho
  | last hdir hname hchild hfollow => cases ho
  | link hdir hname hchild hfollow h ih => exact ih ho

end

/-- The node is the same, or a directory that has got entries for fresh nodes. -/
inductive Grows {α τ : Type} (fresh : Nat) : Node α τ → Node α τ → Prop where
  | same (node : Node α τ) : Grows fresh node node
  | directory {d d' : Directory α} (hmode : d'.mode = d.mode) (hparent : d'.parent = d.parent)
      (hentries : ∀ name, d'.entries name = d.entries name ∨
        d.entries name = none ∧ ∃ i, d'.entries name = some i ∧ fresh ≤ i) :
      Grows fresh (.directory d) (.directory d')

/-- All that happens between two states is that directories are added, each of them at a
node of the given kind. -/
structure FileSystem.AddsOnly {α τ : Type} (fs fs' : FileSystem α τ) (kind : Nat → Prop) :
    Prop where
  root : fs'.root = fs.root
  cwd : fs'.cwd = fs.cwd
  umask : fs'.umask = fs.umask
  grows : ∀ (i : Nat) (node : Node α τ), fs.nodes[i]? = some node →
    ∃ node', fs'.nodes[i]? = some node' ∧ Grows fs.nodes.length node node'
  added : ∀ (i : Nat) (node : Node α τ), fs.nodes.length ≤ i → fs'.nodes[i]? = some node →
    kind i ∧ ∃ d : Directory α, node = .directory d ∧
      ∀ name j, d.entries name = some j → fs.nodes.length ≤ j

section

variable {α τ : Type} {fs fs' fs'' : FileSystem α τ} {kind kind' : Nat → Prop}
  {follow : Bool} {links dir : Nat} {steps : List (Step α)} {outcome : Outcome α}

theorem Grows.trans {fresh fresh' : Nat} {node node' node'' : Node α τ}
    (h : Grows fresh node node') (hle : fresh ≤ fresh') (h' : Grows fresh' node' node'') :
    Grows fresh node node'' := by
  cases h' with
  | same => exact h
  | @directory d' d'' hmode' hparent' hentries' =>
      cases h with
      | same =>
          refine .directory hmode' hparent' fun name => ?_
          rcases hentries' name with heq | ⟨hnone, i, hi, hfresh⟩
          · exact .inl heq
          · exact .inr ⟨hnone, i, hi, Nat.le_trans hle hfresh⟩
      | @directory d _ hmode hparent hentries =>
          refine .directory (hmode'.trans hmode) (hparent'.trans hparent) fun name => ?_
          rcases hentries' name with heq' | ⟨hnone', i, hi, hfresh⟩
          · rw [heq']
            exact hentries name
          · refine .inr ⟨?_, i, hi, Nat.le_trans hle hfresh⟩
            rcases hentries name with heq | ⟨hnone, -⟩
            · rw [← heq, hnone']
            · exact hnone

theorem FileSystem.AddsOnly.refl (fs : FileSystem α τ) (kind : Nat → Prop) :
    fs.AddsOnly fs kind where
  root := rfl
  cwd := rfl
  umask := rfl
  grows i node h := ⟨node, h, .same node⟩
  added i node hle h := by
    rw [List.getElem?_eq_none hle] at h
    cases h

theorem FileSystem.AddsOnly.length_le (h : fs.AddsOnly fs' kind) :
    fs.nodes.length ≤ fs'.nodes.length := by
  by_contra hlt
  rw [Nat.not_le] at hlt
  obtain ⟨node', hnode', -⟩ := h.grows fs'.nodes.length _ (List.getElem?_eq_getElem hlt)
  rw [List.getElem?_eq_none (Nat.le_refl _)] at hnode'
  cases hnode'

theorem FileSystem.AddsOnly.trans (h : fs.AddsOnly fs' kind) (h' : fs'.AddsOnly fs'' kind') :
    fs.AddsOnly fs'' fun i => kind i ∨ kind' i where
  root := h'.root.trans h.root
  cwd := h'.cwd.trans h.cwd
  umask := h'.umask.trans h.umask
  grows i node hnode := by
    obtain ⟨node', hnode', hgrows⟩ := h.grows i node hnode
    obtain ⟨node'', hnode'', hgrows'⟩ := h'.grows i node' hnode'
    exact ⟨node'', hnode'', hgrows.trans h.length_le hgrows'⟩
  added i node hle hnode := by
    rcases Nat.lt_or_ge i fs'.nodes.length with hlt | hge
    · obtain ⟨hkind, d, hd, hfresh⟩ := h.added i _ hle (List.getElem?_eq_getElem hlt)
      obtain ⟨node'', hnode'', hgrows⟩ := h'.grows i _ (List.getElem?_eq_getElem hlt)
      rw [hnode] at hnode''
      cases hnode''
      rw [hd] at hgrows
      refine ⟨.inl hkind, ?_⟩
      cases hgrows with
      | same => exact ⟨d, rfl, hfresh⟩
      | @directory _ d' hmode hparent hentries =>
          refine ⟨d', rfl, fun name j hj => ?_⟩
          rcases hentries name with heq | ⟨-, k, hk, hle'⟩
          · exact hfresh name j (heq ▸ hj)
          · rw [hk] at hj
            cases hj
            exact Nat.le_trans h.length_le hle'
    · obtain ⟨hkind, d, hd, hfresh⟩ := h'.added i node hge hnode
      exact ⟨.inr hkind, d, hd, fun name j hj => Nat.le_trans h.length_le (hfresh name j hj)⟩

theorem FileSystem.AddsOnly.imp (h : fs.AddsOnly fs' kind) (himp : ∀ i, kind i → kind' i) :
    fs.AddsOnly fs' kind' where
  root := h.root
  cwd := h.cwd
  umask := h.umask
  grows := h.grows
  added i node hle hnode := (h.added i node hle hnode).imp_left (himp i)

theorem FileSystem.AddsOnly.directory {i : Nat} {d : Directory α} (h : fs.AddsOnly fs' kind)
    (hi : fs.nodes[i]? = some (.directory d)) :
    ∃ d', fs'.nodes[i]? = some (.directory d') ∧ d'.parent = d.parent ∧
      ∀ name, d'.entries name = d.entries name ∨ d.entries name = none := by
  obtain ⟨node', hnode', hgrows⟩ := h.grows i _ hi
  cases hgrows with
  | same => exact ⟨d, hnode', rfl, fun _ => .inl rfl⟩
  | @directory _ d' hmode hparent hentries =>
      exact ⟨d', hnode', hparent, fun name => (hentries name).imp_right And.left⟩

/-- A walk leads to the same node when directories are added.  It may go on where a name
was missing. -/
theorem FileSystem.AddsOnly.leads (h : fs.AddsOnly fs' kind)
    (hleads : fs.Leads follow links dir steps outcome) {outcome' : Outcome α}
    (hfound : ∀ i, outcome = .found i → outcome' = .found i)
    (hmissing : ∀ links dir name, outcome = .missing dir name →
      fs'.Leads follow links dir [.down name] outcome') :
    fs'.Leads follow links dir steps outcome' := by
  have hentry : ∀ {dir child : Nat} {d : Directory α} {name : α}, fs.nodes[dir]? = some (.directory d) →
      d.entries name = some child →
      (∃ d', fs'.nodes[dir]? = some (.directory d') ∧ d'.entries name = some child) := by
    intro dir child d name hdir hname
    obtain ⟨d', hd', -, hentries⟩ := h.directory hdir
    refine ⟨d', hd', ?_⟩
    rcases hentries name with heq | hnone
    · rw [heq, hname]
    · rw [hname] at hnone
      cases hnone
  have hlink : ∀ {child : Nat} {rooted : Bool} {target : List (Step α)},
      fs.nodes[child]? = some (.symlink rooted target) →
      fs'.nodes[child]? = some (.symlink rooted target) := by
    intro child rooted target hchild
    obtain ⟨node', hnode', hgrows⟩ := h.grows child _ hchild
    cases hgrows
    exact hnode'
  induction hleads with
  | here =>
      rw [hfound _ rfl]
      exact .here
  | stay hdir _ ih =>
      obtain ⟨d', hd', -⟩ := h.directory hdir
      exact .stay hd' (ih hfound hmissing)
  | up hdir _ ih =>
      obtain ⟨d', hd', hparent, -⟩ := h.directory hdir
      have hup := ih hfound hmissing
      rw [← hparent] at hup
      exact .up hd' hup
  | missing hdir hname => exact hmissing _ _ _ rfl
  | @down links dir child d name steps outcome hdir hname hchild _ ih =>
      obtain ⟨d', hd', hname'⟩ := hentry hdir hname
      refine .down hd' hname' (fun rooted target hlink' => ?_) (ih hfound hmissing)
      have hlt := fs.entries_lt d (List.mem_of_getElem? hdir) name child hname
      obtain ⟨node', hnode', hgrows⟩ := h.grows child _ (List.getElem?_eq_getElem hlt)
      rw [hlink'] at hnode'
      cases hnode'
      have hnode : fs.nodes[child] = .symlink rooted target := by
        generalize fs.nodes[child] = node at hgrows
        cases hgrows
        rfl
      exact hchild rooted target ((List.getElem?_eq_getElem hlt).trans (congrArg some hnode))
  | last hdir hname hchild hfollow =>
      obtain ⟨d', hd', hname'⟩ := hentry hdir hname
      rw [hfound _ rfl]
      exact .last hd' hname' (hlink hchild) hfollow
  | @link links dir child d name steps rooted target outcome hdir hname hchild hfollow _ ih =>
      obtain ⟨d', hd', hname'⟩ := hentry hdir hname
      have hrest := ih hfound hmissing
      rw [← h.root] at hrest
      exact .link hd' hname' (hlink hchild) hfollow hrest

theorem FileSystem.AddsOnly.walk_found {i : Nat} (h : fs.AddsOnly fs' kind)
    (hwalk : fs.walk follow links dir steps = .found i) :
    fs'.walk follow links dir steps = .found i :=
  walk_of_leads (h.leads (leads_of_walk_eq hwalk (.inl ⟨i, rfl⟩)) (fun _ => id)
    fun _ _ _ hmissing => by cases hmissing)

end

theorem lt_of_getElem? {α τ : Type} {nodes : List (Node α τ)} {i : Nat} {node : Node α τ}
    (h : nodes[i]? = some node) : i < nodes.length :=
  (List.getElem?_eq_some_iff.mp h).1

section

variable {α τ : Type} [DecidableEq α]

/-- The nodes with a new directory at the end, under a name of another one. -/
def addedNodes (nodes : List (Node α τ)) (dir : Nat) (d : Directory α) (name : α) (mode : Nat) :
    List (Node α τ) :=
  nodes.set dir (.directory { d with
    entries := fun n => if n = name then some nodes.length else d.entries n }) ++
    [.directory ⟨mode, dir, fun _ => none⟩]

variable {nodes : List (Node α τ)} {dir i : Nat} {d : Directory α} {name : α} {mode : Nat}

theorem length_addedNodes : (addedNodes nodes dir d name mode).length = nodes.length + 1 := by
  rw [addedNodes, List.length_append, List.length_set]
  rfl

theorem getElem?_addedNodes_dir (h : dir < nodes.length) :
    (addedNodes nodes dir d name mode)[dir]? = some (.directory { d with
      entries := fun n => if n = name then some nodes.length else d.entries n }) := by
  rw [addedNodes, List.getElem?_append_left (by rwa [List.length_set]), List.getElem?_set_self h]

theorem getElem?_addedNodes_new :
    (addedNodes nodes dir d name mode)[nodes.length]? =
      some (.directory ⟨mode, dir, fun _ => none⟩) := by
  rw [addedNodes, List.getElem?_append_right (by rw [List.length_set]), List.length_set,
    Nat.sub_self]
  rfl

theorem getElem?_addedNodes_other (hdir : i ≠ dir) (hnew : i ≠ nodes.length) :
    (addedNodes nodes dir d name mode)[i]? = nodes[i]? := by
  rcases Nat.lt_or_ge i nodes.length with hlt | hge
  · rw [addedNodes, List.getElem?_append_left (by rwa [List.length_set]),
      List.getElem?_set_ne hdir.symm]
  · have hlt : nodes.length + 1 ≤ i := Nat.lt_of_le_of_ne hge hnew.symm
    rw [List.getElem?_eq_none hge, List.getElem?_eq_none (by rwa [length_addedNodes])]

theorem isDirectory_addedNodes (hdir : dir < nodes.length) (h : IsDirectory nodes i) :
    IsDirectory (addedNodes nodes dir d name mode) i := by
  obtain ⟨d', hd'⟩ := h
  by_cases heq : i = dir
  · subst heq
    exact ⟨_, getElem?_addedNodes_dir hdir⟩
  · exact ⟨d', by rw [getElem?_addedNodes_other heq (lt_of_getElem? hd').ne, hd']⟩

theorem directory_mem_addedNodes {d' : Directory α} (hdir : nodes[dir]? = some (.directory d))
    (h : .directory d' ∈ addedNodes nodes dir d name mode) :
    d' = ⟨mode, dir, fun _ => none⟩ ∨
      d' = { d with entries := fun n => if n = name then some nodes.length else d.entries n } ∨
      .directory d' ∈ nodes := by
  obtain ⟨i, hi⟩ := List.getElem?_of_mem h
  by_cases hnew : i = nodes.length
  · rw [hnew, getElem?_addedNodes_new] at hi
    cases hi
    exact .inl rfl
  · by_cases heq : i = dir
    · rw [heq, getElem?_addedNodes_dir (lt_of_getElem? hdir)] at hi
      cases hi
      exact .inr (.inl rfl)
    · rw [getElem?_addedNodes_other heq hnew] at hi
      exact .inr (.inr (List.mem_of_getElem? hi))

def FileSystem.addDirectory (fs : FileSystem α τ) (dir : Nat) (d : Directory α)
    (hdir : fs.nodes[dir]? = some (.directory d)) (name : α) (mode : Nat) : FileSystem α τ where
  nodes := addedNodes fs.nodes dir d name mode
  root := fs.root
  cwd := fs.cwd
  umask := fs.umask
  root_isDirectory := isDirectory_addedNodes (lt_of_getElem? hdir) fs.root_isDirectory
  cwd_isDirectory := isDirectory_addedNodes (lt_of_getElem? hdir) fs.cwd_isDirectory
  parent_isDirectory := by
    intro d' hd'
    apply isDirectory_addedNodes (lt_of_getElem? hdir)
    rcases directory_mem_addedNodes hdir hd' with rfl | rfl | hd'
    · exact ⟨d, hdir⟩
    · exact fs.parent_isDirectory d (List.mem_of_getElem? hdir)
    · exact fs.parent_isDirectory d' hd'
  entries_lt := by
    intro d' hd' n i hn
    rw [length_addedNodes]
    rcases directory_mem_addedNodes hdir hd' with rfl | rfl | hd'
    · cases hn
    · dsimp only at hn
      split at hn
      · cases hn
        exact Nat.lt_succ_self _
      · exact Nat.lt_succ_of_lt (fs.entries_lt d (List.mem_of_getElem? hdir) n i hn)
    · exact Nat.lt_succ_of_lt (fs.entries_lt d' hd' n i hn)

variable {fs : FileSystem α τ} {hdir : fs.nodes[dir]? = some (.directory d)}

theorem addDirectory_addsOnly (hname : d.entries name = none) :
    fs.AddsOnly (fs.addDirectory dir d hdir name mode) (· = fs.nodes.length) where
  root := rfl
  cwd := rfl
  umask := rfl
  grows i node hnode := by
    by_cases heq : i = dir
    · subst heq
      rw [hdir] at hnode
      cases hnode
      refine ⟨_, getElem?_addedNodes_dir (lt_of_getElem? hdir), .directory rfl rfl fun n => ?_⟩
      dsimp only
      split
      · next hn => exact .inr ⟨hn ▸ hname, _, rfl, Nat.le_refl _⟩
      · exact .inl rfl
    · refine ⟨node, ?_, .same node⟩
      rw [← hnode]
      exact getElem?_addedNodes_other heq (lt_of_getElem? hnode).ne
  added i node hle hnode := by
    have hlt : i < (addedNodes fs.nodes dir d name mode).length := lt_of_getElem? hnode
    rw [length_addedNodes] at hlt
    obtain rfl : i = fs.nodes.length := Nat.le_antisymm (Nat.le_of_lt_succ hlt) hle
    have hnew : some node = some _ := hnode.symm.trans getElem?_addedNodes_new
    cases hnew
    exact ⟨rfl, _, rfl, by simp⟩

theorem walk_addDirectory {follow : Bool} {links start : Nat} {steps : List (Step α)}
    (hname : d.entries name = none)
    (h : fs.walk follow links start steps = .missing dir name) :
    (fs.addDirectory dir d hdir name mode).walk true links start steps =
      .found fs.nodes.length := by
  have hleads := leads_follow (leads_of_walk_eq h (.inr ⟨dir, name, rfl⟩))
  apply walk_of_leads
  apply (addDirectory_addsOnly hname).leads hleads (fun _ hfound => by cases hfound)
  intro links' dir' name' heq
  cases heq
  have hentry : (fs.addDirectory dir d hdir name mode).nodes[dir]? = some _ :=
    getElem?_addedNodes_dir (lt_of_getElem? hdir)
  have hnew : (fs.addDirectory dir d hdir name mode).nodes[fs.nodes.length]? = some _ :=
    getElem?_addedNodes_new
  refine .down hentry (if_pos rfl) (fun rooted target hlink => ?_) .here
  rw [hnew] at hlink
  cases hlink

theorem isDirectory_addDirectory :
    IsDirectory (fs.addDirectory dir d hdir name mode).nodes fs.nodes.length :=
  ⟨_, getElem?_addedNodes_new⟩

end

end Adb.FileSystems
