import Mathlib.Data.List.Induction
import Mathlib.Data.List.Perm.Basic
import Adb.Forests
import Adb.HostPaths
import Adb.SyncClientRuns

/-!
The list that `local_build_list` makes of a local directory tree: the objects
of the tree, and one entry for each directory in which nothing is.
-/

namespace Adb.LocalListing

open Adb.DescriptorIo
open Adb.Forests
open Adb.ServiceConnection
open Adb.StoppingPrograms
open Adb.SyncClient
open Adb.SyncClientRuns
open Adb.SyncMessages
open Adb.SyncTransfers
open Adb.WirePackets

abbrev LocalForest := Forest Bytes FileInfo

/-- A name in a directory. -/
structure FileName (name : Bytes) : Prop where
  ne_nil : name ≠ []
  separator_not_mem : 47 ∉ name

/-- The path of a directory below a root, with a separator at its end. -/
def directoryPath (root : Bytes) (names : List Bytes) : Bytes :=
  root ++ names.flatMap (· ++ [47])

section Tree

variable (world : World) (lroot rroot : Bytes)

/-- Whenever the directory is read, these are the entries of it. -/
def Lists (forest : LocalForest) (above : List Bytes) : Prop :=
  ∃ names, (∀ n, world.readdir n (directoryPath lroot above) = some names) ∧
    names.filter (fun name => !isDotOrDotDot name) = forest.names

/-- Whenever the entries of a directory and what is below them are looked at,
this is what is there. -/
def Holds : LocalForest → List Bytes → Prop
  | .nil, _ => True
  | .object name info rest, above =>
      (∀ n, world.lstat n (directoryPath lroot above ++ name) = some info) ∧
        sIsDir info.mode = false ∧ Holds rest above
  | .directory name children rest, above =>
      (∃ info, (∀ n, world.lstat n (directoryPath lroot above ++ name) = some info) ∧
        sIsDir info.mode = true) ∧
        Lists world lroot children (above ++ [name]) ∧ Holds children (above ++ [name]) ∧
        Holds rest above

/-- The entry of an object that is not a directory. -/
def entryOf (object : List Bytes × Bytes × FileInfo) : CopyInfo where
  lpath := directoryPath lroot object.1 ++ object.2.1
  rpath := directoryPath rroot object.1 ++ object.2.1
  time := object.2.2.mtime
  mode := object.2.2.mode
  size := object.2.2.size
  skip := !shouldPushFile object.2.2.mode

/-- The entry of an empty directory. -/
def emptyEntry (names : List Bytes) : CopyInfo :=
  { copyInfo (world.dirname (directoryPath lroot names))
      (world.dirname (directoryPath rroot names))
      (world.basename (directoryPath lroot names)) directoryMode with skip := true }

/-- What there is to list in a directory. -/
def expected (forest : LocalForest) (above : List Bytes) : List CopyInfo :=
  (forest.objects above).map (entryOf lroot rroot) ++
    (forest.emptyFrom above).map (emptyEntry world lroot rroot)

end Tree

theorem Holds.of_mem {world : World} {lroot : Bytes} {forest children : LocalForest}
    {above : List Bytes} {name : Bytes} (h : Holds world lroot forest above)
    (hmem : (name, children) ∈ forest.subdirectories) :
    Lists world lroot children (above ++ [name]) ∧ Holds world lroot children (above ++ [name]) := by
  induction forest with
  | nil => cases hmem
  | object _ _ rest ih => exact ih h.2.2 hmem
  | directory name' children' rest _ ih =>
      rcases List.mem_cons.mp hmem with heq | hrest
      · obtain ⟨rfl, rfl⟩ := Prod.mk.inj heq
        exact ⟨h.2.1, h.2.2.1⟩
      · exact ih h.2.2.2 hrest

@[simp] theorem directoryPath_nil (root : Bytes) : directoryPath root [] = root :=
  List.append_nil root

theorem directoryPath_concat (root : Bytes) (above : List Bytes) (name : Bytes) :
    directoryPath root (above ++ [name]) = directoryPath root above ++ (name ++ [47]) := by
  rw [directoryPath, List.flatMap_append, List.flatMap_singleton, ← List.append_assoc]
  rfl

theorem getLast_directoryPath {root : Bytes} (h : root.getLast? = some 47)
    (above : List Bytes) : (directoryPath root above).getLast? = some 47 := by
  induction above using List.reverseRecOn with
  | nil =>
      rw [directoryPath, List.flatMap_nil, List.append_nil]
      exact h
  | append_singleton above name _ =>
      rw [directoryPath_concat, ← List.append_assoc, List.getLast?_concat]

theorem withSeparator_of_getLast {path : Bytes} (h : path.getLast? = some 47) :
    withSeparator path = path := if_pos h

theorem withSeparator_name {name : Bytes} (h : FileName name) (path : Bytes) :
    withSeparator (path ++ name) = path ++ (name ++ [47]) := by
  have hlast : (path ++ name).getLast? ≠ some 47 := by
    intro hlast
    rw [List.getLast?_append_of_ne_nil _ h.ne_nil] at hlast
    exact h.separator_not_mem (List.mem_of_getLast? hlast)
  rw [withSeparator, if_neg hlast, List.append_assoc]

variable {world : World} {lroot rroot : Bytes}

theorem copyInfo_object (hl : lroot.getLast? = some 47) (hr : rroot.getLast? = some 47)
    (above : List Bytes) (name : Bytes) {info : FileInfo} (h : sIsDir info.mode = false) :
    { copyInfo (directoryPath lroot above) (directoryPath rroot above) name info.mode with
      skip := !shouldPushFile info.mode
      time := info.mtime
      size := info.size } = entryOf lroot rroot (above, name, info) := by
  simp only [copyInfo, withSeparator_of_getLast (getLast_directoryPath hl above),
    withSeparator_of_getLast (getLast_directoryPath hr above), h, Bool.false_eq_true, if_false,
    entryOf]

theorem copyInfo_directory (hl : lroot.getLast? = some 47) (hr : rroot.getLast? = some 47)
    (above : List Bytes) {name : Bytes} (hname : FileName name) {mode : Nat}
    (h : sIsDir mode = true) :
    (copyInfo (directoryPath lroot above) (directoryPath rroot above) name mode).lpath =
        directoryPath lroot (above ++ [name]) ∧
      (copyInfo (directoryPath lroot above) (directoryPath rroot above) name mode).rpath =
        directoryPath rroot (above ++ [name]) := by
  simp only [copyInfo, withSeparator_of_getLast (getLast_directoryPath hl above),
    withSeparator_of_getLast (getLast_directoryPath hr above), h, if_true,
    withSeparator_name hname, directoryPath_concat, and_self]

/-! ## One directory -/

theorem execute_lstatEach (hl : lroot.getLast? = some 47) (hr : rroot.getLast? = some 47)
    {forest : LocalForest} {above : List Bytes} (hnames : forest.EachName FileName)
    (hholds : Holds world lroot forest above) (s : Session) :
    ∃ dirs s', execute (lstatEach (localMachine world) (directoryPath lroot above)
        (directoryPath rroot above) forest.names) s =
      (.ok (forest.here.map (fun o => entryOf lroot rroot (above, o.1, o.2)), dirs), s') ∧
      dirs.map (fun ci => (ci.lpath, ci.rpath)) = forest.subdirectories.map fun d =>
        (directoryPath lroot (above ++ [d.1]), directoryPath rroot (above ++ [d.1])) := by
  induction forest generalizing s with
  | nil => exact ⟨[], s, rfl, rfl⟩
  | object name info rest ih =>
      obtain ⟨hlstat, hobject, hrest⟩ := hholds
      obtain ⟨dirs, s', hexecute, hdirs⟩ := ih hnames.2 hrest { s with calls := s.calls + 1 }
      refine ⟨dirs, s', ?_, hdirs⟩
      rw [Forest.names, lstatEach, execute_bind_of_ok (execute_ask
        (fun n => world.lstat n (directoryPath lroot above ++ name)) s),
        execute_bind_of_ok hexecute, hlstat]
      simp only [hobject, Bool.false_eq_true, if_false, copyInfo_object hl hr above name hobject]
      rfl
  | directory name children rest _ ih =>
      obtain ⟨⟨info, hlstat, hdir⟩, _, _, hrest⟩ := hholds
      obtain ⟨dirs, s', hexecute, hdirs⟩ := ih hnames.2.2 hrest { s with calls := s.calls + 1 }
      refine ⟨copyInfo (directoryPath lroot above) (directoryPath rroot above) name info.mode ::
        dirs, s', ?_, ?_⟩
      · rw [Forest.names, lstatEach, execute_bind_of_ok (execute_ask
          (fun n => world.lstat n (directoryPath lroot above ++ name)) s),
          execute_bind_of_ok hexecute, hlstat]
        simp only [hdir, if_true]
        rfl
      · obtain ⟨hlpath, hrpath⟩ := copyInfo_directory hl hr above hnames.1 hdir
        rw [List.map_cons, hdirs, hlpath, hrpath]
        rfl

theorem execute_buildLocalDirs {build : Bytes → Bytes → Client (Option (List CopyInfo))}
    {above : List Bytes} {subs : List (Bytes × LocalForest)} {dirs : List CopyInfo}
    (hdirs : dirs.map (fun ci => (ci.lpath, ci.rpath)) = subs.map fun d =>
      (directoryPath lroot (above ++ [d.1]), directoryPath rroot (above ++ [d.1])))
    (hbuild : ∀ d ∈ subs, ∀ s, ∃ list s',
      execute (build (directoryPath lroot (above ++ [d.1]))
        (directoryPath rroot (above ++ [d.1]))) s = (.ok (some list), s') ∧
      list.Perm (expected world lroot rroot d.2 (above ++ [d.1])))
    (s : Session) :
    ∃ found s', execute (buildLocalDirs build dirs) s = (.ok found, s') ∧
      found.Perm (subs.flatMap fun d => expected world lroot rroot d.2 (above ++ [d.1])) := by
  induction subs generalizing dirs s with
  | nil =>
      obtain rfl := List.map_eq_nil_iff.mp hdirs
      exact ⟨[], s, rfl, List.Perm.refl _⟩
  | cons d subs ih =>
      cases dirs with
      | nil => cases hdirs
      | cons ci dirs =>
          rw [List.map_cons, List.map_cons] at hdirs
          obtain ⟨hci, hdirs⟩ := List.cons.inj hdirs
          obtain ⟨hlpath, hrpath⟩ := Prod.mk.inj hci
          obtain ⟨list, s₁, hfirst, hlist⟩ := hbuild d (by simp) s
          obtain ⟨found, s₂, hrest, hfound⟩ := ih hdirs
            (fun d' hd' => hbuild d' (by simp [hd'])) s₁
          rw [← hlpath, ← hrpath] at hfirst
          refine ⟨list ++ found, s₂, ?_, ?_⟩
          · rw [buildLocalDirs, execute_bind_of_ok hfirst, execute_bind_of_ok hrest]
            rfl
          · rw [List.flatMap_cons]
            exact hlist.append hfound

theorem perm_expected {forest : LocalForest} (h : forest ≠ .nil) (above : List Bytes) :
    (expected world lroot rroot forest above).Perm
      (forest.here.map (fun o => entryOf lroot rroot (above, o.1, o.2)) ++
        forest.subdirectories.flatMap fun d =>
          expected world lroot rroot d.2 (above ++ [d.1])) := by
  have hobjects := (forest.perm_objects above).map (entryOf lroot rroot)
  rw [List.map_append, List.map_map, List.map_flatMap] at hobjects
  rw [expected, forest.emptyFrom_of_ne_nil h above, forest.emptyDirectories_eq above,
    List.map_flatMap]
  refine (hobjects.append_right _).trans ?_
  rw [List.append_assoc]
  refine List.Perm.append_left _ ?_
  exact List.flatMap_append_perm _ _ _

theorem execute_localBuildList (hl : lroot.getLast? = some 47) (hr : rroot.getLast? = some 47)
    {depth : Nat} {forest : LocalForest} {above : List Bytes} (hdepth : forest.depth < depth)
    (hnames : forest.EachName FileName) (hlists : Lists world lroot forest above)
    (hholds : Holds world lroot forest above) (s : Session) :
    ∃ list s', execute (localBuildList (localMachine world) depth (directoryPath lroot above)
        (directoryPath rroot above)) s = (.ok (some list), s') ∧
      list.Perm (expected world lroot rroot forest above) := by
  induction depth generalizing forest above s with
  | zero => cases hdepth
  | succ depth ih =>
      obtain ⟨names, hreaddir, hfilter⟩ := hlists
      rw [localBuildList, execute_bind_of_ok
        (execute_ask (fun n => world.readdir n (directoryPath lroot above)) s), hreaddir]
      simp only [hfilter]
      rcases Classical.em (forest = .nil) with rfl | hsome
      · exact ⟨_, _, rfl, List.Perm.refl _⟩
      · rw [if_neg (Forest.names_ne_nil hsome)]
        obtain ⟨dirs, s₁, hfiles, hdirs⟩ :=
          execute_lstatEach hl hr hnames hholds { s with calls := s.calls + 1 }
        have hbuild : ∀ d ∈ forest.subdirectories, ∀ s, ∃ list s',
            execute (localBuildList (localMachine world) depth (directoryPath lroot (above ++ [d.1]))
              (directoryPath rroot (above ++ [d.1]))) s = (.ok (some list), s') ∧
            list.Perm (expected world lroot rroot d.2 (above ++ [d.1])) := by
          intro d hd s
          have hlt := Forest.depth_lt_of_mem hd
          have hbelow := hholds.of_mem hd
          exact ih (by omega) (hnames.of_mem hd) hbelow.1 hbelow.2 s
        obtain ⟨found, s₂, hrest, hfound⟩ := execute_buildLocalDirs hdirs hbuild s₁
        refine ⟨_, s₂, ?_, ((List.Perm.append_left _ hfound).trans
          (perm_expected hsome above).symm)⟩
        rw [execute_bind_of_ok hfiles, execute_bind_of_ok hrest]
        rfl

/-- For every tree and every two roots that end in a separator, the list has
exactly one entry for each object that is not a directory and one for each empty
directory. -/
theorem local_build_list_complete (world : World) (lroot rroot : Bytes)
    (hl : lroot.getLast? = some 47) (hr : rroot.getLast? = some 47) (forest : LocalForest)
    (hnames : forest.EachName FileName) (hlists : Lists world lroot forest [])
    (hholds : Holds world lroot forest []) (depth : Nat) (hdepth : forest.depth < depth)
    (s : Session) :
    ∃ list s', execute (localBuildList (localMachine world) depth lroot rroot) s = (.ok (some list), s') ∧
      list.Perm ((forest.objects []).map (entryOf lroot rroot) ++
        (forest.emptyFrom []).map (emptyEntry world lroot rroot)) := by
  obtain ⟨list, s', hlist, hperm⟩ := execute_localBuildList hl hr hdepth hnames hlists hholds s
  refine ⟨list, s', ?_, hperm⟩
  rw [directoryPath_nil, directoryPath_nil] at hlist
  exact hlist

/-- A file, a socket, an empty directory, and a directory with a link in it. -/
def sampleForest : LocalForest :=
  .object (ascii "a") ⟨0o100644, 3, 7⟩ <|
  .object (ascii "s") ⟨0o140755, 0, 8⟩ <|
  .directory (ascii "e") .nil <|
  .directory (ascii "d") (.object (ascii "l") ⟨0o120777, 5, 9⟩ .nil) .nil

/-- The machine on which the sample lies in a directory. -/
def sampleWorld : World where
  stat _ _ := .error .enoent
  lstat _ path :=
    if path = ascii "top/a" then some ⟨0o100644, 3, 7⟩
    else if path = ascii "top/s" then some ⟨0o140755, 0, 8⟩
    else if path = ascii "top/e" then some ⟨0o040755, 4096, 1⟩
    else if path = ascii "top/d" then some ⟨0o040755, 4096, 1⟩
    else if path = ascii "top/d/l" then some ⟨0o120777, 5, 9⟩
    else none
  readdir _ path :=
    if path = ascii "top/" then
      some [ascii ".", ascii "..", ascii "a", ascii "s", ascii "e", ascii "d"]
    else if path = ascii "top/e/" then some [ascii ".", ascii ".."]
    else if path = ascii "top/d/" then some [ascii "..", ascii "l", ascii "."]
    else none
  readFileToString _ _ := none
  largeStat _ _ := .error .enoent
  largeOpened _ := false
  largeReads _ := []
  polled _ := .quiet
  readlink _ _ := none
  created _ := false
  written _ := false
  madeDirs _ := false
  setTimeAndMode _ := false
  sent _ := false
  errnoFromWire _ := .enoent
  basename := HostPaths.posixBasename
  dirname := HostPaths.posixDirname

/-- A connection to a device without files. -/
def sampleSession : Session where
  service := ⟨SyncService.initialService fun _ => none, []⟩
  written := []
  haveStatV2 := true
  expectDone := false
  broken := false
  calls := 0
  requests := []

theorem local_build_list_complete_sample :
    ∃ list s', execute (localBuildList (localMachine sampleWorld) 3 (ascii "top/") (ascii "/sdcard/x/"))
        sampleSession = (.ok (some list), s') ∧
      list.Perm [⟨ascii "top/a", ascii "/sdcard/x/a", 7, 0o100644, 3, false⟩,
        ⟨ascii "top/s", ascii "/sdcard/x/s", 8, 0o140755, 0, true⟩,
        ⟨ascii "top/d/l", ascii "/sdcard/x/d/l", 9, 0o120777, 5, false⟩,
        ⟨ascii "top/e/", ascii "/sdcard/x/e/", 0, directoryMode, 0, true⟩] := by
  refine local_build_list_complete sampleWorld (ascii "top/") (ascii "/sdcard/x/") rfl rfl
    sampleForest ?_ ?_ ?_ 3 (by decide) sampleSession
  · refine ⟨⟨by decide, by decide⟩, ⟨by decide, by decide⟩, ⟨by decide, by decide⟩, trivial,
      ⟨by decide, by decide⟩, ⟨⟨by decide, by decide⟩, trivial⟩, trivial⟩
  · exact ⟨_, fun _ => rfl, by decide⟩
  · refine ⟨fun _ => rfl, by decide, fun _ => rfl, by decide, ⟨_, fun _ => rfl, by decide⟩,
      ⟨_, fun _ => rfl, by decide⟩, trivial, ⟨_, fun _ => rfl, by decide⟩,
      ⟨_, fun _ => rfl, by decide⟩, ⟨fun _ => rfl, by decide, trivial⟩, trivial⟩

end Adb.LocalListing
