import Mathlib.Data.List.Nodup
import Adb.LocalListing
import Adb.PullContainment
import Adb.RemoteListing

/-!
The list that `remote_build_list` makes of a tree that the device serves with
`do_list` and `do_stat_v2`.
-/

namespace Adb.PullListing

open Adb.DescriptorIo
open Adb.Forests
open Adb.HostPaths
open Adb.LocalListing (FileName directoryPath directoryPath_concat directoryPath_nil
  getLast_directoryPath withSeparator_name withSeparator_of_getLast)
open Adb.PathResolution
open Adb.ProtocolStrings
open Adb.PullContainment
open Adb.RemoteListing
open Adb.StoppingPrograms
open Adb.SyncClient (ClientErrno FileInfo)
open Adb.SyncMessages
open Adb.SyncService (Dent dent dentDone)
open Adb.SyncTransfers hiding dentOf
open Adb.WirePackets

/-! ## The device -/

/-- The file system of the device. -/
structure FileSystem where
  readdir : Bytes → Option (List Bytes)
  lstat : Bytes → Option FileInfo
  stat : Bytes → Option FileInfo

/-- One entry of `do_list`; nothing is sent for a name that `lstat` does not
find. -/
def dentOf (fs : FileSystem) (path name : Bytes) : Option Dent :=
  (fs.lstat (path ++ 47 :: name)).map fun info =>
    ⟨name, info.mode % 2 ^ 32, info.size % 2 ^ 32, info.mtime % 2 ^ 32⟩

def doList (fs : FileSystem) (path : Bytes) : List Dent :=
  match fs.readdir path with
  | none => []
  | some names => names.filterMap (dentOf fs path)

/-- `do_stat_v2`, as far as the client looks at the answer. -/
def doStatV2 (find : Bytes → Option FileInfo) (path : Bytes) : Except ClientErrno FileInfo :=
  match find path with
  | none => .error .other
  | some info => .ok info

def served (fs : FileSystem) : Device where
  haveStatV2 := true
  list := doList fs
  stat := doStatV2 fs.stat
  lstat := doStatV2 fs.lstat

/-! ## The tree -/

/-- An object that is not a directory: what `lstat` says, and what `stat` says
of a link. -/
structure RemoteObject where
  info : FileInfo
  target : FileInfo
  deriving DecidableEq, Repr

def RemoteObject.isLink (o : RemoteObject) : Bool := sIsLnk o.info.mode

abbrev RemoteForest := Forest Bytes RemoteObject

structure RemoteName (name : Bytes) : Prop extends FileName name where
  nul_not_mem : 0 ∉ name
  length_le : name.length ≤ 255
  not_dot : isDotOrDotDot name = false

section Tree

variable (fs : FileSystem) (rroot : Bytes)

/-- The directory can be requested, and these are the entries of it. -/
def Listed (forest : RemoteForest) (above : List Bytes) : Prop :=
  (directoryPath rroot above).length ≤ maxPathLength ∧
    ∃ names, fs.readdir (directoryPath rroot above) = some names ∧
      names.filter (fun name => !isDotOrDotDot name) = forest.names

/-- What `lstat` and `stat` find in a directory and below it. -/
def Found : RemoteForest → List Bytes → Prop
  | .nil, _ => True
  | .object name o rest, above =>
      fs.lstat (directoryPath rroot above ++ 47 :: name) = some o.info ∧
        sIsDir o.info.mode = false ∧
        (o.isLink = true → (directoryPath rroot above ++ name).length ≤ maxPathLength ∧
          fs.stat (directoryPath rroot above ++ name) = some o.target ∧
          sIsDir o.target.mode = false) ∧
        Found rest above
  | .directory name children rest, above =>
      (∃ info, fs.lstat (directoryPath rroot above ++ 47 :: name) = some info ∧
        sIsDir info.mode = true) ∧
        Listed fs rroot children (above ++ [name]) ∧ Found children (above ++ [name]) ∧
        Found rest above

end Tree

/-- The entry of an item.  The time and the size of a link are not filled in. -/
def entryOf (paths : PathFunctions) (lroot rroot : Bytes) : Item Bytes RemoteObject → CopyInfo
  | .directory names => selfEntry paths.dirname paths.basename (directoryPath rroot names)
      (directoryPath lroot names)
  | .object above name o =>
      { lpath := directoryPath lroot above ++ name
        rpath := directoryPath rroot above ++ name
        time := if o.isLink then 0 else o.info.mtime % 2 ^ 32
        mode := o.info.mode % 2 ^ 32
        size := if o.isLink then 0 else o.info.size % 2 ^ 32
        skip := !o.isLink && !shouldPullFile (o.info.mode % 2 ^ 32) }

/-! ## One listing -/

theorem fileType_mod (mode : Nat) : fileType (mode % 2 ^ 32) = fileType mode := by
  rw [fileType, fileType]
  omega

theorem readDents_of_fit {listing : List Dent}
    (h : ∀ entry ∈ listing, entry.name.length ≤ maxNameLength ∧ 0 ∉ entry.name) :
    readDents listing = some listing := by
  induction listing with
  | nil => rfl
  | cons entry listing ih =>
      obtain ⟨hlen, hnul⟩ := h entry (by simp)
      rw [readDents, if_neg (by omega), cString_of_not_mem hnul,
        ih fun other hother => h other (by simp [hother])]
      rfl

/-- The loop of `sync_ls` makes of the bytes of a listing what `readDents` makes
of its entries. -/
theorem readDents_sent (paths : PathFunctions) (machine : DirectoryPull.Machine)
    {listing : List Dent} (hlisting : ∀ entry ∈ listing, Sendable entry) {fuel : Nat}
    (hfuel : listing.length < fuel) {s : DirectoryPull.Download} {rest : Bytes}
    (hs : s.incoming = listing.flatMap dent ++ (dentDone ++ rest)) :
    ∃ s', execute ((DirectoryPull.pulling paths machine).readDents fuel) s =
      (.ok (readDents listing), s') := by
  induction listing generalizing fuel s with
  | nil =>
      obtain ⟨fuel, rfl⟩ := Nat.exists_eq_add_one_of_ne_zero (by omega : fuel ≠ 0)
      exact ⟨_, execute_readDents_done paths machine fuel hs⟩
  | cons entry listing ih =>
      obtain ⟨fuel, rfl⟩ := Nat.exists_eq_add_one_of_ne_zero (by omega : fuel ≠ 0)
      rw [List.flatMap_cons, List.append_assoc] at hs
      have hentry := hlisting entry (by simp)
      rw [readDents]
      rcases Nat.lt_or_ge maxNameLength entry.name.length with hlong | hfits
      · rw [if_pos hlong]
        exact ⟨_, execute_readDents_long paths machine fuel hentry hlong hs⟩
      · rw [if_neg (Nat.not_lt.mpr hfits), execute_readDents_entry paths machine fuel hentry hfits hs]
        obtain ⟨s', hrest⟩ := ih (fun other hother => hlisting other (by simp [hother]))
          (by simpa using hfuel) (s := { s with
            incoming := listing.flatMap dent ++ (dentDone ++ rest)
            listed := s.listed ++ [cString entry.name] }) rfl
        refine ⟨s', ?_⟩
        rw [execute_bind_of_ok hrest]
        rfl

theorem filter_filterMap_dentOf (fs : FileSystem) (path : Bytes) (names : List Bytes) :
    (names.filterMap (dentOf fs path)).filter (fun entry => !isDotOrDotDot entry.name) =
      (names.filter fun name => !isDotOrDotDot name).filterMap (dentOf fs path) := by
  induction names with
  | nil => rfl
  | cons name names ih =>
      rcases hlstat : fs.lstat (path ++ 47 :: name) with _ | info
      · have hnone : dentOf fs path name = none := by rw [dentOf, hlstat]; rfl
        rw [List.filterMap_cons_none hnone, ih, List.filter_cons]
        split
        · rw [List.filterMap_cons_none hnone]
        · rfl
      · have hsome : dentOf fs path name = some
            ⟨name, info.mode % 2 ^ 32, info.size % 2 ^ 32, info.mtime % 2 ^ 32⟩ := by
          rw [dentOf, hlstat]
          rfl
        rw [List.filterMap_cons_some hsome, List.filter_cons, List.filter_cons, ih]
        split
        · rw [List.filterMap_cons_some hsome]
        · rfl

theorem sIsDir_mod (mode : Nat) : sIsDir (mode % 2 ^ 32) = sIsDir mode := by
  rw [sIsDir, sIsDir, fileType_mod]

theorem sIsLnk_mod (mode : Nat) : sIsLnk (mode % 2 ^ 32) = sIsLnk mode := by
  rw [sIsLnk, sIsLnk, fileType_mod]

theorem not_lnk_of_dir {mode : Nat} (h : sIsDir mode = true) : sIsLnk mode = false := by
  rw [sIsDir, decide_eq_true_eq] at h
  rw [sIsLnk, h]
  rfl

section Listing

variable {fs : FileSystem} {paths : PathFunctions} {lroot rroot : Bytes} {forest : RemoteForest}
  {above : List Bytes}

/-- The entries that the device sends for what is in a directory, as the client
tells them apart. -/
structure Sorted (fs : FileSystem) (paths : PathFunctions) (lroot rroot : Bytes)
    (forest : RemoteForest) (above : List Bytes) (dents : List Dent) : Prop where
  dirs : ((dents.filter fun entry => sIsDir entry.mode).map fun entry =>
      copyInfo (directoryPath lroot above) (directoryPath rroot above) entry.name
        entry.mode).map (fun ci => (ci.rpath, ci.lpath)) =
    forest.subdirectories.map fun d =>
      (directoryPath rroot (above ++ [d.1]), directoryPath lroot (above ++ [d.1]))
  links : ((dents.filter fun entry => sIsLnk entry.mode).map fun entry =>
      copyInfo (directoryPath lroot above) (directoryPath rroot above) entry.name entry.mode) =
    (forest.here.filter fun o => o.2.isLink).map fun o =>
      entryOf paths lroot rroot (.object above o.1 o.2)
  files : (dents.filter fun entry => !sIsDir entry.mode && !sIsLnk entry.mode).map
      (fileEntry (directoryPath rroot above) (directoryPath lroot above)) =
    (forest.here.filter fun o => !o.2.isLink).map fun o =>
      entryOf paths lroot rroot (.object above o.1 o.2)

theorem copyInfo_plain (hl : lroot.getLast? = some 47) (hr : rroot.getLast? = some 47)
    (above : List Bytes) (name : Bytes) {mode : Nat} (h : sIsDir mode = false) :
    copyInfo (directoryPath lroot above) (directoryPath rroot above) name mode =
      ⟨directoryPath lroot above ++ name, directoryPath rroot above ++ name, 0, mode, 0, false⟩ := by
  simp only [copyInfo, withSeparator_of_getLast (getLast_directoryPath hl above),
    withSeparator_of_getLast (getLast_directoryPath hr above), h, Bool.false_eq_true, if_false]

theorem sorted_of_found (hl : lroot.getLast? = some 47) (hr : rroot.getLast? = some 47)
    (hnames : forest.EachName RemoteName) (hfound : Found fs rroot forest above) :
    Sorted fs paths lroot rroot forest above
      (forest.names.filterMap (dentOf fs (directoryPath rroot above))) := by
  induction forest with
  | nil => exact ⟨rfl, rfl, rfl⟩
  | object name o rest ih =>
      obtain ⟨hlstat, hobject, _, hrest⟩ := hfound
      obtain ⟨hdirs, hlinks, hfiles⟩ := ih hnames.2 hrest
      have hdent : dentOf fs (directoryPath rroot above) name = some
          ⟨name, o.info.mode % 2 ^ 32, o.info.size % 2 ^ 32, o.info.mtime % 2 ^ 32⟩ := by
        rw [dentOf, hlstat]
        rfl
      rw [Forest.names, List.filterMap_cons_some hdent]
      have hplain := copyInfo_plain hl hr above name ((sIsDir_mod o.info.mode).trans hobject)
      cases hlink : o.isLink with
      | true =>
          have hlnk : sIsLnk o.info.mode = true := hlink
          refine ⟨?_, ?_, ?_⟩
          · simp only [List.filter_cons, sIsDir_mod, hobject, Bool.false_eq_true, if_false,
              Forest.subdirectories, hdirs]
          · simp only [List.filter_cons, sIsLnk_mod, hlnk, if_true, List.map_cons, Forest.here,
              hlink, hplain, hlinks]
            simp [entryOf, hlink]
          · simp only [List.filter_cons, sIsDir_mod, sIsLnk_mod, hobject, hlnk, hlink,
              Bool.not_true, Bool.and_false, Bool.false_eq_true, if_false, Forest.here, hfiles]
      | false =>
          have hlnk : sIsLnk o.info.mode = false := hlink
          refine ⟨?_, ?_, ?_⟩
          · simp only [List.filter_cons, sIsDir_mod, hobject, Bool.false_eq_true, if_false,
              Forest.subdirectories, hdirs]
          · simp only [List.filter_cons, sIsLnk_mod, hlnk, hlink, Bool.false_eq_true, if_false,
              Forest.here, hlinks]
          · simp only [List.filter_cons, sIsDir_mod, sIsLnk_mod, hobject, hlnk, Bool.not_false,
              Bool.and_self, if_true, List.map_cons, Forest.here, hlink, hfiles, fileEntry, hplain]
            simp [entryOf, hlink]
  | directory name children rest _ ih =>
      obtain ⟨⟨info, hlstat, hdir⟩, _, _, hrest⟩ := hfound
      obtain ⟨hdirs, hlinks, hfiles⟩ := ih hnames.2.2 hrest
      have hdent : dentOf fs (directoryPath rroot above) name = some
          ⟨name, info.mode % 2 ^ 32, info.size % 2 ^ 32, info.mtime % 2 ^ 32⟩ := by
        rw [dentOf, hlstat]
        rfl
      have hlnk := not_lnk_of_dir hdir
      obtain ⟨hlpath, hrpath⟩ := LocalListing.copyInfo_directory hl hr above
        hnames.1.toFileName ((sIsDir_mod info.mode).trans hdir)
      rw [Forest.names, List.filterMap_cons_some hdent]
      refine ⟨?_, ?_, ?_⟩
      · simp only [List.filter_cons, sIsDir_mod, hdir, if_true, List.map_cons, hlpath, hrpath,
          hdirs, Forest.subdirectories]
      · simp only [List.filter_cons, sIsLnk_mod, hlnk, Bool.false_eq_true, if_false, Forest.here,
          hlinks]
      · simp only [List.filter_cons, sIsDir_mod, hdir, Bool.not_true, Bool.false_and,
          Bool.false_eq_true, if_false, Forest.here, hfiles]

theorem nul_not_mem_directoryPath (hroot : 0 ∉ rroot) (habove : ∀ name ∈ above, 0 ∉ name) :
    0 ∉ directoryPath rroot above := by
  rw [directoryPath, List.mem_append, List.mem_flatMap]
  rintro (h | ⟨name, hname, h⟩)
  · exact hroot h
  · rcases List.mem_append.mp h with h | h
    · exact habove name hname h
    · exact absurd h (by decide)

theorem EachName.mem {p : Bytes → Prop} {forest : RemoteForest} (h : forest.EachName p)
    {name : Bytes} (hname : name ∈ forest.names) : p name := by
  induction forest with
  | nil => cases hname
  | object first o rest ih =>
      rcases List.mem_cons.mp hname with rfl | hname
      · exact h.1
      · exact ih h.2 hname
  | directory first children rest _ ih =>
      rcases List.mem_cons.mp hname with rfl | hname
      · exact h.1
      · exact ih h.2.2 hname

theorem fits_of_dot {name : Bytes} (h : isDotOrDotDot name = true) :
    name.length ≤ maxNameLength ∧ 0 ∉ name := by
  rw [isDotOrDotDot, Bool.or_eq_true, decide_eq_true_eq, decide_eq_true_eq] at h
  rcases h with rfl | rfl <;> decide

theorem syncLs_listed (hroot : 0 ∉ rroot) (habove : ∀ name ∈ above, 0 ∉ name)
    (hnames : forest.EachName RemoteName) (hlisted : Listed fs rroot forest above) :
    ∃ dents, syncLs (served fs) (directoryPath rroot above) = some dents ∧
      dents.filter (fun entry => !isDotOrDotDot entry.name) =
        forest.names.filterMap (dentOf fs (directoryPath rroot above)) := by
  obtain ⟨hshort, names, hreaddir, hfilter⟩ := hlisted
  have hpath := cString_of_not_mem (nul_not_mem_directoryPath hroot habove)
  have hlist : doList fs (directoryPath rroot above) =
      names.filterMap (dentOf fs (directoryPath rroot above)) := by
    rw [doList, hreaddir]
  have hfits : ∀ entry ∈ names.filterMap (dentOf fs (directoryPath rroot above)),
      entry.name.length ≤ maxNameLength ∧ 0 ∉ entry.name := by
    intro entry hentry
    obtain ⟨name, hname, hdent⟩ := List.mem_filterMap.mp hentry
    obtain ⟨info, _, rfl⟩ := Option.map_eq_some_iff.mp hdent
    cases hdot : isDotOrDotDot name with
    | true => exact fits_of_dot hdot
    | false =>
        have hmem : name ∈ forest.names := by
          rw [← hfilter, List.mem_filter]
          exact ⟨hname, by rw [hdot]; rfl⟩
        have hvalid := EachName.mem hnames hmem
        exact ⟨Nat.le_trans hvalid.length_le (by decide), hvalid.nul_not_mem⟩
  refine ⟨names.filterMap (dentOf fs (directoryPath rroot above)), ?_, ?_⟩
  · rw [syncLs, tooLong, hpath, if_neg (by rw [decide_eq_true_eq]; omega), served]
    simp only [hlist]
    exact readDents_of_fit hfits
  · rw [filter_filterMap_dentOf, hfilter]

theorem checkLinks_of_files {c : Lister Option} {cis : List CopyInfo}
    (h : ∀ ci ∈ cis, ∃ info, c.syncStatFallback ci.rpath = some (.ok info) ∧
      sIsDir info.mode = false) : checkLinks c cis = some ([], cis) := by
  induction cis with
  | nil => rfl
  | cons ci cis ih =>
      obtain ⟨info, hstat, hdir⟩ := h ci (by simp)
      rw [checkLinks, hstat, ih fun other hother => h other (by simp [hother])]
      simp only [Option.bind_eq_bind, Option.bind_some, hdir, Bool.false_eq_true, if_false]
      rfl

theorem link_found (hnames : forest.EachName RemoteName) (hfound : Found fs rroot forest above)
    {o : Bytes × RemoteObject} (ho : o ∈ forest.here) (hlink : o.2.isLink = true) :
    RemoteName o.1 ∧ (directoryPath rroot above ++ o.1).length ≤ maxPathLength ∧
      fs.stat (directoryPath rroot above ++ o.1) = some o.2.target ∧
      sIsDir o.2.target.mode = false := by
  induction forest with
  | nil => cases ho
  | object name o' rest ih =>
      rcases List.mem_cons.mp ho with rfl | ho
      · exact ⟨hnames.1, hfound.2.2.1 hlink⟩
      · exact ih hnames.2 hfound.2.2.2 ho
  | directory name children rest _ ih => exact ih hnames.2.2 hfound.2.2.2 ho

theorem checkLinks_found (hroot : 0 ∉ rroot) (habove : ∀ name ∈ above, 0 ∉ name)
    (hnames : forest.EachName RemoteName) (hfound : Found fs rroot forest above) :
    checkLinks (lister paths (served fs)) ((forest.here.filter fun o => o.2.isLink).map fun o =>
      entryOf paths lroot rroot (.object above o.1 o.2)) =
    some ([], (forest.here.filter fun o => o.2.isLink).map fun o =>
      entryOf paths lroot rroot (.object above o.1 o.2)) := by
  apply checkLinks_of_files
  intro ci hci
  obtain ⟨o, ho, rfl⟩ := List.mem_map.mp hci
  obtain ⟨hhere, hlink⟩ := List.mem_filter.mp ho
  obtain ⟨hname, hshort, hstat, htarget⟩ := link_found hnames hfound hhere hlink
  refine ⟨o.2.target, ?_, htarget⟩
  have hnul : 0 ∉ directoryPath rroot above ++ o.1 := by
    rw [List.mem_append]
    exact fun h => h.elim (nul_not_mem_directoryPath hroot habove) hname.nul_not_mem
  have hpath := cString_of_not_mem hnul
  have hlong : tooLong (directoryPath rroot above ++ o.1) = false := by
    rw [tooLong, hpath, decide_eq_false_iff_not]
    omega
  have hsync : syncStat (served fs) (directoryPath rroot above ++ o.1) = .ok o.2.target := by
    simp only [syncStat, served, Bool.not_true, Bool.false_eq_true, if_false, hlong, hpath,
      doStatV2, hstat]
  simp only [entryOf, lister, SyncClient.syncStatFallback, hsync, Option.bind_eq_bind,
    Option.bind_some]
  rfl

/-! ## The whole tree -/

theorem Found.of_mem {children : RemoteForest} {name : Bytes}
    (h : Found fs rroot forest above) (hmem : (name, children) ∈ forest.subdirectories) :
    Listed fs rroot children (above ++ [name]) ∧ Found fs rroot children (above ++ [name]) := by
  induction forest with
  | nil => cases hmem
  | object _ _ rest ih => exact ih h.2.2.2 hmem
  | directory name' children' rest _ ih =>
      rcases List.mem_cons.mp hmem with heq | hrest
      · obtain ⟨rfl, rfl⟩ := Prod.mk.inj heq
        exact ⟨h.2.1, h.2.2.1⟩
      · exact ih h.2.2.2 hrest

theorem name_of_mem {children : RemoteForest} {name : Bytes}
    (h : forest.EachName RemoteName) (hmem : (name, children) ∈ forest.subdirectories) :
    RemoteName name := by
  induction forest with
  | nil => cases hmem
  | object _ _ rest ih => exact ih h.2 hmem
  | directory name' children' rest _ ih =>
      rcases List.mem_cons.mp hmem with heq | hrest
      · obtain ⟨rfl, rfl⟩ := Prod.mk.inj heq
        exact h.1
      · exact ih h.2.2 hrest

theorem buildRemoteDirs_walks {build : Bytes → Bytes → Option (Option (List CopyInfo))}
    {subs : List (Bytes × RemoteForest)} {dirs : List CopyInfo}
    (hdirs : dirs.map (fun ci => (ci.rpath, ci.lpath)) = subs.map fun d =>
      (directoryPath rroot (above ++ [d.1]), directoryPath lroot (above ++ [d.1])))
    (hbuild : ∀ d ∈ subs, build (directoryPath rroot (above ++ [d.1]))
      (directoryPath lroot (above ++ [d.1])) =
        some (some ((d.2.walk RemoteObject.isLink (above ++ [d.1])).map
          (entryOf paths lroot rroot)))) :
    buildRemoteDirs build dirs = some (some ((subs.flatMap fun d =>
      d.2.walk RemoteObject.isLink (above ++ [d.1])).map (entryOf paths lroot rroot))) := by
  induction subs generalizing dirs with
  | nil =>
      obtain rfl := List.map_eq_nil_iff.mp hdirs
      rfl
  | cons d subs ih =>
      cases dirs with
      | nil => cases hdirs
      | cons ci dirs =>
          rw [List.map_cons, List.map_cons] at hdirs
          obtain ⟨hci, hdirs⟩ := List.cons.inj hdirs
          obtain ⟨hrpath, hlpath⟩ := Prod.mk.inj hci
          have hfirst := hbuild d (by simp)
          rw [← hrpath, ← hlpath] at hfirst
          have hrest := ih hdirs fun other hother => hbuild other (by simp [hother])
          rw [buildRemoteDirs, hfirst, List.flatMap_cons, List.map_append]
          simp only [Option.bind_eq_bind, Option.bind_some, hrest]
          rfl

theorem remoteBuildList_walks (hl : lroot.getLast? = some 47) (hr : rroot.getLast? = some 47)
    (hroot : 0 ∉ rroot) {fuel : Nat} (hfuel : forest.depth < fuel)
    (habove : ∀ name ∈ above, 0 ∉ name) (hnames : forest.EachName RemoteName)
    (hlisted : Listed fs rroot forest above) (hfound : Found fs rroot forest above) :
    remoteBuildList (lister paths (served fs)) fuel (directoryPath rroot above)
        (directoryPath lroot above) =
      some (some ((forest.walk RemoteObject.isLink above).map (entryOf paths lroot rroot))) := by
  induction fuel generalizing forest above with
  | zero => cases hfuel
  | succ fuel ih =>
      obtain ⟨dents, hls, hdents⟩ := syncLs_listed hroot habove hnames hlisted
      have hsorted : Sorted fs paths lroot rroot forest above
          (dents.filter fun entry => !isDotOrDotDot entry.name) := by
        rw [hdents]
        exact sorted_of_found hl hr hnames hfound
      have hbuild : ∀ d ∈ forest.subdirectories.reverse,
          remoteBuildList (lister paths (served fs)) fuel (directoryPath rroot (above ++ [d.1]))
            (directoryPath lroot (above ++ [d.1])) =
          some (some ((d.2.walk RemoteObject.isLink (above ++ [d.1])).map
            (entryOf paths lroot rroot))) := by
        intro d hd
        have hmem := List.mem_reverse.mp hd
        have hlt := Forest.depth_lt_of_mem hmem
        have hbelow := hfound.of_mem hmem
        refine ih (by omega) ?_ (hnames.of_mem hmem) hbelow.1 hbelow.2
        intro name hname
        rcases List.mem_append.mp hname with hname | hname
        · exact habove name hname
        · rw [List.mem_singleton.mp hname]
          exact (name_of_mem hnames hmem).nul_not_mem
      have hlisting : (lister paths (served fs)).syncLs (directoryPath rroot above) =
          some (some dents) := congrArg some hls
      have hdirs := congrArg List.reverse hsorted.dirs
      rw [← List.map_reverse (f := fun ci : CopyInfo => (ci.rpath, ci.lpath)),
        ← List.map_reverse (f := fun d : Bytes × RemoteForest => (_, _))] at hdirs
      rw [remoteBuildList, hlisting]
      simp only [Option.bind_eq_bind, Option.bind_some, hsorted.links,
        checkLinks_found hroot habove hnames hfound, List.append_nil, hsorted.files,
        buildRemoteDirs_walks hdirs hbuild]
      rw [Forest.walk, Forest.direct, forest.deeper_eq]
      simp only [List.map_cons, List.map_append, List.map_map, List.append_assoc,
        List.cons_append]
      rfl

/-! ## Where the entries lead -/

theorem stepsOf_name {name : Bytes} (h : RemoteName name) : stepsOf name = [.down name] := by
  have hdot := h.not_dot
  rw [isDotOrDotDot, Bool.or_eq_false_iff, decide_eq_false_iff_not, decide_eq_false_iff_not] at hdot
  rw [stepsOf, List.splitOn_eq_singleton h.separator_not_mem, List.map_singleton, stepOf,
    if_neg h.ne_nil, if_neg hdot.1, if_neg hdot.2]

/-- The place below the local root to which names lead. -/
def placeOf (lroot : Bytes) (names : List Bytes) : Place Bytes :=
  { resolve lroot with names := names.reverse ++ (resolve lroot).names }

theorem directoryPath_ne_nil (hl : lroot.getLast? = some 47) (above : List Bytes) :
    directoryPath lroot above ≠ [] := by
  intro hnil
  have hlast := getLast_directoryPath hl above
  rw [hnil] at hlast
  cases hlast

theorem resolve_object (hl : lroot.getLast? = some 47) {name : Bytes} (hname : RemoteName name)
    (hdir : resolve (directoryPath lroot above) = placeOf lroot above) :
    resolve (directoryPath lroot above ++ name) = placeOf lroot (above ++ [name]) := by
  have happend := resolve_withSeparator_append (directoryPath_ne_nil hl above) name
  rw [withSeparator_of_getLast (getLast_directoryPath hl above), stepsOf_name hname, hdir] at happend
  rw [happend, placeOf, placeOf, List.reverse_append]
  rfl

theorem resolve_directoryPath (hl : lroot.getLast? = some 47)
    (hnames : ∀ name ∈ above, RemoteName name) :
    resolve (directoryPath lroot above) = placeOf lroot above := by
  induction above using List.reverseRecOn with
  | nil =>
      rw [directoryPath_nil]
      rfl
  | append_singleton above name ih =>
      have hdir := ih fun other hother => hnames other (by simp [hother])
      have hobject := resolve_object hl (hnames name (by simp)) hdir
      rw [directoryPath_concat, ← List.append_assoc, resolve_append_separator, hobject]
      simp [directoryPath_ne_nil hl above]

theorem resolve_entryOf (hl : lroot.getLast? = some 47) {item : Item Bytes RemoteObject}
    (hnames : ∀ name ∈ item.path, RemoteName name) :
    resolve (entryOf paths lroot rroot item).lpath = placeOf lroot item.path := by
  cases item with
  | directory names =>
      rw [entryOf, resolve_selfEntry]
      exact resolve_directoryPath hl hnames
  | object above name o =>
      rw [entryOf]
      refine resolve_object hl (hnames name (by simp [Item.path])) (resolve_directoryPath hl ?_)
      exact fun other hother => hnames other (by simp [Item.path, hother])

theorem placeOf_injective {names names' : List Bytes}
    (h : placeOf lroot names = placeOf lroot names') : names = names' := by
  have hplace := congrArg Place.names h
  exact List.reverse_injective (List.append_cancel_right hplace)

end Listing

/-- For every tree that the device serves without errors, `remote_build_list`
returns with one entry for the directory itself and for everything below it,
each with the paths that its names make from the two roots; no two entries lead
to one place, and every entry comes after that of its directory, for which
`copy_remote_dir_local` calls `mkdirs`. -/
theorem remote_build_list_complete (paths : PathFunctions) (fs : FileSystem)
    (rroot lroot : Bytes) (hr : rroot.getLast? = some 47) (hl : lroot.getLast? = some 47)
    (hroot : 0 ∉ rroot) (forest : RemoteForest) (hnames : forest.EachName RemoteName)
    (hdistinct : forest.Distinct) (hlisted : Listed fs rroot forest [])
    (hfound : Found fs rroot forest []) :
    ∃ fuel items,
      remoteBuildList (lister paths (served fs)) fuel rroot lroot =
        some (some (items.map (entryOf paths lroot rroot))) ∧
      items.Perm (.directory [] :: forest.positions []) ∧
      (∀ item ∈ items, resolve (entryOf paths lroot rroot item).lpath =
        placeOf lroot item.path) ∧
      (items.map fun item => resolve (entryOf paths lroot rroot item).lpath).Nodup ∧
      (∀ first item rest, items = first ++ item :: rest → item ≠ .directory [] →
        item.container ∈ first) ∧
      ∀ names, sIsDir (entryOf paths lroot rroot (.directory names)).mode = true ∧
        (entryOf paths lroot rroot (.directory names)).skip = false := by
  have hperm := forest.perm_walk RemoteObject.isLink []
  have hplaces : ∀ item ∈ forest.walk RemoteObject.isLink [],
      resolve (entryOf paths lroot rroot item).lpath = placeOf lroot item.path := by
    intro item hitem
    apply resolve_entryOf hl
    rcases List.mem_cons.mp (hperm.mem_iff.mp hitem) with rfl | hitem
    · exact nofun
    · exact hnames.of_path hitem nofun
  refine ⟨forest.depth + 1, forest.walk RemoteObject.isLink [], ?_, hperm, hplaces, ?_, ?_,
    fun names => (selfEntry_made paths.dirname paths.basename _ _).symm⟩
  · have hwalk : remoteBuildList (lister paths (served fs)) (forest.depth + 1)
        (directoryPath rroot []) (directoryPath lroot []) = _ :=
      remoteBuildList_walks hl hr hroot (Nat.lt_succ_self _) nofun hnames hlisted hfound
    rw [directoryPath_nil, directoryPath_nil] at hwalk
    exact hwalk
  · rw [List.map_congr_left hplaces]
    have hinjective : Function.Injective (placeOf lroot) := fun _ _ h => placeOf_injective h
    have hnodup := List.Nodup.map hinjective
      (Forest.nodup_walk RemoteObject.isLink hdistinct [])
    rw [List.map_map] at hnodup
    exact hnodup
  · intro first item rest hsplit hother
    cases first with
    | nil =>
        rw [Forest.walk] at hsplit
        exact absurd (List.cons.inj hsplit).1.symm hother
    | cons head first =>
        rw [Forest.walk] at hsplit
        obtain ⟨rfl, htail⟩ := List.cons.inj hsplit
        exact (forest.contained_walk RemoteObject.isLink []).of_split htail

/-- A file, a directory with a socket in it, an empty directory, and a link to a
file. -/
def sampleRemote : RemoteForest :=
  .object (ascii "a") ⟨⟨0o100644, 3, 7⟩, ⟨0, 0, 0⟩⟩ <|
  .directory (ascii "d") (.object (ascii "s") ⟨⟨0o140755, 0, 8⟩, ⟨0, 0, 0⟩⟩ .nil) <|
  .directory (ascii "e") .nil <|
  .object (ascii "l") ⟨⟨0o120777, 1, 9⟩, ⟨0o100644, 3, 7⟩⟩ .nil

/-- The device on which the sample is in `/x`. -/
def sampleFiles : FileSystem where
  readdir path :=
    if path = ascii "/x/" then
      some [ascii ".", ascii "..", ascii "a", ascii "d", ascii "e", ascii "l"]
    else if path = ascii "/x/d/" then some [ascii ".", ascii "s", ascii ".."]
    else if path = ascii "/x/e/" then some [ascii ".", ascii ".."]
    else none
  lstat path :=
    if path = ascii "/x//a" then some ⟨0o100644, 3, 7⟩
    else if path = ascii "/x//l" then some ⟨0o120777, 1, 9⟩
    else if path = ascii "/x/d//s" then some ⟨0o140755, 0, 8⟩
    else some ⟨0o040755, 4096, 1⟩
  stat path := if path = ascii "/x/l" then some ⟨0o100644, 3, 7⟩ else none

theorem remote_build_list_complete_sample :
    ∃ fuel items,
      remoteBuildList (lister posixPaths (served sampleFiles)) fuel (ascii "/x/") (ascii "out/") =
        some (some (items.map (entryOf posixPaths (ascii "out/") (ascii "/x/")))) ∧
      items.Perm (.directory [] :: sampleRemote.positions []) ∧
      (∀ item ∈ items,
        resolve (entryOf posixPaths (ascii "out/") (ascii "/x/") item).lpath =
          placeOf (ascii "out/") item.path) ∧
      (items.map fun item =>
        resolve (entryOf posixPaths (ascii "out/") (ascii "/x/") item).lpath).Nodup ∧
      (∀ first item rest, items = first ++ item :: rest → item ≠ .directory [] →
        item.container ∈ first) ∧
      ∀ names, sIsDir (entryOf posixPaths (ascii "out/") (ascii "/x/")
          (.directory names)).mode = true ∧
        (entryOf posixPaths (ascii "out/") (ascii "/x/") (.directory names)).skip = false := by
  refine remote_build_list_complete posixPaths sampleFiles (ascii "/x/") (ascii "out/") rfl rfl
    (by decide) sampleRemote ?_ ?_ ?_ ?_
  · have hname : ∀ b : UInt8, b ≠ 47 → b ≠ 0 → b ≠ 46 → RemoteName [b] := by
      intro b hslash hnul hdot
      exact ⟨⟨by simp, by simpa using hslash.symm⟩, by simpa using hnul.symm, by simp,
        by simp [isDotOrDotDot, ascii, hdot]⟩
    exact ⟨hname 97 (by decide) (by decide) (by decide),
      hname 100 (by decide) (by decide) (by decide),
      ⟨hname 115 (by decide) (by decide) (by decide), trivial⟩,
      hname 101 (by decide) (by decide) (by decide), trivial,
      hname 108 (by decide) (by decide) (by decide), trivial⟩
  · exact ⟨by decide, by decide, ⟨by decide, trivial⟩, by decide, trivial, by decide, trivial⟩
  · exact ⟨by decide, _, rfl, by decide⟩
  · exact ⟨rfl, by decide, by decide, ⟨_, rfl, by decide⟩, ⟨by decide, _, rfl, by decide⟩,
      ⟨rfl, by decide, by decide, trivial⟩, ⟨_, rfl, by decide⟩, ⟨by decide, _, rfl, by decide⟩,
      trivial, rfl, by decide, by decide, trivial⟩

end Adb.PullListing
