import Adb.HostPaths
import Adb.ProtocolStrings
import Adb.SyncTransfers

/-!
`remote_build_list` of file_sync_client.cpp against a device that answers every
request by the path in it.  Nothing bounds the recursion but the length of a
path in a request, which an entry without a name does not add to.
-/

namespace Adb.RemoteListing

open Adb.DescriptorIo
open Adb.HostPaths
open Adb.ProtocolStrings
open Adb.SyncClient (ClientErrno FileInfo)
open Adb.SyncMessages
open Adb.SyncService (Dent)
open Adb.SyncTransfers
open Adb.WirePackets

/-- What a device answers: to `LIST`, to `STAT_V2` and to `LSTAT`. -/
structure Device where
  haveStatV2 : Bool
  list : Bytes → List Dent
  stat : Bytes → Except ClientErrno FileInfo
  lstat : Bytes → Except ClientErrno FileInfo

/-- The loop of `sync_ls`: a name that does not fit the buffer ends it, and the
callback gets the others as strings of C. -/
def readDents : List Dent → Option (List Dent)
  | [] => some []
  | entry :: entries =>
      if entry.name.length > maxNameLength then none
      else (readDents entries).map ({ entry with name := cString entry.name } :: ·)

section Requests

variable (paths : PathFunctions) (device : Device)

def tooLong (path : Bytes) : Bool := (cString path).length > maxPathLength

def syncLs (path : Bytes) : Option (List Dent) :=
  if tooLong path then none else readDents (device.list (cString path))

def syncLstat (path : Bytes) : Except ClientErrno FileInfo :=
  if tooLong path then .error .other else device.lstat (cString path)

def syncStat (path : Bytes) : Except ClientErrno FileInfo :=
  if !device.haveStatV2 then .error .enotsup
  else if tooLong path then .error .other
  else device.stat (cString path)

/-- The connection to the device; a call of `remote_build_list` that has not
returned is none. -/
def lister : Lister Option where
  dirname := paths.dirname
  basename := paths.basename
  syncLs path := some (syncLs device path)
  syncStatFallback := SyncClient.syncStatFallback (fun path => some (syncStat device path))
    fun path => some (syncLstat device path)
  outOfRounds := none

/-- The call returns, with whatever result. -/
def Returns (rpath lpath : Bytes) : Prop :=
  ∃ fuel result, remoteBuildList (lister paths device) fuel rpath lpath = some result

end Requests

/-! ## The paths of a walk -/

section Paths

variable {device : Device} {entries : List Dent}

theorem mem_readDents {listing : List Dent} (h : readDents listing = some entries)
    {entry : Dent} (hentry : entry ∈ entries) :
    ∃ sent ∈ listing, sent.name.length ≤ maxNameLength ∧ entry.name = cString sent.name := by
  induction listing generalizing entries with
  | nil =>
      obtain rfl := Option.some.inj h
      cases hentry
  | cons first listing ih =>
      rw [readDents] at h
      split at h
      · cases h
      · rename_i hfits
        obtain ⟨rest, hrest, rfl⟩ := Option.map_eq_some_iff.mp h
        rcases List.mem_cons.mp hentry with rfl | hentry
        · exact ⟨first, by simp, by omega, rfl⟩
        · obtain ⟨sent, hsent, hlen, hname⟩ := ih hrest hentry
          exact ⟨sent, by simp [hsent], hlen, hname⟩

theorem syncLs_eq_some {path : Bytes} (h : syncLs device path = some entries) :
    ¬ tooLong path = true ∧ readDents (device.list (cString path)) = some entries := by
  rw [syncLs] at h
  split at h
  · cases h
  · next hshort => exact ⟨hshort, h⟩

theorem syncStatFallback_returns (paths : PathFunctions) (device : Device) (path : Bytes) :
    ∃ st, (lister paths device).syncStatFallback path = some st := by
  simp only [lister, SyncClient.syncStatFallback, Option.bind_eq_bind, Option.bind_some]
  split
  · exact ⟨_, rfl⟩
  · split
    · exact ⟨_, rfl⟩
    · split
      · split
        · exact ⟨_, rfl⟩
        · exact ⟨_, rfl⟩
      · exact ⟨_, rfl⟩
  · exact ⟨_, rfl⟩

theorem checkLinks_returns (paths : PathFunctions) (device : Device) (cis : List CopyInfo) :
    ∃ checked, checkLinks (lister paths device) cis = some checked ∧ checked.1 ⊆ cis := by
  induction cis with
  | nil => exact ⟨([], []), rfl, List.Subset.refl _⟩
  | cons ci cis ih =>
      obtain ⟨st, hst⟩ := syncStatFallback_returns paths device ci.rpath
      obtain ⟨rest, hrest, hsubset⟩ := ih
      rw [checkLinks, hst, hrest]
      cases st with
      | error => exact ⟨rest, rfl, List.Subset.trans hsubset (List.subset_cons_self ci cis)⟩
      | ok info =>
          simp only [Option.bind_eq_bind, Option.bind_some]
          split
          · exact ⟨_, rfl, List.cons_subset_cons ci hsubset⟩
          · exact ⟨_, rfl, List.Subset.trans hsubset (List.subset_cons_self ci cis)⟩

theorem length_le_withSeparator (path : Bytes) : path.length ≤ (withSeparator path).length := by
  rw [withSeparator]
  split
  · exact Nat.le_refl _
  · simp

theorem mem_withSeparator {b : UInt8} {path : Bytes} (h : b ∈ withSeparator path) :
    b ∈ path ∨ b = 47 := by
  rw [withSeparator] at h
  split at h
  · exact .inl h
  · simpa using h

theorem length_rpath_copyInfo (lpath rpath name : Bytes) (mode : Nat) :
    rpath.length + name.length ≤ (copyInfo lpath rpath name mode).rpath.length := by
  have hdir := length_le_withSeparator rpath
  have hentry := length_le_withSeparator (withSeparator rpath ++ name)
  rw [List.length_append] at hentry
  rw [copyInfo]
  split
  · simp only
    omega
  · simp only [List.length_append]
    omega

theorem nul_not_mem_rpath_copyInfo {lpath rpath name : Bytes} {mode : Nat} (hr : 0 ∉ rpath)
    (hname : 0 ∉ name) : 0 ∉ (copyInfo lpath rpath name mode).rpath := by
  have hdir : 0 ∉ withSeparator rpath ++ name := by
    rw [List.mem_append]
    rintro (h | h)
    · exact (mem_withSeparator h).elim hr (by decide)
    · exact hname h
  rw [copyInfo]
  split
  · exact fun h => (mem_withSeparator h).elim hdir (by decide)
  · exact hdir

end Paths

/-! ## When the recursion ends -/

section Termination

variable {paths : PathFunctions} {device : Device}

theorem buildRemoteDirs_returns
    {build : Bytes → Bytes → Option (Option (List CopyInfo))} {dirs : List CopyInfo}
    (h : ∀ ci ∈ dirs, build ci.rpath ci.lpath ≠ none) :
    ∃ found, buildRemoteDirs build dirs = some found := by
  induction dirs with
  | nil => exact ⟨_, rfl⟩
  | cons ci dirs ih =>
      obtain ⟨first, hfirst⟩ := Option.ne_none_iff_exists'.mp (h ci (by simp))
      obtain ⟨rest, hrest⟩ := ih fun other hother => h other (by simp [hother])
      rw [buildRemoteDirs, hfirst]
      cases first with
      | none => exact ⟨none, rfl⟩
      | some found =>
          simp only [Option.bind_eq_bind, Option.bind_some, hrest]
          exact ⟨_, rfl⟩

theorem length_lt_of_dirs {rpath lpath : Bytes} {entries : List Dent}
    (hentries : ∀ entry ∈ entries, entry.name ≠ [] ∧ 0 ∉ entry.name) (hr : 0 ∉ rpath)
    {links : List CopyInfo}
    (hlinks : links ⊆ (entries.filter fun entry => sIsLnk entry.mode).map
      fun entry => copyInfo lpath rpath entry.name entry.mode)
    {ci : CopyInfo}
    (hci : ci ∈ (entries.filter fun entry => sIsDir entry.mode).map
      (fun entry => copyInfo lpath rpath entry.name entry.mode) ++ links) :
    rpath.length < ci.rpath.length ∧ 0 ∉ ci.rpath := by
  have hfrom : ∃ entry ∈ entries, copyInfo lpath rpath entry.name entry.mode = ci := by
    rcases List.mem_append.mp hci with hci | hci
    · obtain ⟨entry, hentry, heq⟩ := List.mem_map.mp hci
      exact ⟨entry, (List.mem_filter.mp hentry).1, heq⟩
    · obtain ⟨entry, hentry, heq⟩ := List.mem_map.mp (hlinks hci)
      exact ⟨entry, (List.mem_filter.mp hentry).1, heq⟩
  obtain ⟨entry, hentry, rfl⟩ := hfrom
  obtain ⟨hname, hnul⟩ := hentries entry hentry
  refine ⟨?_, nul_not_mem_rpath_copyInfo hr hnul⟩
  have hlen := length_rpath_copyInfo lpath rpath entry.name entry.mode
  have hpos := List.length_pos_iff.mpr hname
  omega

/-- Every call adds to the path, so the calls are at most as deep as a path that
can be requested is long. -/
theorem remoteBuildList_returns
    (hnames : ∀ path, ∀ entry ∈ device.list path, entry.name.length ≤ maxNameLength →
      cString entry.name ≠ [])
    {fuel : Nat} {rpath : Bytes} (hr : 0 ∉ rpath) (hfuel : maxPathLength + 1 < fuel + rpath.length)
    (hpos : fuel ≠ 0) (lpath : Bytes) :
    remoteBuildList (lister paths device) fuel rpath lpath ≠ none := by
  induction fuel generalizing rpath lpath with
  | zero => exact absurd rfl hpos
  | succ fuel ih =>
      rw [remoteBuildList]
      cases hls : syncLs device rpath with
      | none =>
          simp only [lister, hls, Option.bind_eq_bind, Option.bind_some]
          exact Option.some_ne_none _
      | some entries =>
          obtain ⟨hshort, hlist⟩ := syncLs_eq_some hls
          rw [tooLong, cString_of_not_mem hr, decide_eq_true_eq] at hshort
          have hentries : ∀ entry ∈ entries.filter (fun entry => !isDotOrDotDot entry.name),
              entry.name ≠ [] ∧ 0 ∉ entry.name := by
            intro entry hentry
            obtain ⟨sent, hsent, hlen, hname⟩ :=
              mem_readDents hlist (List.mem_filter.mp hentry).1
            rw [hname]
            exact ⟨hnames _ sent hsent hlen, nul_not_mem_cString _⟩
          obtain ⟨checked, hchecked, hsubset⟩ := checkLinks_returns paths device
            (((entries.filter fun entry => !isDotOrDotDot entry.name).filter fun entry =>
              sIsLnk entry.mode).map fun entry => copyInfo lpath rpath entry.name entry.mode)
          have hdirs : ∀ ci ∈ (((entries.filter fun entry => !isDotOrDotDot entry.name).filter
              fun entry => sIsDir entry.mode).map (fun entry =>
                copyInfo lpath rpath entry.name entry.mode) ++ checked.1).reverse,
              remoteBuildList (lister paths device) fuel ci.rpath ci.lpath ≠ none := by
            intro ci hci
            have hlonger := length_lt_of_dirs hentries hr hsubset (List.mem_reverse.mp hci)
            exact ih hlonger.2 (by omega) (by omega) ci.lpath
          obtain ⟨found, hfound⟩ := buildRemoteDirs_returns hdirs
          have hentered : (lister paths device).syncLs rpath = some (some entries) :=
            congrArg some hls
          rw [hentered]
          simp only [Option.bind_eq_bind, Option.bind_some, hchecked, hfound]
          exact Option.some_ne_none _

/-- A device on which every directory holds one entry with this name, which is
a directory. -/
def repeating (name : Bytes) : Device where
  haveStatV2 := true
  list _ := [⟨name, directoryMode, 0, 0⟩]
  stat _ := .error .enoent
  lstat _ := .error .enoent

/-- An entry without a name leads to the directory that it is in. -/
theorem remoteBuildList_repeating {name : Bytes} (hlen : name.length ≤ maxNameLength)
    (hname : cString name = []) (fuel : Nat) :
    remoteBuildList (lister paths (repeating name)) fuel (ascii "/") (ascii "/") = none := by
  induction fuel with
  | zero => rfl
  | succ fuel ih =>
      have hls : (lister paths (repeating name)).syncLs (ascii "/") =
          some (some [⟨[], directoryMode, 0, 0⟩]) := by
        have hfits : ¬ name.length > maxNameLength := by omega
        simp only [lister, syncLs]
        rw [if_neg (by decide), repeating, readDents, if_neg hfits, hname]
        rfl
      have hpath : ((copyInfo (ascii "/") (ascii "/") [] directoryMode).rpath,
          (copyInfo (ascii "/") (ascii "/") [] directoryMode).lpath) = (ascii "/", ascii "/") := by
        decide
      obtain ⟨hrpath, hlpath⟩ := Prod.mk.inj hpath
      rw [remoteBuildList, hls]
      have hdirs : buildRemoteDirs (remoteBuildList (lister paths (repeating name)) fuel)
          [copyInfo (ascii "/") (ascii "/") [] directoryMode] = none := by
        rw [buildRemoteDirs, hrpath, hlpath, ih]
        rfl
      exact congrArg (Option.bind · _) hdirs

end Termination

/-- `remote_build_list` returns for every device that lists names of a set
only, if and only if every name in the set that is not too long is a name. -/
theorem remote_build_list_returns_iff (paths : PathFunctions) (names : Set Bytes) :
    (∀ device : Device, (∀ path, ∀ entry ∈ device.list path, entry.name ∈ names) →
      ∀ rpath lpath : Bytes, 0 ∉ rpath → Returns paths device rpath lpath) ↔
    ∀ name ∈ names, name.length ≤ maxNameLength → cString name ≠ [] := by
  constructor
  · intro hreturns name hname hlen hempty
    obtain ⟨fuel, result, hresult⟩ := hreturns (repeating name)
      (fun _ entry hentry => by rw [List.mem_singleton.mp hentry]; exact hname)
      (ascii "/") (ascii "/") (by decide)
    rw [remoteBuildList_repeating hlen hempty] at hresult
    cases hresult
  · intro hnames device hdevice rpath lpath hr
    refine ⟨maxPathLength + 2, Option.ne_none_iff_exists'.mp ?_⟩
    refine remoteBuildList_returns (fun path entry hentry hlen => ?_) hr (by omega) (by omega) lpath
    exact hnames _ (hdevice path entry hentry) hlen

/-- A device whose directories hold a directory without a name. -/
theorem remote_build_list_does_not_return :
    (∀ path, ∀ entry ∈ (repeating []).list path, entry.name.length ≤ 256) ∧
      ¬ Returns posixPaths (repeating []) (ascii "/") (ascii "/") := by
  refine ⟨fun _ entry hentry => by rw [List.mem_singleton.mp hentry]; decide, ?_⟩
  rintro ⟨fuel, result, hresult⟩
  rw [remoteBuildList_repeating (by decide) rfl] at hresult
  cases hresult


end Adb.RemoteListing
