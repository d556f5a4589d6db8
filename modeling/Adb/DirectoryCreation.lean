import Adb.FileSystems
import Adb.HostPaths
import Mathlib.Logic.Function.Iterate

/-!
The creation of directories on the host: what `mkdirs` leaves of any file system, and
what it means when it returns true.
-/

namespace Adb.DirectoryCreation

open Adb.DescriptorIo
open Adb.FileSystems
open Adb.HostPaths
open Adb.PathResolution
open Adb.WirePackets

inductive Errno where
  | enoent
  | eexist
  | enotdir
  | eloop
  | other (code : Nat)
  deriving DecidableEq, Repr

/-- What the operating system adds to the meaning of paths: how many symbolic links it
follows, and which of the calls that `mkdirs` makes for a path fail for reasons of their own.
The second call of `stat` is the one of `directory_exists`. -/
structure System where
  maxLinks : Nat
  statFails : Bytes → Option Errno
  mkdirFails : Bytes → Option Errno
  statAgainFails : Bytes → Option Errno

section

variable {τ : Type} (os : System) (fs : FileSystem Bytes τ) (path : Bytes)

/-- The components of a path, of which the empty ones say nothing. -/
def componentsOf : List (Step Bytes) := ((path.splitOn 47).filter (· ≠ [])).map stepOf

def endsInSeparator : Bool := path.getLast? = some 47

/-- Path resolution: the last component is followed on demand. -/
def locate (follow : Bool) : Outcome Bytes :=
  if path = [] then .notFound
  else
    fs.walk follow os.maxLinks (if path.head? = some 47 then fs.root else fs.cwd)
      (componentsOf path)

def isDirectory (i : Nat) : Bool :=
  match fs.nodes[i]? with
  | some (.directory _) => true
  | _ => false

/-- The number of the node that `stat` describes.  The call may be one that fails. -/
def stat (fails : Option Errno) : Except Errno Nat :=
  match fails with
  | some e => .error e
  | none =>
      match locate os fs path true with
      | .found i =>
          if endsInSeparator path && !isDirectory fs i then .error .enotdir else .ok i
      | .missing _ _ => .error .enoent
      | .notFound => .error .enoent
      | .notDirectory => .error .enotdir
      | .tooManyLinks => .error .eloop

/-- `mkdir` does not follow a symbolic link at the end of a path, unless a separator is
behind it. -/
def mkdir (mode : Nat) (fails : Option Errno) : Except Errno (FileSystem Bytes τ) :=
  match fails with
  | some e => .error e
  | none =>
      match locate os fs path (endsInSeparator path) with
      | .found _ => .error .eexist
      | .missing dir name =>
          match hdir : fs.nodes[dir]? with
          | some (.directory d) =>
              .ok (fs.addDirectory dir d hdir name (mode - (mode &&& fs.umask)))
          | _ => .error .enotdir
      | .notFound => .error .enoent
      | .notDirectory => .error .enotdir
      | .tooManyLinks => .error .eloop

def adbMkdir (mode : Nat) : Except Errno (FileSystem Bytes τ) :=
  mkdir os fs (cString path) mode (os.mkdirFails path)

/-- `stat(path.c_str(), &sb) != -1 && S_ISDIR(sb.st_mode)` -/
def statIsDirectory (fails : Option Errno) : Bool :=
  match stat os fs (cString path) fails with
  | .ok i => isDirectory fs i
  | .error _ => false

def directoryExists : Bool := statIsDirectory os fs path (os.statAgainFails path)

end

/-- `android::base::Dirname` hands its copy of the path to `dirname`. -/
def dirname (path : Bytes) : Bytes := posixDirname (cString path)

/-- The creation of `path` itself: if someone else created it, that is fine.  An error is the
return of false with that `errno`. -/
def mkdirLast {τ : Type} (os : System) (path : Bytes) (fs : FileSystem Bytes τ) :
    Except Errno Unit × FileSystem Bytes τ :=
  match adbMkdir os fs path 0o775 with
  | .ok fs => (.ok (), fs)
  | .error savedErrno =>
      if directoryExists os fs path then (.ok (), fs) else (.error savedErrno, fs)

def mkdirs {τ : Type} (os : System) :
    Nat → Bytes → FileSystem Bytes τ → Option (Except Errno Unit × FileSystem Bytes τ)
  | 0, _, _ => none
  | fuel + 1, path, fs =>
      if statIsDirectory os fs path (os.statFails path) then some (.ok (), fs)
      else
        let parent := dirname path
        if parent = path then some (.error .enoent, fs)
        else
          match mkdirs os fuel parent fs with
          | none => none
          | some (.error e, fs) => some (.error e, fs)
          | some (.ok _, fs) => some (mkdirLast os path fs)

def Names {τ : Type} (os : System) (fs : FileSystem Bytes τ) (path : Bytes) (i : Nat) : Prop :=
  locate os fs (cString path) true = .found i

/-- Where the recursion stands: at a path that is its own `dirname`, or above it. -/
def rank (path : Bytes) : Nat :=
  if path = ascii "." ∨ path = ascii "/" then 0 else path.length + 1

section

variable {τ : Type} {os : System} {fs fs' : FileSystem Bytes τ} {path : Bytes} {i : Nat}

theorem length_stripped_le (path : Bytes) : (stripped path).length ≤ path.length :=
  (List.rdropWhile_prefix _ _).length_le

theorem posixDirname_cases (path : Bytes) :
    posixDirname path = ascii "." ∨ posixDirname path = ascii "/" ∨
      (posixDirname path).length < path.length := by
  rw [posixDirname]
  split
  · exact .inl rfl
  split
  · exact .inr (.inl rfl)
  split
  · exact .inl rfl
  split
  · exact .inr (.inl rfl)
  · next hfront _ =>
      obtain ⟨front, hsplit⟩ := (rdropWhile_eq_nil_or (stripped path)).resolve_left hfront
      have hstripped : stripped (front ++ [47]) = stripped front :=
        List.rdropWhile_concat_pos _ _ _ (by simp)
      have hlength := (List.rdropWhile_prefix (· ≠ 47) (stripped path)).length_le
      rw [hsplit, List.length_append, List.length_singleton] at hlength
      have hpath := length_stripped_le path
      have hle := length_stripped_le front
      rw [hsplit, hstripped]
      exact .inr (.inr (by omega))

theorem rank_le (path : Bytes) : rank path ≤ path.length + 1 := by
  rw [rank]
  split
  · exact Nat.zero_le _
  · exact Nat.le_refl _

theorem rank_dirname (h : dirname path ≠ path) : rank (dirname path) < rank path := by
  have hpath : rank path = path.length + 1 := by
    apply if_neg
    rintro (rfl | rfl)
    · exact h rfl
    · exact h rfl
  have hcString : (cString path).length ≤ path.length := (List.takeWhile_prefix _).length_le
  rw [hpath]
  rcases posixDirname_cases (cString path) with heq | heq | hlt
  · rw [dirname, heq]
    exact Nat.succ_pos _
  · rw [dirname, heq]
    exact Nat.succ_pos _
  · exact Nat.lt_of_le_of_lt (rank_le _) (Nat.succ_lt_succ (Nat.lt_of_lt_of_le hlt hcString))

theorem isDirectory_iff : isDirectory fs i = true ↔ IsDirectory fs.nodes i := by
  rw [isDirectory]
  split
  · next d hd => exact iff_of_true rfl ⟨d, hd⟩
  · next hother => exact iff_of_false Bool.false_ne_true fun ⟨d, hd⟩ => hother d hd

theorem stat_eq_ok {fails : Option Errno} (h : stat os fs path fails = .ok i) :
    locate os fs path true = .found i := by
  unfold stat at h
  split at h
  · cases h
  split at h
  · next j hlocate =>
      split at h
      · cases h
      · cases h
        exact hlocate
  · cases h
  · cases h
  · cases h
  · cases h

theorem names_of_statIsDirectory {fails : Option Errno}
    (h : statIsDirectory os fs path fails = true) :
    ∃ i, Names os fs path i ∧ IsDirectory fs.nodes i := by
  rw [statIsDirectory] at h
  split at h
  · next i hi => exact ⟨i, stat_eq_ok hi, isDirectory_iff.mp h⟩
  · cases h

theorem Names.mono {kind : Nat → Prop} (h : Names os fs path i) (hadds : fs.AddsOnly fs' kind) :
    Names os fs' path i := by
  rw [Names, locate] at h ⊢
  rw [hadds.root, hadds.cwd]
  split at h
  · cases h
  · next hne =>
      rw [if_neg hne]
      exact hadds.walk_found h

theorem mkdir_eq_ok {mode : Nat} {fails : Option Errno}
    (h : mkdir os fs path mode fails = .ok fs') :
    ∃ i, fs.AddsOnly fs' (· = i) ∧ locate os fs' path true = .found i ∧
      IsDirectory fs'.nodes i := by
  unfold mkdir at h
  split at h
  · cases h
  split at h
  · cases h
  · next dir name hlocate =>
      split at h
      · next d hdir =>
          cases h
          rw [locate] at hlocate ⊢
          split at hlocate
          · cases hlocate
          · next hne =>
              have hleads := leads_of_walk_eq hlocate (.inr ⟨dir, name, rfl⟩)
              obtain ⟨d', hdir', hname⟩ := missing_of_leads hleads
              rw [hdir] at hdir'
              cases hdir'
              refine ⟨fs.nodes.length, addDirectory_addsOnly hname, ?_, isDirectory_addDirectory⟩
              rw [if_neg hne]
              exact walk_addDirectory hname hlocate
      · cases h
  · cases h
  · cases h
  · cases h

end

/-- What `mkdirs` promises of the file systems before and after a call. -/
structure Sound {τ : Type} (os : System) (path : Bytes) (fs : FileSystem Bytes τ)
    (result : Except Errno Unit) (fs' : FileSystem Bytes τ) : Prop where
  directory : result = .ok () → ∃ i, Names os fs' path i ∧ IsDirectory fs'.nodes i
  addsOnly : fs.AddsOnly fs' fun i => ∃ k, Names os fs' (dirname^[k] path) i

section

variable {τ : Type} {os : System} {fs fs' fs'' : FileSystem Bytes τ} {path : Bytes}

theorem sound_of_unchanged {result : Except Errno Unit}
    (h : result = .ok () → ∃ i, Names os fs path i ∧ IsDirectory fs.nodes i) :
    Sound os path fs result fs := ⟨h, .refl fs _⟩

theorem Sound.of_dirname {result result' : Except Errno Unit}
    (h : Sound os (dirname path) fs result fs')
    (hdirectory : result' = .ok () → ∃ i, Names os fs' path i ∧ IsDirectory fs'.nodes i) :
    Sound os path fs result' fs' := by
  refine ⟨hdirectory, h.addsOnly.imp ?_⟩
  rintro i ⟨k, hk⟩
  exact ⟨k + 1, hk⟩

theorem Sound.mkdirLast {result : Except Errno Unit}
    (h : Sound os (dirname path) fs result fs') :
    Sound os path fs (mkdirLast os path fs').1 (mkdirLast os path fs').2 := by
  rw [DirectoryCreation.mkdirLast]
  split
  · next fs'' hmkdir =>
      obtain ⟨i, hadds, hnames, hdirectory⟩ := mkdir_eq_ok hmkdir
      refine ⟨fun _ => ⟨i, hnames, hdirectory⟩, (h.addsOnly.trans hadds).imp ?_⟩
      rintro j (⟨k, hk⟩ | rfl)
      · exact ⟨k + 1, hk.mono hadds⟩
      · exact ⟨0, hnames⟩
  · split
    · next hexists => exact h.of_dirname fun _ => names_of_statIsDirectory hexists
    · exact h.of_dirname fun herror => by cases herror

theorem mkdirs_of_rank (os : System) (fs : FileSystem Bytes τ) (path : Bytes) :
    ∃ result fs', (∀ fuel, rank path ≤ fuel → mkdirs os (fuel + 1) path fs = some (result, fs')) ∧
      Sound os path fs result fs' := by
  -- By induction on the rank, as far as the recursion goes.
  induction hrank : rank path using Nat.strongRecOn generalizing path with
  | ind n ih =>
      subst hrank
      by_cases hstat : statIsDirectory os fs path (os.statFails path) = true
      · refine ⟨.ok (), fs, fun fuel _ => ?_, ?_⟩
        · rw [mkdirs, if_pos hstat]
        · exact sound_of_unchanged fun _ => names_of_statIsDirectory hstat
      by_cases hparent : dirname path = path
      · refine ⟨.error .enoent, fs, fun fuel _ => ?_, sound_of_unchanged fun h => by cases h⟩
        rw [mkdirs, if_neg hstat]
        exact if_pos hparent
      have hlt := rank_dirname hparent
      obtain ⟨result, fs', hrun, hsound⟩ := ih (rank (dirname path)) hlt (dirname path) rfl
      have hstep : ∀ fuel, rank path ≤ fuel → mkdirs os (fuel + 1) path fs =
          match result with
          | .error e => some (.error e, fs')
          | .ok _ => some (mkdirLast os path fs') := by
        intro fuel hfuel
        obtain ⟨fuel, rfl⟩ := Nat.exists_eq_add_one_of_ne_zero
          (Nat.ne_zero_of_lt (Nat.lt_of_lt_of_le hlt hfuel))
        rw [mkdirs, if_neg hstat]
        dsimp only
        rw [if_neg hparent, hrun fuel (Nat.le_of_lt_succ (Nat.lt_of_lt_of_le hlt hfuel))]
        cases result with
        | error e => rfl
        | ok _ => rfl
      cases result with
      | error e => exact ⟨.error e, fs', hstep, hsound.of_dirname fun h => by cases h⟩
      | ok _ => exact ⟨_, _, hstep, hsound.mkdirLast⟩

end

/-- `mkdirs` returns for every path and every file system, whichever calls fail.  If it
returns true, the path names a directory; and all that happens to the file system is that
directories are added that the path or one of its iterated `dirname`s names. -/
theorem mkdirs_adds_directories {τ : Type} (os : System) (fs : FileSystem Bytes τ)
    (path : Bytes) :
    ∃ result fs',
      (∀ fuel, path.length + 2 ≤ fuel → mkdirs os fuel path fs = some (result, fs')) ∧
      Sound os path fs result fs' := by
  obtain ⟨result, fs', hrun, hsound⟩ := mkdirs_of_rank os fs path
  refine ⟨result, fs', fun fuel hfuel => ?_, hsound⟩
  obtain ⟨fuel, rfl⟩ := Nat.exists_eq_add_one_of_ne_zero (Nat.ne_zero_of_lt hfuel)
  exact hrun fuel ((rank_le path).trans (Nat.le_of_succ_le_succ hfuel))

/-- A file system with nothing in it. -/
def bareRoot : FileSystem Bytes Unit where
  nodes := [.directory ⟨0o755, 0, fun _ => none⟩]
  root := 0
  cwd := 0
  umask := 0o022
  root_isDirectory := ⟨_, rfl⟩
  cwd_isDirectory := ⟨_, rfl⟩
  parent_isDirectory d h := by
    cases List.mem_singleton.mp h
    exact ⟨_, rfl⟩
  entries_lt d h name i hi := by
    cases List.mem_singleton.mp h
    cases hi

example :
    (mkdirs ⟨40, fun _ => none, fun _ => none, fun _ => none⟩ 7 (ascii "a//b/") bareRoot).map
      (fun r => (r.1.isOk, r.2.nodes.length)) = some (true, 3) := by decide

end Adb.DirectoryCreation
