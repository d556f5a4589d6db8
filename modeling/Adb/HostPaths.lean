import Adb.PathResolution
import Adb.WirePackets
import Mathlib.Data.List.DropRight

/-!
Paths on a host with `/` as its separator, and what the client needs of the
functions that split them.
-/

namespace Adb.HostPaths

open Adb.DescriptorIo
open Adb.PathResolution
open Adb.WirePackets

/-- A component of a path. -/
def stepOf (component : Bytes) : Step Bytes :=
  if component = [] then .stay
  else if component = ascii "." then .stay
  else if component = ascii ".." then .up
  else .down component

def stepsOf (path : Bytes) : List (Step Bytes) := (path.splitOn 47).map stepOf

/-- The place that a path means after `.` and `..` are resolved. -/
def resolve (path : Bytes) : Place Bytes :=
  Place.walk ⟨path.head? = some 47, 0, []⟩ (stepsOf path)

/-- `android::base::Dirname` and `android::base::Basename`: put together with a
separator, what they return is a path to the same place. -/
structure PathFunctions where
  dirname : Bytes → Bytes
  basename : Bytes → Bytes
  dirname_ne_nil : ∀ path, dirname path ≠ []
  resolve_join : ∀ path, resolve (dirname path ++ 47 :: basename path) = resolve path

section

variable {path : Bytes}

theorem stepsOf_append (first second : Bytes) :
    stepsOf (first ++ 47 :: second) = stepsOf first ++ stepsOf second := by
  rw [stepsOf, List.splitOn_append_cons_self, List.map_append]
  rfl

theorem resolve_append (h : path ≠ []) (name : Bytes) :
    resolve (path ++ 47 :: name) = (resolve path).walk (stepsOf name) := by
  have hhead : (path ++ 47 :: name).head? = path.head? := List.head?_append_of_ne_nil path h
  rw [resolve, stepsOf_append, walk_append, hhead]
  rfl

theorem stepsOf_nil : stepsOf [] = [.stay] := rfl

theorem resolve_append_separator (h : path ≠ []) : resolve (path ++ [47]) = resolve path := by
  rw [resolve_append h, stepsOf_nil]
  rfl

/-- The path without the separators at its end. -/
def stripped (path : Bytes) : Bytes := path.rdropWhile (· = 47)

def posixBasename (path : Bytes) : Bytes :=
  if path = [] then ascii "."
  else if stripped path = [] then ascii "/"
  else (stripped path).rtakeWhile (· ≠ 47)

def posixDirname (path : Bytes) : Bytes :=
  let front := (stripped path).rdropWhile (· ≠ 47)
  if path = [] then ascii "."
  else if stripped path = [] then ascii "/"
  else if front = [] then ascii "."
  else if stripped front = [] then ascii "/"
  else stripped front

theorem resolve_stripped (h : path ≠ []) :
    (stripped path = [] → resolve path = ⟨true, 0, []⟩) ∧
      (stripped path ≠ [] → resolve (stripped path) = resolve path) := by
  induction path using List.reverseRecOn with
  | nil => exact absurd rfl h
  | append_singleton front b ih =>
      rcases Decidable.em (b = 47) with rfl | hb
      · have hstripped : stripped (front ++ [47]) = stripped front :=
          List.rdropWhile_concat_pos _ _ _ (by simp)
        rw [hstripped]
        cases front with
        | nil => exact ⟨fun _ => rfl, fun hne => absurd rfl hne⟩
        | cons c front =>
            rw [resolve_append_separator (List.cons_ne_nil c front)]
            exact ih (List.cons_ne_nil c front)
      · have hstripped : stripped (front ++ [b]) = front ++ [b] :=
          List.rdropWhile_concat_neg _ _ _ (by simpa using hb)
        rw [hstripped]
        exact ⟨fun hnil => absurd hnil h, fun _ => rfl⟩

theorem resolve_root_append (name : Bytes) :
    resolve (ascii "/" ++ 47 :: name) = Place.walk ⟨true, 0, []⟩ (stepsOf name) := by
  rw [resolve_append (by decide)]
  rfl

theorem rdropWhile_eq_nil_or (path : Bytes) :
    path.rdropWhile (· ≠ 47) = [] ∨
      ∃ front, path.rdropWhile (· ≠ 47) = front ++ [47] := by
  induction path using List.reverseRecOn with
  | nil => exact .inl rfl
  | append_singleton front b ih =>
      rcases Decidable.em (b = 47) with rfl | hb
      · exact .inr ⟨front, List.rdropWhile_concat_neg _ _ _ (by simp)⟩
      · rw [List.rdropWhile_concat_pos _ _ _ (by simpa using hb)]
        exact ih

theorem resolve_posix_front (front name : Bytes) :
    resolve ((if stripped (front ++ [47]) = [] then ascii "/" else stripped (front ++ [47])) ++
      47 :: name) = resolve (front ++ 47 :: name) := by
  have hstripped : stripped (front ++ [47]) = stripped front :=
    List.rdropWhile_concat_pos _ _ _ (by simp)
  rw [hstripped]
  cases front with
  | nil => exact resolve_root_append name
  | cons b front =>
      obtain ⟨hroot, hother⟩ := resolve_stripped (List.cons_ne_nil b front)
      rw [resolve_append (List.cons_ne_nil b front)]
      split
      · next hnil => rw [resolve_root_append, hroot hnil]
      · next hne => rw [resolve_append hne, hother hne]

theorem resolve_posix_join (path : Bytes) :
    resolve (posixDirname path ++ 47 :: posixBasename path) = resolve path := by
  rw [posixDirname, posixBasename]
  rcases Decidable.em (path = []) with rfl | hpath
  · rfl
  obtain ⟨hroot, hother⟩ := resolve_stripped hpath
  simp only [if_neg hpath]
  split
  · next hnil =>
      rw [resolve_root_append, hroot hnil]
      rfl
  next hne =>
    rw [← hother hne]
    have hsplit : (stripped path).rdropWhile (· ≠ 47) ++ (stripped path).rtakeWhile (· ≠ 47) =
        stripped path := List.rdropWhile_append_rtakeWhile
    rcases rdropWhile_eq_nil_or (stripped path) with hfront | ⟨front, hfront⟩
    · -- One component: the host's current directory is its parent.
      rw [hfront, if_pos rfl, resolve_append (by decide)]
      rw [hfront, List.nil_append] at hsplit
      have hhead : (stripped path).head? ≠ some 47 := by
        intro hhead
        have hmem := List.rtakeWhile_eq_self_iff.mp hsplit 47 (List.mem_of_mem_head? hhead)
        exact absurd hmem (by decide)
      rw [hsplit, resolve, resolve, decide_eq_false hhead]
      rfl
    · rw [hfront, if_neg (by simp), resolve_posix_front]
      rw [hfront, List.append_assoc] at hsplit
      exact congrArg resolve hsplit

theorem posixDirname_ne_nil (path : Bytes) : posixDirname path ≠ [] := by
  rw [posixDirname]
  split
  · decide
  split
  · decide
  split
  · decide
  split
  · decide
  · assumption

def posixPaths : PathFunctions where
  dirname := posixDirname
  basename := posixBasename
  dirname_ne_nil := posixDirname_ne_nil
  resolve_join := resolve_posix_join

end

end Adb.HostPaths
