import Adb.Numerals
import Adb.SearchHints
import Adb.TransitionSystems
import Adb.WirePackets

/-!
The table of file descriptors of sysdeps_win32.cpp.  A slot is free when it has
no class, and the search for a free slot starts at `_win32_fh_next`.
-/

namespace Adb.WindowsDescriptors

open Adb.DescriptorIo
open Adb.Numerals
open Adb.SearchHints
open Adb.TransitionSystems
open Adb.WirePackets

/-- `WIN32_FH_BASE`. -/
def fhBase : Int := 2048

/-- `WIN32_MAX_FHS`. -/
def maxFhs : Nat := 2048

/-- A pointer to a slot of `_win32_fhs`. -/
abbrev FH := Fin maxFhs

/-- The value of a `HANDLE` or a `SOCKET`. -/
abbrev Handle := Nat

inductive FHClass where
  | file
  | socket
  deriving DecidableEq, Repr

/-- `FHRec`; its `handle` is `fh_handle` or `fh_socket`, and `none` stands for
`INVALID_HANDLE_VALUE` and `INVALID_SOCKET`. -/
structure FHRec where
  clazz : Option FHClass
  used : Bool
  eof : Bool
  handle : Option Handle
  name : Bytes
  deriving DecidableEq, Repr

inductive SystemCall where
  | closeHandle (handle : Option Handle)
  | shutdown (socket : Handle)
  | closesocket (socket : Handle)
  deriving DecidableEq, Repr

inductive Errno where
  | ebadf
  | emfile
  | einval
  | enoent
  | enotdir
  | other (code : Nat)
  deriving DecidableEq, Repr

/-- The static data, the calls that closed something, and whether a null
class was called. -/
structure Descriptors where
  fhs : FH → FHRec
  fhNext : Nat
  calls : List SystemCall
  crashed : Bool

namespace Descriptors

def initial : Descriptors where
  fhs := fun _ => ⟨none, false, false, some 0, []⟩
  fhNext := 0
  calls := []
  crashed := false

def modify (st : Descriptors) (f : FH) (change : FHRec → FHRec) : Descriptors :=
  { st with fhs := Function.update st.fhs f (change (st.fhs f)) }

def isFree (st : Descriptors) (f : FH) : Bool := (st.fhs f).clazz.isNone

/-- The used slots. -/
def used (st : Descriptors) (f : FH) : Bool := (st.fhs f).used

end Descriptors

def fhFileInit (f : FHRec) : FHRec := { f with handle := none }

def fhSocketInit (f : FHRec) : FHRec := { f with handle := none }

def fhFileClose (f : FHRec) : FHRec × List SystemCall :=
  ({ f with handle := none }, [.closeHandle f.handle])

def fhSocketClose (f : FHRec) : FHRec × List SystemCall :=
  match f.handle with
  | some socket => ({ f with handle := none }, [.shutdown socket, .closesocket socket])
  | none => (f, [])

namespace FHClass

def fhInit : FHClass → FHRec → FHRec
  | .file => fhFileInit
  | .socket => fhSocketInit

def fhClose : FHClass → FHRec → FHRec × List SystemCall
  | .file => fhFileClose
  | .socket => fhSocketClose

end FHClass

/-- `_fh_from_int`.  Where the subtraction of the base would overflow, the
descriptor is as invalid as any other number below the base. -/
def fhFromInt (st : Descriptors) (fd : Int) : Except Errno FH :=
  if h : 0 ≤ fd - fhBase ∧ fd - fhBase < maxFhs then
    let f : FH := ⟨(fd - fhBase).toNat, by omega⟩
    if (st.fhs f).used then .ok f else .error .ebadf
  else .error .ebadf

def fhToInt (st : Descriptors) : Option FH → Int
  | some f => if (st.fhs f).used then (f : Nat) + fhBase else -1
  | none => -1

def fhAlloc (st : Descriptors) (clazz : FHClass) : Except Errno FH × Descriptors :=
  match firstFrom st.isFree st.fhNext with
  | some f =>
      (.ok f, { st with fhNext := f + 1 }.modify f fun record =>
        clazz.fhInit { record with clazz := some clazz, used := true, eof := false, name := [] })
  | none => (.error .emfile, st)

def fhClose (st : Descriptors) (f : FH) : Descriptors :=
  let st := { st with fhNext := if st.fhNext > f then (f : Nat) else st.fhNext }
  if (st.fhs f).used then
    match (st.fhs f).clazz with
    | some clazz =>
        let closed := clazz.fhClose (st.fhs f)
        { st with calls := st.calls ++ closed.2 }.modify f fun _ =>
          { closed.1 with name := [], eof := false, used := false, clazz := none }
    | none => { st with crashed := true }
  else st

/-- The arguments of `CreateFileW`. -/
structure FileRequest where
  path : List UInt16
  desiredAccess : Nat
  shareMode : Nat
  disposition : Nat
  flags : Nat
  deriving DecidableEq, Repr

/-- `UTF8ToWide` and `CreateFileW`, with the error that `GetLastError` returns. -/
structure Win32 where
  utf8ToWide : Bytes → Except Errno (List UInt16)
  createFileW : FileRequest → Except Nat Handle

def genericRead : Nat := 0x80000000

def genericWrite : Nat := 0x40000000

/-- `FILE_SHARE_READ | FILE_SHARE_WRITE`. -/
def shareReadWrite : Nat := 3

/-- The errno for an error of `CreateFileW`. -/
def errnoOfError (error : Nat) : Errno :=
  if error = 2 then .enoent else if error = 3 then .enotdir else .enoent

/-- What `adb_open` and `adb_creat` do from `_fh_alloc` on; an error is their
errno where they return `-1`. -/
def openFile (win : Win32) (st : Descriptors) (path : Bytes)
    (request : List UInt16 → FileRequest) : Except Errno Int × Descriptors :=
  match fhAlloc st .file with
  | (.error e, st) => (.error e, st)
  | (.ok f, st) =>
      match win.utf8ToWide path with
      | .error e => (.error e, st)
      | .ok pathWide =>
          match win.createFileW (request pathWide) with
          | .error error =>
              (.error (errnoOfError error),
                fhClose (st.modify f fun record => { record with handle := none }) f)
          | .ok handle =>
              let st := st.modify f fun record => { record with handle := some handle }
              let fd := fhToInt st (some f)
              let name := print 10 fd.toNat ++ ascii "(" ++ path ++ ascii ")"
              (.ok fd, st.modify f fun record => { record with name := name.take 31 })

def oRdonly : Int := 0

def oWronly : Int := 1

def oRdwr : Int := 2

def adbOpen (win : Win32) (st : Descriptors) (path : Bytes) (options : Int) :
    Except Errno Int × Descriptors :=
  let open' := fun desiredAccess => openFile win st path fun pathWide =>
    ⟨pathWide, desiredAccess, shareReadWrite, 3, 0⟩
  if options = oRdonly then open' genericRead
  else if options = oWronly then open' genericWrite
  else if options = oRdwr then open' (genericRead + genericWrite)
  else (.error .einval, st)

/-- `adb_creat` ignores the mode. -/
def adbCreat (win : Win32) (st : Descriptors) (path : Bytes) (_mode : Int) :
    Except Errno Int × Descriptors :=
  openFile win st path fun pathWide => ⟨pathWide, genericWrite, shareReadWrite, 2, 0x80⟩

def adbClose (st : Descriptors) (fd : Int) : Except Errno Int × Descriptors :=
  match fhFromInt st fd with
  | .error e => (.error e, st)
  | .ok f => (.ok 0, fhClose st f)

def returned : Except Errno Int → Int
  | .ok n => n
  | .error _ => -1

/-- The calls on the table.  `store` is what the callers of `_fh_alloc` write
into the fields of a slot that the two functions do not look at. -/
inductive Call where
  | alloc (clazz : FHClass)
  | close (f : FH)
  | store (f : FH) (handle : Option Handle) (eof : Bool) (name : Bytes)
  deriving DecidableEq, Repr

def Descriptors.next (st : Descriptors) : Call → Descriptors
  | .alloc clazz => (fhAlloc st clazz).2
  | .close f => fhClose st f
  | .store f handle eof name =>
      st.modify f fun record => { record with handle := handle, eof := eof, name := name }

def descriptorSystem : System Descriptors Call where
  initial st := st = .initial
  enabled _ _ := True
  next := Descriptors.next

/-- What holds between any two calls. -/
structure TableOk (st : Descriptors) : Prop where
  classed : ∀ f, st.used f = true ↔ (st.fhs f).clazz.isSome = true
  hint : Sound st.isFree st.fhNext
  running : st.crashed = false

section

variable {st : Descriptors} {f g : FH} {clazz : FHClass} {change : FHRec → FHRec}

@[simp] theorem modify_fhs_self (st : Descriptors) (f : FH) (change : FHRec → FHRec) :
    (st.modify f change).fhs f = change (st.fhs f) := Function.update_self ..

theorem modify_fhs_of_ne (change : FHRec → FHRec) (h : g ≠ f) :
    (st.modify f change).fhs g = st.fhs g := Function.update_of_ne h ..

theorem isFree_modify (st : Descriptors) (f : FH) (change : FHRec → FHRec) :
    (st.modify f change).isFree =
      Function.update st.isFree f (change (st.fhs f)).clazz.isNone := by
  funext g
  rcases eq_or_ne g f with rfl | hne
  · simp [Descriptors.isFree]
  · rw [Function.update_of_ne hne, Descriptors.isFree, modify_fhs_of_ne _ hne]
    rfl

theorem TableOk.isFree_eq (h : TableOk st) (f : FH) : st.isFree f = !st.used f := by
  have hclassed := h.classed f
  rw [Descriptors.isFree]
  cases hclazz : (st.fhs f).clazz <;> simp_all

theorem tableOk_initial : TableOk .initial where
  classed _ := by simp [Descriptors.initial, Descriptors.used]
  hint := sound_zero _
  running := rfl

@[simp] theorem fhInit_clazz (clazz : FHClass) (record : FHRec) :
    (clazz.fhInit record).clazz = record.clazz := by
  cases clazz <;> rfl

@[simp] theorem fhInit_used (clazz : FHClass) (record : FHRec) :
    (clazz.fhInit record).used = record.used := by
  cases clazz <;> rfl

theorem TableOk.modify (h : TableOk st) (next : Nat)
    (hclassed : (change (st.fhs f)).used = true ↔ (change (st.fhs f)).clazz.isSome = true)
    (hhint : Sound (Function.update st.isFree f (change (st.fhs f)).clazz.isNone) next) :
    TableOk ({ st with fhNext := next }.modify f change) where
  classed g := by
    rcases eq_or_ne g f with rfl | hne
    · rw [Descriptors.used, modify_fhs_self]
      exact hclassed
    · rw [Descriptors.used, modify_fhs_of_ne _ hne]
      exact h.classed g
  hint := by
    rw [isFree_modify]
    exact hhint
  running := h.running

theorem TableOk.store (h : TableOk st) (hclazz : (change (st.fhs f)).clazz = (st.fhs f).clazz)
    (hused : (change (st.fhs f)).used = (st.fhs f).used) : TableOk (st.modify f change) := by
  apply h.modify st.fhNext
  · rw [hclazz, hused]
    exact h.classed f
  · have hsame : (change (st.fhs f)).clazz.isNone = st.isFree f := by
      rw [hclazz, Descriptors.isFree]
    rw [hsame, Function.update_eq_self]
    exact h.hint

theorem fhAlloc_some (h : firstFrom st.isFree st.fhNext = some f) (clazz : FHClass) :
    fhAlloc st clazz = (.ok f, { st with fhNext := (f : Nat) + 1 }.modify f fun record =>
      clazz.fhInit { record with clazz := some clazz, used := true, eof := false, name := [] }) := by
  rw [fhAlloc, h]

theorem fhAlloc_none (h : firstFrom st.isFree st.fhNext = none) (clazz : FHClass) :
    fhAlloc st clazz = (.error .emfile, st) := by
  rw [fhAlloc, h]

theorem TableOk.alloc (h : TableOk st) (clazz : FHClass) : TableOk (fhAlloc st clazz).2 := by
  cases hfound : firstFrom st.isFree st.fhNext with
  | none =>
      rw [fhAlloc_none hfound]
      exact h
  | some f =>
      rw [fhAlloc_some hfound]
      dsimp only
      apply h.modify
      · simp
      · simpa using h.hint.take hfound

theorem TableOk.close (h : TableOk st) (f : FH) : TableOk (fhClose st f) := by
  have hnext : (if st.fhNext > f then (f : Nat) else st.fhNext) = min st.fhNext f := by
    rw [Nat.min_def]
    split <;> split <;> omega
  have hhint := h.hint.release f
  rw [fhClose, hnext]
  dsimp only
  cases hused : (st.fhs f).used with
  | false =>
      rw [if_neg (by simp)]
      have hfree : st.isFree f = true := by
        rw [h.isFree_eq, Descriptors.used, hused]
        rfl
      rw [Function.update_eq_self_iff.mpr hfree.symm] at hhint
      exact ⟨h.classed, hhint, h.running⟩
  | true =>
      obtain ⟨clazz, hclazz⟩ := Option.isSome_iff_exists.mp ((h.classed f).mp hused)
      rw [if_pos rfl, hclazz]
      have hcalls : TableOk { st with calls := st.calls ++ (clazz.fhClose (st.fhs f)).2 } :=
        ⟨h.classed, h.hint, h.running⟩
      exact hcalls.modify (min st.fhNext f) (by simp) hhint

theorem TableOk.next (h : TableOk st) (call : Call) : TableOk (st.next call) := by
  cases call with
  | alloc clazz => exact h.alloc clazz
  | close f => exact h.close f
  | store f handle eof name =>
      rw [Descriptors.next]
      apply h.store
      · rfl
      · rfl

theorem tableOk_execute (calls : List Call) :
    TableOk (descriptorSystem.execute .initial calls) :=
  System.execute_preserves tableOk_initial (fun _ call _ h => h.next call) List.prefix_rfl

theorem TableOk.firstFrom_eq_some_iff (h : TableOk st) :
    firstFrom st.isFree st.fhNext = some f ↔ IsLeast {g | st.used g = false} f := by
  rw [SearchHints.firstFrom_eq_some_iff h.hint]
  simp only [h.isFree_eq, Bool.not_eq_true']

theorem TableOk.firstFrom_eq_none_iff (h : TableOk st) :
    firstFrom st.isFree st.fhNext = none ↔ ∀ f, st.used f = true := by
  rw [SearchHints.firstFrom_eq_none_iff h.hint]
  simp only [h.isFree_eq, Bool.not_eq_false']

theorem TableOk.alloc_eq_ok_iff (h : TableOk st) (clazz : FHClass) :
    (fhAlloc st clazz).1 = .ok f ↔ IsLeast {g | st.used g = false} f := by
  rw [← h.firstFrom_eq_some_iff]
  cases hfound : firstFrom st.isFree st.fhNext with
  | none =>
      rw [fhAlloc_none hfound]
      simp
  | some g =>
      rw [fhAlloc_some hfound]
      simp

theorem TableOk.alloc_ok_iff (h : TableOk st) (clazz : FHClass) :
    (∃ f, (fhAlloc st clazz).1 = .ok f) ↔ ∃ f, st.used f = false := by
  have hnone := h.firstFrom_eq_none_iff
  cases hfound : firstFrom st.isFree st.fhNext with
  | none =>
      rw [fhAlloc_none hfound]
      simp [hnone.mp hfound]
  | some f =>
      rw [fhAlloc_some hfound]
      have hfree : ¬ ∀ g, st.used g = true := by
        rw [← hnone, hfound]
        simp
      simpa using hfree

theorem fhToInt_of_used (h : st.used f = true) : fhToInt st (some f) = (f : Nat) + fhBase :=
  if_pos h

theorem fhFromInt_toInt (h : st.used f = true) :
    fhFromInt st (fhToInt st (some f)) = .ok f := by
  have hlt : (f : Nat) < maxFhs := f.isLt
  have hslot : ∀ hrange, (⟨((f : Nat) + fhBase - fhBase).toNat, hrange⟩ : FH) = f :=
    fun _ => Fin.ext (by dsimp only; omega)
  rw [fhToInt_of_used h, fhFromInt, dif_pos (by omega)]
  dsimp only
  rw [hslot]
  exact if_pos h

theorem fhToInt_fromInt {fd : Int} (h : fhFromInt st fd = .ok f) :
    st.used f = true ∧ fhToInt st (some f) = fd := by
  rw [fhFromInt] at h
  split at h
  · next hrange =>
      dsimp only at h
      split at h
      · next hused =>
          cases h
          refine ⟨hused, ?_⟩
          rw [fhToInt_of_used hused]
          dsimp only
          omega
      · cases h
  · cases h

end

/-- After any calls the slots below the hint are in use and a slot is used exactly when it has
a class; so an allocation finds the lowest free slot whenever there is one, and the two
conversions are inverse to each other on the used slots. -/
theorem descriptor_table_sound (calls : List Call) :
    let st := descriptorSystem.execute .initial calls
    (∀ f : FH, (f : Nat) < st.fhNext → st.used f = true) ∧
      (∀ f, st.used f = true ↔ (st.fhs f).clazz.isSome = true) ∧
      (∀ clazz, ((∃ f, (fhAlloc st clazz).1 = .ok f) ↔ ∃ f, st.used f = false) ∧
        ∀ f, (fhAlloc st clazz).1 = .ok f → IsLeast {g | st.used g = false} f) ∧
      (∀ f, st.used f = true → fhFromInt st (fhToInt st (some f)) = .ok f) ∧
      (∀ fd f, fhFromInt st fd = .ok f → st.used f = true ∧ fhToInt st (some f) = fd) ∧
      st.crashed = false := by
  have h : TableOk (descriptorSystem.execute .initial calls) := tableOk_execute calls
  refine ⟨?_, h.classed, ?_, fun _ => fhFromInt_toInt, fun _ _ => fhToInt_fromInt, h.running⟩
  · intro f hf
    have htaken := h.hint.taken hf
    rw [h.isFree_eq] at htaken
    simpa using htaken
  · exact fun clazz => ⟨h.alloc_ok_iff clazz, fun f => (h.alloc_eq_ok_iff clazz).mp⟩

/-! ## Failed opens -/

/-- If the call returned `-1`, the used slots are those from before. -/
def ReleasesOnFailure (before : Descriptors) (result : Except Errno Int × Descriptors) : Prop :=
  returned result.1 = -1 → result.2.used = before.used

section

variable {st : Descriptors} {f : FH} {win : Win32} {path : Bytes}
  {request : List UInt16 → FileRequest}

theorem used_modify (st : Descriptors) (f : FH) (change : FHRec → FHRec) :
    (st.modify f change).used = Function.update st.used f (change (st.fhs f)).used := by
  funext g
  rcases eq_or_ne g f with rfl | hne
  · simp [Descriptors.used]
  · rw [Function.update_of_ne hne, Descriptors.used, modify_fhs_of_ne _ hne]
    rfl

theorem used_fhAlloc (h : firstFrom st.isFree st.fhNext = some f) (clazz : FHClass) :
    (fhAlloc st clazz).2.used = Function.update st.used f true := by
  rw [fhAlloc_some h, used_modify, fhInit_used]
  rfl

theorem used_fhClose (h : TableOk st) (f : FH) :
    (fhClose st f).used = Function.update st.used f false := by
  rw [fhClose]
  dsimp only
  cases hused : (st.fhs f).used with
  | false =>
      rw [if_neg (by simp)]
      exact (Function.update_eq_self_iff.mpr hused.symm).symm
  | true =>
      obtain ⟨clazz, hclazz⟩ := Option.isSome_iff_exists.mp ((h.classed f).mp hused)
      rw [if_pos rfl, hclazz]
      exact used_modify _ _ _

theorem openFile_full (h : firstFrom st.isFree st.fhNext = none) :
    openFile win st path request = (.error .emfile, st) := by
  rw [openFile, fhAlloc_none h]

theorem openFile_unconverted {e : Errno} (h : firstFrom st.isFree st.fhNext = some f)
    (hwide : win.utf8ToWide path = .error e) :
    openFile win st path request = (.error e, (fhAlloc st .file).2) := by
  rw [openFile, fhAlloc_some h, hwide]

theorem used_openFile_failed {pathWide : List UInt16} {error : Nat} (hok : TableOk st)
    (h : firstFrom st.isFree st.fhNext = some f) (hwide : win.utf8ToWide path = .ok pathWide)
    (hfile : win.createFileW (request pathWide) = .error error) :
    (openFile win st path request).2.used = st.used := by
  have halloc := hok.alloc .file
  have hused := used_fhAlloc h .file
  rw [fhAlloc_some h] at halloc hused
  dsimp only at halloc hused
  have hfree : st.used f = false := (hok.firstFrom_eq_some_iff.mp h).1
  rw [openFile, fhAlloc_some h, hwide]
  dsimp only
  rw [hfile]
  dsimp only
  rw [used_fhClose (halloc.store rfl rfl), used_modify, hused, modify_fhs_self, fhInit_used,
    Function.update_idem, Function.update_idem, ← hfree, Function.update_eq_self]

theorem returned_openFile_created {pathWide : List UInt16} {handle : Handle}
    (h : firstFrom st.isFree st.fhNext = some f) (hwide : win.utf8ToWide path = .ok pathWide)
    (hfile : win.createFileW (request pathWide) = .ok handle) :
    returned (openFile win st path request).1 ≠ -1 := by
  rw [openFile, fhAlloc_some h, hwide]
  dsimp only
  rw [hfile]
  dsimp only
  rw [returned, fhToInt_of_used]
  · rw [fhBase]
    omega
  · simp [used_modify]

theorem openFile_releases_iff (hok : TableOk st) :
    ReleasesOnFailure st (openFile win st path request) ↔
      ((∃ f, st.used f = false) → ∃ pathWide, win.utf8ToWide path = .ok pathWide) := by
  cases hfound : firstFrom st.isFree st.fhNext with
  | none =>
      rw [openFile_full hfound]
      simp [ReleasesOnFailure, hok.firstFrom_eq_none_iff.mp hfound]
  | some f =>
      have hfree : st.used f = false := (hok.firstFrom_eq_some_iff.mp hfound).1
      cases hwide : win.utf8ToWide path with
      | error e =>
          -- The slot stays allocated.
          have hkept : (fhAlloc st .file).2.used ≠ st.used := by
            rw [used_fhAlloc hfound]
            intro hsame
            have hf := congrFun hsame f
            simp [hfree] at hf
          rw [openFile_unconverted hfound hwide]
          simp only [ReleasesOnFailure, returned, hkept]
          simpa using ⟨f, hfree⟩
      | ok pathWide =>
          refine iff_of_true (fun hreturned => ?_) fun _ => ⟨pathWide, rfl⟩
          cases hfile : win.createFileW (request pathWide) with
          | error error => exact used_openFile_failed hok hfound hwide hfile
          | ok handle => exact absurd hreturned (returned_openFile_created hfound hwide hfile)

end

/-- A call of `adb_open` or `adb_creat` that returns `-1` has released its slot, except when it
had allocated one and the path is not UTF-8. -/
theorem failed_opens_release_iff (win : Win32) {st : Descriptors} (h : TableOk st) (path : Bytes)
    (options mode : Int) :
    (ReleasesOnFailure st (adbOpen win st path options) ↔
        (options ∈ [oRdonly, oWronly, oRdwr] → (∃ f, st.used f = false) →
          ∃ pathWide, win.utf8ToWide path = .ok pathWide)) ∧
      (ReleasesOnFailure st (adbCreat win st path mode) ↔
        ((∃ f, st.used f = false) → ∃ pathWide, win.utf8ToWide path = .ok pathWide)) := by
  refine ⟨?_, openFile_releases_iff h⟩
  rw [adbOpen]
  dsimp only
  split
  · next hoptions => simpa [hoptions] using openFile_releases_iff h
  split
  · next hoptions => simpa [hoptions] using openFile_releases_iff h
  split
  · next hoptions => simpa [hoptions] using openFile_releases_iff h
  · next hread hwrite hboth =>
      refine iff_of_true (fun _ => rfl) fun hoptions => ?_
      simp only [List.mem_cons, List.not_mem_nil, or_false] at hoptions
      omega

/-- No file exists, and only ASCII is converted; `42` is `EILSEQ`. -/
def emptyDisk : Win32 where
  utf8ToWide path :=
    if path.all (· < 128) then .ok (path.map fun b => UInt16.ofNat b.toNat) else .error (.other 42)
  createFileW _ := .error 2

theorem failed_opens_release_ascii :
    ReleasesOnFailure .initial (adbOpen emptyDisk .initial (ascii "a") oRdonly) ∧
      ReleasesOnFailure .initial (adbCreat emptyDisk .initial (ascii "a") 0) := by
  have h := failed_opens_release_iff emptyDisk tableOk_initial (ascii "a") oRdonly 0
  exact ⟨h.1.mpr fun _ _ => ⟨[97], rfl⟩, h.2.mpr fun _ => ⟨[97], rfl⟩⟩

/-- A path that is not UTF-8 costs a slot. -/
theorem adbOpen_keeps_slot :
    returned (adbOpen emptyDisk .initial [255] oRdonly).1 = -1 ∧
      (adbOpen emptyDisk .initial [255] oRdonly).2.used ≠ Descriptors.initial.used := by
  have hfound : firstFrom Descriptors.initial.isFree Descriptors.initial.fhNext =
      some ⟨0, by decide⟩ :=
    tableOk_initial.firstFrom_eq_some_iff.mpr ⟨rfl, fun g _ => Nat.zero_le g⟩
  rw [adbOpen]
  dsimp only
  rw [if_pos rfl, openFile_unconverted hfound rfl]
  refine ⟨rfl, fun hsame => ?_⟩
  rw [used_fhAlloc hfound] at hsame
  have hslot := congrFun hsame ⟨0, by decide⟩
  rw [Function.update_self] at hslot
  exact Bool.noConfusion hslot

end Adb.WindowsDescriptors
