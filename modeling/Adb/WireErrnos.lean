import Mathlib.Data.List.Basic
import Mathlib.Logic.Function.Basic

/-!
The numbers of errors, sysdeps/errno.cpp.  A platform has its own numbers for the
names of `ERRNO_VALUES`; on the wire each name has the number that Linux gives
it on most architectures.
-/

namespace Adb.WireErrnos

/-- The names in `ERRNO_VALUES`. -/
inductive Errno where
  | eacces
  | eexist
  | efault
  | efbig
  | eintr
  | einval
  | eio
  | eisdir
  | eloop
  | emfile
  | enametoolong
  | enfile
  | enoent
  | enomem
  | enospc
  | enotdir
  | eoverflow
  | eperm
  | erofs
  | etxtbsy
  deriving DecidableEq, Repr

open Errno

def errnoValues : List Errno :=
  [eacces, eexist, efault, efbig, eintr, einval, eio, eisdir, eloop, emfile, enametoolong,
    enfile, enoent, enomem, enospc, enotdir, eoverflow, eperm, erofs, etxtbsy]

def wireValue : Errno → Int
  | eacces => 13
  | eexist => 17
  | efault => 14
  | efbig => 27
  | eintr => 4
  | einval => 22
  | eio => 5
  | eisdir => 21
  | eloop => 40
  | emfile => 24
  | enametoolong => 36
  | enfile => 23
  | enoent => 2
  | enomem => 12
  | enospc => 28
  | enotdir => 20
  | eoverflow => 75
  | eperm => 1
  | erofs => 30
  | etxtbsy => 26

/-- The values of the error macros on one platform. -/
abbrev Numbering := Errno → Int

/-- `host_to_wire`, as `generate_host_to_wire` inserts its pairs; `insert` keeps
the value that a key already has. -/
def hostToWire (number : Numbering) : List (Int × Int) :=
  errnoValues.map fun e => (number e, wireValue e)

def errnoToWire (number : Numbering) (error : Int) : Int :=
  ((hostToWire number).lookup error).getD 5

/-- `errno_from_wire`, which also searches `host_to_wire`. -/
def errnoFromWire (number : Numbering) (error : Int) : Int :=
  ((hostToWire number).lookup error).getD (number eio)

/-- An error of the device is the same error on the host, and a number outside
the table is `EIO` in both directions. -/
structure Travels (device host : Numbering) : Prop where
  listed : ∀ e, errnoFromWire host (errnoToWire device (device e)) = host e
  toWire : ∀ error, (∀ e, device e ≠ error) → errnoToWire device error = wireValue eio
  fromWire : ∀ error, (∀ e, wireValue e ≠ error) → errnoFromWire host error = host eio

/-- The numbers of a platform are the wire numbers, up to names that have
exchanged theirs. -/
def Exchanged (number : Numbering) : Prop :=
  ∀ e, ∃ other, number e = wireValue other ∧ number other = wireValue e

section

variable {number device host : Numbering} {error : Int}

theorem mem_errnoValues (e : Errno) : e ∈ errnoValues := by
  cases e <;> decide

theorem lookup_map (h : Function.Injective number) {names : List Errno} {e : Errno}
    (he : e ∈ names) :
    (names.map fun e => (number e, wireValue e)).lookup (number e) = some (wireValue e) := by
  induction names with
  | nil => cases he
  | cons name names ih =>
      rw [List.map_cons, List.lookup_cons]
      rcases eq_or_ne e name with rfl | hne
      · rw [beq_self_eq_true]
      · have hnumber : (number e == number name) = false := beq_false_of_ne (h.ne hne)
        rw [hnumber]
        exact ih ((List.mem_cons.mp he).resolve_left hne)

theorem lookup_hostToWire (h : Function.Injective number) (e : Errno) :
    (hostToWire number).lookup (number e) = some (wireValue e) :=
  lookup_map h (mem_errnoValues e)

theorem lookup_hostToWire_eq_none (h : ∀ e, number e ≠ error) :
    (hostToWire number).lookup error = none := by
  rw [List.lookup_eq_none_iff]
  intro pair hpair
  obtain ⟨e, -, rfl⟩ := List.mem_map.mp hpair
  exact bne_iff_ne.mpr (h e).symm

theorem errnoToWire_listed (h : Function.Injective number) (e : Errno) :
    errnoToWire number (number e) = wireValue e := by
  rw [errnoToWire, lookup_hostToWire h]
  rfl

theorem errnoToWire_unlisted (h : ∀ e, number e ≠ error) :
    errnoToWire number error = wireValue eio := by
  rw [errnoToWire, lookup_hostToWire_eq_none h]
  rfl

theorem errnoFromWire_listed (h : Function.Injective number) (e : Errno) :
    errnoFromWire number (number e) = wireValue e := by
  rw [errnoFromWire, lookup_hostToWire h]
  rfl

theorem errnoFromWire_unlisted (h : ∀ e, number e ≠ error) :
    errnoFromWire number error = number eio := by
  rw [errnoFromWire, lookup_hostToWire_eq_none h]
  rfl

theorem travels_of_exchanged (hdevice : Function.Injective device)
    (hhost : Function.Injective host) (h : Exchanged host) : Travels device host where
  listed e := by
    obtain ⟨other, he, hother⟩ := h e
    rw [errnoToWire_listed hdevice, ← hother, errnoFromWire_listed hhost, he]
  toWire _ := errnoToWire_unlisted
  fromWire error hunlisted := by
    apply errnoFromWire_unlisted
    intro e he
    obtain ⟨other, hwire, -⟩ := h e
    exact hunlisted other (hwire.symm.trans he)

/-- The wire number of a name that is recovered is the host's number of some
name, unless the name is `EIO`. -/
theorem Travels.exchange (h : Travels device host) (hdevice : Function.Injective device)
    (hhost : Function.Injective host) (e : Errno) :
    (∃ other, host e = wireValue other ∧ host other = wireValue e) ∨
      e = eio ∧ ∀ other, host other ≠ wireValue eio := by
  have hlisted := h.listed e
  rw [errnoToWire_listed hdevice] at hlisted
  rcases Classical.em (∃ other, host other = wireValue e) with ⟨other, hother⟩ | hnone
  · rw [← hother, errnoFromWire_listed hhost] at hlisted
    exact .inl ⟨other, hlisted.symm, hother⟩
  · have hnone := not_exists.mp hnone
    rw [errnoFromWire_unlisted hnone] at hlisted
    obtain rfl := hhost hlisted
    exact .inr ⟨rfl, hnone⟩

theorem exchanged_of_travels (hdevice : Function.Injective device)
    (hhost : Function.Injective host) (h : Travels device host) : Exchanged host := by
  intro e
  rcases h.exchange hdevice hhost e with hexchange | ⟨rfl, hnone⟩
  · exact hexchange
  -- the host's number of `EIO` would be outside the table, or would belong to
  -- a name that has exchanged its number with `EIO`
  exfalso
  rcases Classical.em (∃ name, wireValue name = host eio) with ⟨name, hname⟩ | hunlisted
  · rcases h.exchange hdevice hhost name with ⟨other, hhostName, hother⟩ | ⟨rfl, -⟩
    · obtain rfl := hhost (hother.trans hname)
      exact hnone name hhostName
    · exact hnone eio hname.symm
  · have hfrom := h.fromWire (host eio) (not_exists.mp hunlisted)
    rw [errnoFromWire_listed hhost] at hfrom
    exact hunlisted ⟨eio, hfrom⟩

end

/-- Errors travel exactly to the hosts that number them as the wire does, up to
exchanged names. -/
theorem errnos_travel_iff (device host : Numbering) (hdevice : Function.Injective device)
    (hhost : Function.Injective host) : Travels device host ↔ Exchanged host := by
  constructor
  · exact exchanged_of_travels hdevice hhost
  · exact travels_of_exchanged hdevice hhost

theorem wireValue_injective : Function.Injective wireValue := by
  intro e e' h
  cases e <;> cases e' <;> first | rfl | (exfalso; revert h; decide)

theorem errnos_travel_on_linux : Travels wireValue wireValue :=
  (errnos_travel_iff wireValue wireValue wireValue_injective wireValue_injective).mpr
    fun e => ⟨e, rfl, rfl⟩

/-- The numbers of Darwin. -/
def darwinNumber : Numbering
  | eloop => 62
  | enametoolong => 63
  | eoverflow => 84
  | e => wireValue e

/-- A symbolic link loop on the device is an I/O error on a Mac. -/
theorem loop_lost_on_darwin :
    errnoFromWire darwinNumber (errnoToWire wireValue (wireValue eloop)) = darwinNumber eio ∧
      ¬ Travels wireValue darwinNumber := by
  refine ⟨by decide, ?_⟩
  intro h
  have := h.listed eloop
  revert this
  decide

end Adb.WireErrnos
