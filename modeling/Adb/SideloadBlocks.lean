import Adb.ExactIo
import Adb.Numerals
import Adb.WirePackets

/-!
The block server of `adb_sideload_host`, commandline.cpp: the device asks for
blocks of a package by their numbers, and the host answers with their bytes.
The number of a block is an `int`, and so is the product that gives its offset.
-/

namespace Adb.SideloadBlocks

open Adb.DescriptorIo
open Adb.ExactIo
open Adb.FragmentedStreams
open Adb.Numerals
open Adb.WirePackets

/-- `SIDELOAD_HOST_BLOCK_SIZE`. -/
def blockSize : Nat := 64 * 1024

/-- A package file, whose size is an `off_t`. -/
structure Package where
  content : Bytes
  fits : content.length < 2 ^ 63

namespace Package

def size (package : Package) : Nat := package.content.length

/-- The bytes of a block that exist. -/
def block (package : Package) (n : Nat) : Bytes :=
  (package.content.drop (n * blockSize)).take blockSize

end Package

/-- The value of an `int` expression that wraps. -/
def toInt (i : Int) : Int :=
  if i % 2 ^ 32 < 2 ^ 31 then i % 2 ^ 32 else i % 2 ^ 32 - 2 ^ 32

/-- The conversion of an `int` to `size_t`. -/
def toSize (i : Int) : Nat := (i % 2 ^ 64).toNat

/-- `strtol` in base ten, on a text that is too short to overflow. -/
def strtol (text : Bytes) : Int :=
  let signed := text.dropWhile isSpace
  let value : Int := digitsValue 10 0 (afterSign signed)
  if signed.head? = some 45 then -value else value

/-- The connection to the device: the pieces that will arrive, how the writes
will go, and the bytes that were sent. -/
structure Connection where
  incoming : List Bytes
  script : List WriteResult
  sent : Bytes
  deriving DecidableEq, Repr

/-- How the service ends; it returns `0` for `done` and `-1` otherwise. -/
inductive Ending where
  | done
  | commandFailed
  | pastEnd (block : Int)
  | seekFailed
  | readFailed
  | writeFailed
  deriving DecidableEq, Repr

/-- What a round of the loop leads to; `blocked` is a write that does not
return. -/
inductive Round where
  | served (c : Connection)
  | ended (ending : Ending) (c : Connection)
  | blocked (c : Connection)
  deriving DecidableEq, Repr

/-- `adb_lseek` from the start of the package. -/
def adbLseek (pos : Int) : Int := if pos < 0 then -1 else pos

/-- Seek to an offset of the package and read from there. -/
def readPackage (package : Package) (offset toWrite : Nat) : Except Ending Bytes :=
  if adbLseek (toInt offset) ≠ toInt offset then .error .seekFailed
  else
    match (readFdExactly toWrite).run [package.content.drop (toInt offset).toNat] with
    | none => .error .readFailed
    | some (data, _) => .ok data

/-- `WriteFdExactly` on the connection. -/
def writeBlock (c : Connection) (data : Bytes) : Round :=
  let out := writeFdExactly c.script data
  let c := { c with script := out.script, sent := c.sent ++ out.bytes }
  match out.status with
  | .done => .served c
  | .failed => .ended .writeFailed c
  | .again => .blocked c

/-- A round of the loop after a command was read. -/
def handleCommand (package : Package) (c : Connection) (buf : Bytes) : Round :=
  if buf = ascii "DONEDONE" then .ended .done c
  else
    let block := toInt (strtol buf)
    let offset := toSize (toInt (block * blockSize))
    if package.size ≤ offset then .ended (.pastEnd block) c
    else
      let toWrite :=
        if package.size < (offset + blockSize) % 2 ^ 64 then package.size - offset
        else blockSize
      match readPackage package offset toWrite with
      | .error ending => .ended ending c
      | .ok data => writeBlock c data

def sideloadRound (package : Package) (c : Connection) : Round :=
  match (readFdExactly 8).run c.incoming with
  | none => .ended .commandFailed c
  | some (buf, incoming) => handleCommand package { c with incoming := incoming } buf

/-- The loop of `adb_sideload_host`, for a number of rounds; `none` when it is
still running then. -/
def adbSideloadHost (package : Package) : Nat → Connection → Option (Ending × Connection)
  | 0, _ => none
  | rounds + 1, c =>
      match sideloadRound package c with
      | .served c => adbSideloadHost package rounds c
      | .ended ending c => some (ending, c)
      | .blocked _ => none

/-- Eight decimal digits. -/
structure Request where
  digits : Bytes
  length_digits : digits.length = 8
  decimal : ∀ b ∈ digits, 48 ≤ b.toNat ∧ b.toNat ≤ 57

def Request.block (request : Request) : Nat := digitsValue 10 0 request.digits

/-- The device takes a block. -/
def Accepts (script : List WriteResult) : Prop :=
  ∀ data : Bytes, data.length ≤ blockSize → (writeFdExactly script data).status = .done

/-- Whatever package of this size is served, and however the request arrives: a
block that exists is answered with its bytes, any other request is refused
without data. -/
def Answered (size : Nat) (request : Request) : Prop :=
  ∀ (package : Package) (c : Connection) (rest : Bytes), package.size = size →
    Fragments c.incoming (request.digits ++ rest) → Accepts c.script →
    if request.block * blockSize < size then
      ∃ c', sideloadRound package c = .served c' ∧
        c'.sent = c.sent ++ package.block request.block
    else
      ∃ ending c', sideloadRound package c = .ended ending c' ∧ ending ≠ .done ∧
        c'.sent = c.sent

/-- The offset of block `n` is not taken for that of an earlier block: it fits
into an `int`, or the block does not exist and the remainder of its offset is
negative or behind the end, too. -/
def Distinguished (size n : Nat) : Prop :=
  n < 2 ^ 15 ∨ size ≤ n * blockSize ∧
    (2 ^ 15 ≤ n % 2 ^ 16 ∨ size ≤ n % 2 ^ 16 * blockSize)

instance (size n : Nat) : Decidable (Distinguished size n) :=
  inferInstanceAs (Decidable (_ ∨ _))

section

variable {package : Package} {c : Connection}

theorem toInt_of_lt {n : Nat} (h : n < 2 ^ 31) : toInt n = n := by
  rw [toInt]
  split
  · omega
  · omega

theorem offset_of_small {n : Nat} (h : n % 2 ^ 16 < 2 ^ 15) :
    toSize (toInt ((n : Int) * (blockSize : Nat))) = n % 2 ^ 16 * blockSize := by
  rw [toSize, toInt, blockSize]
  split
  · omega
  · omega

/-- A negative product is far behind the end of every file. -/
theorem offset_of_large {n : Nat} (h : 2 ^ 15 ≤ n % 2 ^ 16) :
    2 ^ 63 ≤ toSize (toInt ((n : Int) * (blockSize : Nat))) := by
  rw [toSize, toInt, blockSize]
  split
  · omega
  · omega

theorem digit_plain {b : UInt8} (h : 48 ≤ b.toNat ∧ b.toNat ≤ 57) :
    isSpace b = false ∧ b ≠ 45 ∧ b ≠ 43 ∧ b ≠ 68 := by
  have hne : ∀ a : UInt8, ¬ (48 ≤ a.toNat ∧ a.toNat ≤ 57) → b ≠ a := by
    rintro a ha rfl
    exact ha h
  refine ⟨?_, hne 45 (by decide), hne 43 (by decide), hne 68 (by decide)⟩
  rw [isSpace, Bool.or_eq_false_iff, decide_eq_false_iff_not, Bool.and_eq_false_iff,
    decide_eq_false_iff_not, decide_eq_false_iff_not]
  exact ⟨hne 32 (by decide), .inr (by omega)⟩

namespace Request

theorem head (request : Request) :
    ∃ b digits, request.digits = b :: digits ∧ 48 ≤ b.toNat ∧ b.toNat ≤ 57 := by
  have hlength := request.length_digits
  have hdecimal := request.decimal
  cases hdigits : request.digits with
  | nil =>
      rw [hdigits] at hlength
      cases hlength
  | cons b digits => exact ⟨b, digits, rfl, hdecimal b (by simp [hdigits])⟩

theorem block_lt (request : Request) : request.block < 10 ^ 8 := by
  have h := digitsValue_lt request.digits 0 (show 0 < 10 by decide)
  rw [request.length_digits] at h
  exact h

theorem strtol_digits (request : Request) : strtol request.digits = request.block := by
  obtain ⟨b, digits, hdigits, hb⟩ := request.head
  obtain ⟨hspace, hminus, hplus, -⟩ := digit_plain hb
  have hdrop : (b :: digits).dropWhile isSpace = b :: digits := by
    rw [List.dropWhile_cons, hspace]
    rfl
  have hsign : afterSign (b :: digits) = b :: digits := by
    unfold afterSign
    split
    · exact absurd (List.cons.inj ‹_›).1 hminus
    · exact absurd (List.cons.inj ‹_›).1 hplus
    · rfl
  rw [block, strtol, hdigits, hdrop]
  simp only [hsign, List.head?_cons, Option.some.injEq, hminus, if_false]

theorem not_done (request : Request) : request.digits ≠ ascii "DONEDONE" := by
  obtain ⟨b, digits, hdigits, hb⟩ := request.head
  rw [hdigits]
  intro h
  exact (digit_plain hb).2.2.2 (List.cons.inj h).1

end Request

namespace Package

theorem length_block (package : Package) (n : Nat) :
    (package.block n).length = min blockSize (package.size - n * blockSize) := by
  rw [block, List.length_take, List.length_drop]
  rfl

theorem block_ne_nil {n : Nat} (h : n * blockSize < package.size) : package.block n ≠ [] := by
  intro hnil
  have hlength := package.length_block n
  rw [hnil, List.length_nil, blockSize] at hlength
  rw [blockSize] at h
  omega

end Package

theorem readPackage_block {k : Nat} (hk : k < 2 ^ 15) (h : k * blockSize < package.size) :
    readPackage package (k * blockSize)
      (if package.size < (k * blockSize + blockSize) % 2 ^ 64
        then package.size - k * blockSize else blockSize) = .ok (package.block k) := by
  have hoffset : toInt (k * blockSize : Nat) = (k * blockSize : Nat) := by
    apply toInt_of_lt
    rw [blockSize]
    omega
  have hseek : adbLseek (k * blockSize : Nat) = (k * blockSize : Nat) := by
    rw [adbLseek, if_neg (by omega)]
  have hcount : (if package.size < (k * blockSize + blockSize) % 2 ^ 64
      then package.size - k * blockSize else blockSize) = (package.block k).length := by
    rw [package.length_block]
    rw [blockSize] at h ⊢
    split
    · omega
    · omega
  have hrest : package.content.drop (k * blockSize) ≠ [] := by
    intro hnil
    exact Package.block_ne_nil h (by rw [Package.block, hnil, List.take_nil])
  have hblock : package.content.drop (k * blockSize) = package.block k ++
      (package.content.drop (k * blockSize)).drop blockSize := by
    rw [Package.block, List.take_append_drop]
  have hpieces := Fragments.whole hrest
  rw [hblock] at hpieces
  obtain ⟨pieces, hread, -⟩ := yields_readFdExactly (package.block k) _ _ hpieces
  rw [← hblock] at hread
  rw [readPackage, hoffset, hseek, if_neg (by simp), hcount, Int.toNat_natCast, hread]

theorem handleCommand_block (request : Request) (c : Connection)
    (hsmall : request.block % 2 ^ 16 < 2 ^ 15)
    (h : request.block % 2 ^ 16 * blockSize < package.size) :
    handleCommand package c request.digits =
      writeBlock c (package.block (request.block % 2 ^ 16)) := by
  have hblock : toInt request.block = request.block :=
    toInt_of_lt (Nat.lt_trans request.block_lt (by decide))
  rw [handleCommand, if_neg request.not_done, request.strtol_digits, hblock]
  simp only [offset_of_small hsmall, if_neg (Nat.not_le.mpr h), readPackage_block hsmall h]

theorem handleCommand_refused (request : Request) (c : Connection)
    (h : 2 ^ 15 ≤ request.block % 2 ^ 16 ∨ package.size ≤ request.block % 2 ^ 16 * blockSize) :
    handleCommand package c request.digits = .ended (.pastEnd request.block) c := by
  have hblock : toInt request.block = request.block :=
    toInt_of_lt (Nat.lt_trans request.block_lt (by decide))
  have hpast : package.size ≤ toSize (toInt ((request.block : Int) * (blockSize : Nat))) := by
    rcases Nat.lt_or_ge (request.block % 2 ^ 16) (2 ^ 15) with hsmall | hlarge
    · rw [offset_of_small hsmall]
      exact h.resolve_left (Nat.not_le.mpr hsmall)
    · exact Nat.le_trans (Nat.le_of_lt package.fits) (offset_of_large hlarge)
  rw [handleCommand, if_neg request.not_done, request.strtol_digits, hblock]
  simp only [if_pos hpast]

theorem sideloadRound_eq (package : Package) {request : Request} {rest : Bytes}
    (h : Fragments c.incoming (request.digits ++ rest)) :
    ∃ pieces, Fragments pieces rest ∧
      sideloadRound package c =
        handleCommand package { c with incoming := pieces } request.digits := by
  have hyields := yields_readFdExactly request.digits
  rw [request.length_digits] at hyields
  obtain ⟨pieces, hread, hpieces⟩ := hyields _ _ h
  refine ⟨pieces, hpieces, ?_⟩
  rw [sideloadRound, hread]

theorem writeBlock_done {data : Bytes} (h : (writeFdExactly c.script data).status = .done) :
    writeBlock c data = .served
      { c with script := (writeFdExactly c.script data).script, sent := c.sent ++ data } := by
  rw [writeBlock, h, writeFdExactly_bytes h]

theorem length_block_le (package : Package) (n : Nat) :
    (package.block n).length ≤ blockSize := by
  rw [package.length_block]
  exact Nat.min_le_left _ _

theorem sideloadRound_block {request : Request} {rest : Bytes}
    (hincoming : Fragments c.incoming (request.digits ++ rest)) (hlt : request.block < 2 ^ 15)
    (hexists : request.block * blockSize < package.size)
    (hwritten : (writeFdExactly c.script (package.block request.block)).status = .done) :
    ∃ pieces, Fragments pieces rest ∧
      sideloadRound package c = .served
        { incoming := pieces
          script := (writeFdExactly c.script (package.block request.block)).script
          sent := c.sent ++ package.block request.block } := by
  obtain ⟨pieces, hpieces, hround⟩ := sideloadRound_eq package hincoming
  have hmod : request.block % 2 ^ 16 = request.block :=
    Nat.mod_eq_of_lt (Nat.lt_trans hlt (by decide))
  have hblock := handleCommand_block request { c with incoming := pieces }
    (by rwa [hmod]) (by rwa [hmod])
  rw [hmod] at hblock
  exact ⟨pieces, hpieces, hround.trans (hblock.trans (writeBlock_done hwritten))⟩

theorem answered_of_distinguished {size : Nat} {request : Request}
    (h : Distinguished size request.block) : Answered size request := by
  rintro package c rest rfl hincoming haccepts
  split
  · rename_i hexists
    have hlt : request.block < 2 ^ 15 := h.resolve_right fun hpast =>
      absurd hpast.1 (Nat.not_le.mpr hexists)
    obtain ⟨pieces, -, hround⟩ := sideloadRound_block hincoming hlt hexists
      (haccepts _ (length_block_le package request.block))
    exact ⟨_, hround, rfl⟩
  · rename_i hpast
    have hrefused : 2 ^ 15 ≤ request.block % 2 ^ 16 ∨
        package.size ≤ request.block % 2 ^ 16 * blockSize := by
      rcases h with hlt | ⟨-, h⟩
      · rw [Nat.mod_eq_of_lt (Nat.lt_trans hlt (by decide))]
        exact .inr (Nat.not_lt.mp hpast)
      · exact h
    obtain ⟨pieces, -, hround⟩ := sideloadRound_eq package hincoming
    rw [hround]
    refine ⟨_, _, handleCommand_refused request _ hrefused, ?_, rfl⟩
    intro hdone
    cases hdone

theorem accepts_blockSize : Accepts [.wrote blockSize] := by
  intro data hlength
  cases data with
  | nil => rfl
  | cons b data =>
      rw [writeFdExactly, List.drop_eq_nil_of_le hlength]
      · rfl
      · exact List.cons_ne_nil b data

/-- A device that sends one request and takes the answer. -/
def oneRequest (request : Request) : Connection where
  incoming := [request.digits]
  script := [.wrote blockSize]
  sent := []

theorem sent_oneRequest (request : Request) : (oneRequest request).sent = [] := rfl

theorem fragments_oneRequest (request : Request) :
    Fragments (oneRequest request).incoming (request.digits ++ []) := by
  obtain ⟨b, digits, hdigits, -⟩ := request.head
  rw [List.append_nil]
  apply Fragments.whole
  rw [hdigits]
  exact List.cons_ne_nil b digits

/-- A package with ones up to the end of a block, and zeros behind it. -/
def markedPackage (size n : Nat) (hsize : size < 2 ^ 63) : Package where
  content := (List.replicate ((n + 1) * blockSize) (1 : UInt8) ++ List.replicate size 0).take size
  fits := Nat.lt_of_le_of_lt (List.length_take_le size _) hsize

theorem size_markedPackage (size n : Nat) (hsize : size < 2 ^ 63) :
    (markedPackage size n hsize).size = size := by
  rw [Package.size, markedPackage, List.length_take, List.length_append,
    List.length_replicate, List.length_replicate]
  omega

theorem Answered.oneRequest {size : Nat} {request : Request} (h : Answered size request)
    (package : Package) (hsize : package.size = size) :
    ∃ pieces, Fragments pieces [] ∧
      if request.block * blockSize < size then
        ∃ c', handleCommand package { oneRequest request with incoming := pieces }
            request.digits = .served c' ∧ c'.sent = package.block request.block
      else
        ∃ ending c', handleCommand package { oneRequest request with incoming := pieces }
            request.digits = .ended ending c' ∧ ending ≠ .done ∧ c'.sent = [] := by
  obtain ⟨pieces, hpieces, hround⟩ :=
    sideloadRound_eq package (fragments_oneRequest request)
  have hanswer := h package (SideloadBlocks.oneRequest request) [] hsize
    (fragments_oneRequest request) accepts_blockSize
  rw [hround, sent_oneRequest, List.nil_append] at hanswer
  exact ⟨pieces, hpieces, hanswer⟩

theorem blockSize_pos : 0 < blockSize := by
  rw [blockSize]
  omega

theorem head_block_markedPackage {size k n : Nat} (hsize : size < 2 ^ 63)
    (hn : n * blockSize < size) :
    ((markedPackage size k hsize).block n)[0]? =
      some (if n * blockSize < (k + 1) * blockSize then 1 else 0) := by
  rw [Package.block, List.getElem?_take_of_lt blockSize_pos, List.getElem?_drop, Nat.add_zero]
  simp only [markedPackage]
  rw [List.getElem?_take_of_lt hn, List.getElem?_append, List.length_replicate]
  split
  · rename_i hones
    rw [List.getElem?_replicate, if_pos hones]
  · rw [List.getElem?_replicate, if_pos (Nat.lt_of_le_of_lt (Nat.sub_le _ _) hn)]

theorem block_markedPackage_ne {size k n : Nat} (hsize : size < 2 ^ 63) (hk : k < n)
    (hn : n * blockSize < size) :
    (markedPackage size k hsize).block k ≠ (markedPackage size k hsize).block n := by
  intro heq
  have hpos := blockSize_pos
  have hle : (k + 1) * blockSize ≤ n * blockSize := Nat.mul_le_mul_right blockSize hk
  have hexpand : (k + 1) * blockSize = k * blockSize + blockSize := Nat.succ_mul k blockSize
  have hheads := head_block_markedPackage (k := k) hsize
    (show k * blockSize < size by omega)
  rw [heq, head_block_markedPackage hsize hn, if_neg (by omega), if_pos (by omega)] at hheads
  cases hheads

theorem distinguished_of_answered {size : Nat} (hsize : size < 2 ^ 63) {request : Request}
    (h : Answered size request) : Distinguished size request.block := by
  rcases Nat.lt_or_ge request.block (2 ^ 15) with hlt | hge
  · exact .inl hlt
  right
  obtain ⟨pieces, -, hanswer⟩ :=
    h.oneRequest (markedPackage size (request.block % 2 ^ 16) hsize) (size_markedPackage _ _ _)
  rcases Decidable.em (2 ^ 15 ≤ request.block % 2 ^ 16 ∨
      size ≤ request.block % 2 ^ 16 * blockSize) with hrefused | hserved
  · refine ⟨?_, hrefused⟩
    rw [handleCommand_refused request _ (by rwa [size_markedPackage])] at hanswer
    rcases Nat.lt_or_ge (request.block * blockSize) size with hexists | hpast
    · rw [if_pos hexists] at hanswer
      obtain ⟨c', hround, -⟩ := hanswer
      cases hround
    · exact hpast
  · rw [not_or, Nat.not_le, Nat.not_le] at hserved
    exfalso
    -- the host sends the block that has the same offset modulo `2 ^ 32`
    rw [handleCommand_block request _ hserved.1 (by rw [size_markedPackage]; exact hserved.2),
      writeBlock_done (accepts_blockSize _ (length_block_le _ _))] at hanswer
    split at hanswer
    · rename_i hexists
      obtain ⟨c', hround, hsent⟩ := hanswer
      obtain rfl := Round.served.inj hround
      dsimp only at hsent
      rw [sent_oneRequest, List.nil_append] at hsent
      exact block_markedPackage_ne hsize (by omega) hexists hsent
    · obtain ⟨ending, c', hround, -⟩ := hanswer
      cases hround

theorem sideloadRound_done (package : Package) {rest : Bytes}
    (h : Fragments c.incoming (ascii "DONEDONE" ++ rest)) :
    ∃ pieces, sideloadRound package c = .ended .done { c with incoming := pieces } := by
  obtain ⟨pieces, hread, -⟩ := yields_readFdExactly (ascii "DONEDONE") _ _ h
  refine ⟨pieces, ?_⟩
  rw [sideloadRound, show (8 : Nat) = (ascii "DONEDONE").length from rfl, hread]
  rfl

/-- A whole session: blocks that exist are asked for in any order and as often
as the device likes. -/
theorem adbSideloadHost_serves {requests : List Request} {rest : Bytes}
    (hincoming : Fragments c.incoming
      (requests.flatMap Request.digits ++ (ascii "DONEDONE" ++ rest)))
    (hblocks : ∀ request ∈ requests,
      request.block < 2 ^ 15 ∧ request.block * blockSize < package.size)
    (hwrites : (writeEach (fun script (request : Request) =>
      writeFdExactly script (package.block request.block)) c.script requests).status = .done) :
    ∃ c', adbSideloadHost package (requests.length + 1) c = some (.done, c') ∧
      c'.sent = c.sent ++ requests.flatMap fun request => package.block request.block := by
  induction requests generalizing c with
  | nil =>
      obtain ⟨pieces, hround⟩ := sideloadRound_done package hincoming
      refine ⟨{ c with incoming := pieces }, ?_, (List.append_nil _).symm⟩
      rw [List.length_nil, adbSideloadHost, hround]
  | cons request requests ih =>
      rw [List.flatMap_cons, List.append_assoc] at hincoming
      obtain ⟨hlt, hexists⟩ := hblocks request List.mem_cons_self
      rw [writeEach] at hwrites
      dsimp only at hwrites
      split at hwrites
      · rename_i hwritten
        obtain ⟨pieces, hpieces, hround⟩ := sideloadRound_block hincoming hlt hexists hwritten
        have hrest : ∀ request ∈ requests,
            request.block < 2 ^ 15 ∧ request.block * blockSize < package.size :=
          fun other hother => hblocks other (List.mem_cons_of_mem _ hother)
        obtain ⟨c', hrun, hsent⟩ := ih (c := ⟨pieces, _, _⟩) hpieces hrest hwrites
        refine ⟨c', ?_, ?_⟩
        · rw [List.length_cons, adbSideloadHost, hround]
          exact hrun
        · rw [hsent, List.flatMap_cons, List.append_assoc]
      · rename_i hnot
        exact absurd hwrites hnot

end

/-- The requests that are answered as they should be, by the number of the block
and the size of the package. -/
theorem sideload_answered_iff (size : Nat) (hsize : size < 2 ^ 63) (request : Request) :
    Answered size request ↔ Distinguished size request.block := by
  constructor
  · exact distinguished_of_answered hsize
  · exact answered_of_distinguished

theorem decimal_of_all {digits : Bytes}
    (h : digits.all (fun b => 48 ≤ b.toNat && b.toNat ≤ 57) = true) :
    ∀ b ∈ digits, 48 ≤ b.toNat ∧ b.toNat ≤ 57 := by
  intro b hb
  simpa using List.all_eq_true.mp h b hb

/-- The request for block 23. -/
def blockTwentyThree : Request where
  digits := ascii "00000023"
  length_digits := rfl
  decimal := decimal_of_all (by decide)

theorem sideload_answers_blockTwentyThree :
    2000000 < 2 ^ 63 ∧ Answered 2000000 blockTwentyThree := by
  refine ⟨by decide, ?_⟩
  exact (sideload_answered_iff 2000000 (by decide) blockTwentyThree).mpr (.inl (by decide))

/-- The request for block 65536, the first one whose offset is taken for `0`. -/
def wrappingRequest : Request where
  digits := ascii "00065536"
  length_digits := rfl
  decimal := decimal_of_all (by decide)

/-- For a block far behind the end of a package of three bytes, the host sends
the three bytes. -/
theorem sideload_sends_another_block :
    (∃ c', sideloadRound ⟨[1, 2, 3], by decide⟩ (oneRequest wrappingRequest) = .served c' ∧
      c'.sent = [1, 2, 3]) ∧ ¬ Answered 3 wrappingRequest := by
  have hnot : ¬ Distinguished 3 wrappingRequest.block := by decide
  exact ⟨⟨_, rfl, rfl⟩, fun h => hnot (distinguished_of_answered (by decide) h)⟩

end Adb.SideloadBlocks
