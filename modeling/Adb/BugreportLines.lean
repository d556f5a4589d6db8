import Adb.LineStreams
import Adb.Numerals
import Adb.WirePackets

/-!
The lines that `bugreportz` writes, as the callback of `adb bugreport` processes
them: when its arithmetic is defined, and what it shows of the progress.
-/

namespace Adb.BugreportLines

open Adb.DescriptorIo
open Adb.LineStreams
open Adb.Numerals
open Adb.WirePackets

def beginPrefix : Bytes := ascii "BEGIN:"

def progressPrefix : Bytes := ascii "PROGRESS:"

def progressSeparator : Bytes := ascii "/"

def okPrefix : Bytes := ascii "OK:"

def failPrefix : Bytes := ascii "FAIL:"

/-- What can go wrong in `ProcessLine`: the exceptions of `std::stoi` and `substr`, a
division by zero and an `int` that overflows. -/
inductive Failure where
  | invalidArgument
  | outOfRange
  | divideByZero
  | overflow
  deriving DecidableEq, Repr

def IsInt (i : Int) : Prop := -2 ^ 31 ≤ i ∧ i < 2 ^ 31

instance (i : Int) : Decidable (IsInt i) := inferInstanceAs (Decidable (_ ∧ _))

def checked (i : Int) : Except Failure Int := if IsInt i then .ok i else .error .overflow

/-- The number that `strtol` finds at the start of a text, if there is one. -/
def leadingInt (text : Bytes) : Option Int :=
  let signed := text.dropWhile isSpace
  let digits := afterSign signed
  if (digits.head?.bind (digitValue 10)).isSome then
    let value : Int := digitsValue 10 0 digits
    some (if signed.head? = some 45 then -value else value)
  else none

def stoi (text : Bytes) : Except Failure Int :=
  match leadingInt text with
  | some i => if IsInt i then .ok i else .error .outOfRange
  | none => .error .invalidArgument

/-- `rfind`, without a position for `npos`. -/
def rfind (text pattern : Bytes) : Option Nat :=
  (List.range (text.length + 1)).reverse.find? fun i => pattern.isPrefixOf (text.drop i)

/-- `substr`; no length means more than any string holds. -/
def substr (text : Bytes) (pos : Nat) (length : Option Nat) : Except Failure Bytes :=
  if text.length < pos then .error .outOfRange
  else
    match length with
    | some n => .ok ((text.drop pos).take n)
    | none => .ok (text.drop pos)

/-- The `progress_percentage` of a line.  `npos + 1` is zero, and `idx2 - idx1` wraps to a
very large number when the separator is not behind the prefix. -/
def progressPercentage (line : Bytes) : Except Failure Int := do
  let idx1 := ((rfind line progressPrefix).getD 0) + progressPrefix.length
  let idx2 := rfind line progressSeparator
  let progressText ← substr line idx1 (idx2.bind fun j => if idx1 ≤ j then some (j - idx1) else none)
  let progress ← stoi progressText
  let totalText ← substr line (match idx2 with
    | some j => j + 1
    | none => 0) none
  let total ← stoi totalText
  let product ← checked (progress * 100)
  if total = 0 then throw .divideByZero
  checked (product.tdiv total)

/-- The functions around the callback: `Basename`, `DoSyncPull` and the separator of
paths on the host. -/
structure Host where
  basename : Bytes → Bytes
  doSyncPull : Bytes → Bytes → Bytes → Bool
  separator : UInt8

/-- `BugreportStandardStreamsCallback`, without `line_`, and the calls of `UpdateProgress`. -/
structure Callback where
  srcFile : Bytes
  destDir : Bytes
  destFile : Bytes
  lineMessage : Bytes
  invalidLines : List Bytes
  showProgress : Bool
  status : Int
  lastProgressPercentage : Int
  updates : List (Bytes × Int)
  deriving DecidableEq, Repr

def setLineMessage (host : Host) (cb : Callback) (action : Bytes) : Callback :=
  { cb with lineMessage := action ++ ascii " " ++ host.basename cb.destFile }

def Callback.make (host : Host) (destDir destFile : Bytes) (showProgress : Bool) : Callback :=
  setLineMessage host ⟨[], destDir, destFile, [], [], showProgress, 0, 0, []⟩ (ascii "generating")

def setSrcFile (host : Host) (cb : Callback) (path : Bytes) : Callback :=
  let cb := { cb with srcFile := path }
  if cb.destDir.isEmpty then cb
  else setLineMessage host { cb with destFile := host.basename path } (ascii "generating")

def processLine (host : Host) (cb : Callback) (line : Bytes) : Except Failure Callback :=
  if line.isEmpty then .ok cb
  else if beginPrefix.isPrefixOf line then
    .ok (setSrcFile host cb (cString (line.drop beginPrefix.length)))
  else if okPrefix.isPrefixOf line then
    .ok (setSrcFile host cb (cString (line.drop okPrefix.length)))
  else if failPrefix.isPrefixOf line then .ok { cb with status := -1 }
  else if cb.showProgress && progressPrefix.isPrefixOf line then do
    let percentage ← progressPercentage line
    if percentage ≠ 0 ∧ percentage ≤ cb.lastProgressPercentage then return cb
    return { cb with
      lastProgressPercentage := percentage
      updates := cb.updates ++ [(cb.lineMessage, percentage)] }
  else .ok { cb with invalidLines := cb.invalidLines ++ [line] }

/-- `OnStdout`, on the callback and its `line_`. -/
def onStdout (host : Host) (st : Callback × Bytes) (buffer : Bytes) :
    Except Failure (Callback × Bytes) :=
  feed 10 (processLine host) st buffer

/-- What `Done` does after the last line was processed. -/
def finish (host : Host) (cb : Callback) : Int × Callback :=
  if cb.status = 0 then
    if cb.srcFile.isEmpty then (-1, cb)
    else
      let destination :=
        if cb.destDir.isEmpty then cb.destFile else cb.destDir ++ [host.separator] ++ cb.destFile
      let cb := setLineMessage host cb (ascii "pulling")
      let status := if host.doSyncPull cb.srcFile destination cb.lineMessage then 0 else 1
      (status, { cb with status := status })
  else (cb.status, cb)

def done (host : Host) (st : Callback × Bytes) : Except Failure (Int × Callback) := do
  let cb ← processLine host st.1 st.2
  return finish host cb

/-- The output of `bugreportz`, in the pieces of the calls of `OnStdout`. -/
def report (host : Host) (cb : Callback) (chunks : List Bytes) :
    Except Failure (Int × Callback) := do
  let st ← chunks.foldlM (onStdout host) (cb, [])
  done host st

/-- What follows the last occurrence of a pattern. -/
def afterLast (pattern text : Bytes) : Option Bytes :=
  (rfind text pattern).map fun i => text.drop (i + pattern.length)

/-- The number behind the last `PROGRESS:` of a line and the number behind its last `/`. -/
def numbers (line : Bytes) : Option (Int × Int) := do
  let progress ← (afterLast progressPrefix line).bind leadingInt
  let total ← (afterLast progressSeparator line).bind leadingInt
  return (progress, total)

/-- A line with a progress and a total that is not zero, in the range of the arithmetic. -/
def Calculable (line : Bytes) : Prop :=
  ∃ progress total, numbers line = some (progress, total) ∧ IsInt (progress * 100) ∧
    IsInt total ∧ total ≠ 0

section

variable {line text front : Bytes} {i : Int}

theorem bind_eq_ok {ε α β : Type} {x : Except ε α} {next : α → Except ε β} {b : β} :
    (x >>= next) = .ok b ↔ ∃ a, x = .ok a ∧ next a = .ok b := by
  cases x with
  | error e => simp [bind, Except.bind]
  | ok a => simp [bind, Except.bind]

theorem stoi_eq_ok_iff : stoi text = .ok i ↔ leadingInt text = some i ∧ IsInt i := by
  rw [stoi]
  cases leadingInt text with
  | none => simp
  | some j =>
      dsimp only
      rw [Option.some_inj]
      split
      · next hj =>
          rw [Except.ok.injEq]
          exact ⟨fun h => ⟨h, h ▸ hj⟩, And.left⟩
      · next hj =>
          refine iff_of_false (by simp) ?_
          rintro ⟨rfl, hi⟩
          exact hj hi

theorem checked_eq_ok_iff {j : Int} : checked i = .ok j ↔ IsInt i ∧ i = j := by
  rw [checked]
  split
  · next hi => simp [hi]
  · next hi => simp [hi]

theorem digitsValue_append_slash (acc : Nat) (digits rest : Bytes) :
    digitsValue 10 acc (digits ++ 47 :: rest) = digitsValue 10 acc digits := by
  induction digits generalizing acc with
  | nil => rfl
  | cons b digits ih =>
      rw [List.cons_append, digitsValue, digitsValue]
      cases digitValue 10 b with
      | none => rfl
      | some d => exact ih _

theorem afterSign_cons (b : UInt8) (text : Bytes) :
    afterSign (b :: text) = if b = 45 ∨ b = 43 then text else b :: text := by
  unfold afterSign
  split <;> simp_all

theorem leadingInt_append_slash (text rest : Bytes) :
    leadingInt (text ++ 47 :: rest) = leadingInt text := by
  have hspace : (text ++ 47 :: rest).dropWhile isSpace = text.dropWhile isSpace ++ 47 :: rest := by
    induction text with
    | nil => rfl
    | cons b text ih =>
        rw [List.cons_append, List.dropWhile_cons, List.dropWhile_cons]
        split
        · exact ih
        · rfl
  rw [leadingInt, leadingInt, hspace]
  generalize text.dropWhile isSpace = signed
  cases signed with
  | nil => rfl
  | cons b signed =>
      have hsign : afterSign (b :: signed ++ 47 :: rest) = afterSign (b :: signed) ++ 47 :: rest := by
        rw [List.cons_append, afterSign_cons, afterSign_cons]
        split
        · rfl
        · rfl
      rw [hsign, digitsValue_append_slash]
      cases afterSign (b :: signed) with
      | nil => rfl
      | cons c digits => rfl

theorem drop_of_rfind {pattern : Bytes} {n : Nat} (h : rfind text pattern = some n) :
    ∃ rest, text.drop n = pattern ++ rest := by
  rw [rfind] at h
  have hfound := List.find?_some h
  exact (List.isPrefixOf_iff_prefix.mp hfound).imp fun _ => Eq.symm

theorem exists_rfind {pattern : Bytes} (h : pattern.isPrefixOf text = true) :
    ∃ n, rfind text pattern = some n := by
  rw [← Option.isSome_iff_exists, rfind, List.find?_isSome]
  exact ⟨0, by simp, h⟩

theorem progressText_eq (h : progressPrefix.isPrefixOf line = true) :
    ∃ text, substr line ((rfind line progressPrefix).getD 0 + progressPrefix.length)
        ((rfind line progressSeparator).bind fun j =>
          if (rfind line progressPrefix).getD 0 + progressPrefix.length ≤ j then
            some (j - ((rfind line progressPrefix).getD 0 + progressPrefix.length))
          else none) = .ok text ∧
      leadingInt text = (afterLast progressPrefix line).bind leadingInt := by
  obtain ⟨n, hn⟩ := exists_rfind h
  obtain ⟨rest, hrest⟩ := drop_of_rfind hn
  rw [afterLast, hn, Option.getD_some, Option.map_some, Option.bind_some]
  generalize hidx : n + progressPrefix.length = idx
  have hlength : ¬ line.length < idx := by
    have hlen := congrArg List.length hrest
    rw [List.length_drop, List.length_append] at hlen
    have hstart : progressPrefix.length = 9 := rfl
    omega
  have hsubstr : ∀ length, substr line idx length = .ok (match length with
      | some n => (line.drop idx).take n
      | none => line.drop idx) := by
    intro length
    unfold substr
    rw [if_neg hlength]
    cases length with
    | none => rfl
    | some n => rfl
  rw [hsubstr]
  refine ⟨_, rfl, ?_⟩
  cases hj : rfind line progressSeparator with
  | none => rfl
  | some j =>
      rw [Option.bind_some]
      by_cases hle : idx ≤ j
      · obtain ⟨later, hlater⟩ := drop_of_rfind hj
        have hdrop : (line.drop idx).drop (j - idx) = 47 :: later := by
          rw [List.drop_drop, Nat.add_sub_cancel' hle]
          exact hlater
        have hsplit : line.drop idx = (line.drop idx).take (j - idx) ++ 47 :: later := by
          rw [← hdrop, List.take_append_drop]
        rw [if_pos hle]
        conv_rhs => rw [hsplit, leadingInt_append_slash]
      · rw [if_neg hle]

theorem leadingInt_of_progress (h : progressPrefix.isPrefixOf line = true) :
    leadingInt line = none := by
  obtain ⟨rest, rfl⟩ := List.isPrefixOf_iff_prefix.mp h
  rfl

theorem totalText_eq (h : progressPrefix.isPrefixOf line = true) :
    ∃ text, substr line (match rfind line progressSeparator with
        | some j => j + 1
        | none => 0) none = .ok text ∧
      leadingInt text = (afterLast progressSeparator line).bind leadingInt := by
  rw [afterLast]
  cases hj : rfind line progressSeparator with
  | none =>
      refine ⟨line, ?_, leadingInt_of_progress h⟩
      rw [substr, if_neg (Nat.not_lt_zero _), List.drop_zero]
  | some j =>
      obtain ⟨later, hlater⟩ := drop_of_rfind hj
      have hlength : ¬ line.length < j + 1 := by
        have hlen := congrArg List.length hlater
        rw [List.length_drop, List.length_append] at hlen
        have hseparator : progressSeparator.length = 1 := rfl
        omega
      refine ⟨line.drop (j + 1), ?_, rfl⟩
      rw [substr, if_neg hlength]

theorem isInt_tdiv (h : IsInt (i * 100)) (j : Int) : IsInt ((i * 100).tdiv j) := by
  have hle := Int.natAbs_tdiv_le_natAbs (i * 100) j
  rw [IsInt] at h ⊢
  -- The least int is no multiple of 100.
  omega

theorem progressPercentage_eq_ok_iff (h : progressPrefix.isPrefixOf line = true) :
    progressPercentage line = .ok i ↔
      ∃ progress total, numbers line = some (progress, total) ∧ IsInt (progress * 100) ∧
        IsInt total ∧ total ≠ 0 ∧ (progress * 100).tdiv total = i := by
  obtain ⟨progressText, hprogress, hprogressInt⟩ := progressText_eq h
  obtain ⟨totalText, htotal, htotalInt⟩ := totalText_eq h
  rw [progressPercentage]
  dsimp only
  rw [hprogress, htotal, numbers, ← hprogressInt, ← htotalInt]
  constructor
  · intro hok
    obtain ⟨_, htext, hok⟩ := bind_eq_ok.mp hok
    cases htext
    obtain ⟨progress, hp, hok⟩ := bind_eq_ok.mp hok
    obtain ⟨_, htext, hok⟩ := bind_eq_ok.mp hok
    cases htext
    obtain ⟨total, ht, hok⟩ := bind_eq_ok.mp hok
    obtain ⟨product, hproduct, hok⟩ := bind_eq_ok.mp hok
    rw [stoi_eq_ok_iff] at hp ht
    obtain ⟨hrange, rfl⟩ := checked_eq_ok_iff.mp hproduct
    refine ⟨progress, total, ?_, hrange, ht.2, ?_⟩
    · rw [hp.1, ht.1]
      rfl
    · split at hok
      · cases hok
      · next hzero => exact ⟨hzero, (checked_eq_ok_iff.mp hok).2⟩
  · rintro ⟨progress, total, hnumbers, hrange, ht, hzero, rfl⟩
    have hp : IsInt progress := by
      rw [IsInt] at hrange ⊢
      omega
    cases hleft : leadingInt progressText with
    | none =>
        rw [hleft] at hnumbers
        cases hnumbers
    | some left =>
        cases hright : leadingInt totalText with
        | none =>
            rw [hleft, hright] at hnumbers
            cases hnumbers
        | some right =>
            rw [hleft, hright] at hnumbers
            cases hnumbers
            refine bind_eq_ok.mpr ⟨progressText, rfl, ?_⟩
            refine bind_eq_ok.mpr ⟨progress, stoi_eq_ok_iff.mpr ⟨hleft, hp⟩, ?_⟩
            refine bind_eq_ok.mpr ⟨totalText, rfl, ?_⟩
            refine bind_eq_ok.mpr ⟨total, stoi_eq_ok_iff.mpr ⟨hright, ht⟩, ?_⟩
            refine bind_eq_ok.mpr ⟨progress * 100, checked_eq_ok_iff.mpr ⟨hrange, rfl⟩, ?_⟩
            rw [if_neg hzero]
            exact checked_eq_ok_iff.mpr ⟨isInt_tdiv hrange total, rfl⟩

end

section

variable {host : Host} {cb : Callback} {line : Bytes}

theorem processLine_progress (hshow : cb.showProgress = true)
    (h : progressPrefix.isPrefixOf line = true) :
    processLine host cb line = progressPercentage line >>= fun percentage =>
      if percentage ≠ 0 ∧ percentage ≤ cb.lastProgressPercentage then pure cb
      else pure { cb with
        lastProgressPercentage := percentage
        updates := cb.updates ++ [(cb.lineMessage, percentage)] } := by
  obtain ⟨rest, rfl⟩ := List.isPrefixOf_iff_prefix.mp h
  rw [processLine, hshow, h]
  rfl

theorem processLine_other (host : Host) (cb : Callback)
    (h : (cb.showProgress && progressPrefix.isPrefixOf line) = false) :
    ∃ cb', processLine host cb line = .ok cb' ∧ cb'.showProgress = cb.showProgress ∧
      cb'.lastProgressPercentage = cb.lastProgressPercentage ∧ cb'.updates = cb.updates := by
  have hsource : ∀ path, (setSrcFile host cb path).showProgress = cb.showProgress ∧
      (setSrcFile host cb path).lastProgressPercentage = cb.lastProgressPercentage ∧
      (setSrcFile host cb path).updates = cb.updates := by
    intro path
    rw [setSrcFile]
    dsimp only
    split
    · exact ⟨rfl, rfl, rfl⟩
    · exact ⟨rfl, rfl, rfl⟩
  rw [processLine, h]
  split
  · exact ⟨cb, rfl, rfl, rfl, rfl⟩
  split
  · exact ⟨_, rfl, hsource _⟩
  split
  · exact ⟨_, rfl, hsource _⟩
  split
  · exact ⟨_, rfl, rfl, rfl, rfl⟩
  · exact ⟨_, rfl, rfl, rfl, rfl⟩

theorem report_eq (host : Host) (cb : Callback) (chunks : List Bytes) :
    report host cb chunks = do
      let cb' ← (chunks.flatten.splitOn 10).foldlM (processLine host) cb
      return finish host cb' := by
  have hlines : feedAll 10 (processLine host) (cb, []) chunks =
      ([] ++ chunks.flatten |>.splitOn 10).foldlM (processLine host) cb :=
    feedAll_eq cb [] List.not_mem_nil chunks
  rw [List.nil_append] at hlines
  rw [← hlines, report, feedAll, bind_assoc]
  rfl

theorem processLine_ok_iff (host : Host) (hshow : cb.showProgress = true) (line : Bytes) :
    (∃ cb', processLine host cb line = .ok cb') ↔
      (progressPrefix.isPrefixOf line = true → Calculable line) := by
  cases h : progressPrefix.isPrefixOf line with
  | false =>
      obtain ⟨cb', hok, -⟩ := processLine_other host cb (by rw [h, Bool.and_false])
      exact iff_of_true ⟨cb', hok⟩ (by simp)
  | true =>
      rw [processLine_progress hshow h]
      constructor
      · rintro ⟨cb', hok⟩ -
        obtain ⟨percentage, hpercentage, -⟩ := bind_eq_ok.mp hok
        obtain ⟨progress, total, hnumbers, hrange, ht, hzero, -⟩ :=
          (progressPercentage_eq_ok_iff h).mp hpercentage
        exact ⟨progress, total, hnumbers, hrange, ht, hzero⟩
      · intro hline
        obtain ⟨progress, total, hnumbers, hrange, ht, hzero⟩ := hline rfl
        have hpercentage := (progressPercentage_eq_ok_iff h).mpr
          ⟨progress, total, hnumbers, hrange, ht, hzero, rfl⟩
        rw [hpercentage]
        exact ⟨_, (apply_ite Except.ok _ _ _).symm⟩

theorem showProgress_processLine {cb' : Callback} (hshow : cb.showProgress = true)
    (h : processLine host cb line = .ok cb') : cb'.showProgress = true := by
  cases hstart : progressPrefix.isPrefixOf line with
  | false =>
      obtain ⟨_, hok, hsame, -⟩ := processLine_other host cb (by rw [hstart, Bool.and_false])
      rw [h] at hok
      cases hok
      rw [hsame, hshow]
  | true =>
      rw [processLine_progress hshow hstart] at h
      obtain ⟨percentage, -, h⟩ := bind_eq_ok.mp h
      split at h
      · cases h
        exact hshow
      · cases h
        exact hshow

theorem foldlM_processLine_ok_iff (host : Host) (cb : Callback) (hshow : cb.showProgress = true)
    (lines : List Bytes) :
    (∃ cb', lines.foldlM (processLine host) cb = .ok cb') ↔
      ∀ line ∈ lines, progressPrefix.isPrefixOf line = true → Calculable line := by
  induction lines generalizing cb with
  | nil => exact iff_of_true ⟨cb, rfl⟩ (by simp)
  | cons line lines ih =>
      rw [List.forall_mem_cons, ← processLine_ok_iff host hshow line, List.foldlM_cons]
      constructor
      · rintro ⟨cb', hok⟩
        obtain ⟨next, hnext, hok⟩ := bind_eq_ok.mp hok
        exact ⟨⟨next, hnext⟩, (ih next (showProgress_processLine hshow hnext)).mp ⟨cb', hok⟩⟩
      · rintro ⟨⟨next, hnext⟩, hlines⟩
        obtain ⟨cb', hok⟩ := (ih next (showProgress_processLine hshow hnext)).mpr hlines
        exact ⟨cb', bind_eq_ok.mpr ⟨next, hnext, hok⟩⟩

end

/-- The lines of a bug report are processed without an exception, a division by zero or an
overflow exactly when the `PROGRESS:` lines among them are calculable. -/
theorem processing_safe_iff (host : Host) (destDir destFile : Bytes) (chunks : List Bytes) :
    (∃ result, report host (.make host destDir destFile true) chunks = .ok result) ↔
      ∀ line ∈ chunks.flatten.splitOn 10, progressPrefix.isPrefixOf line = true →
        Calculable line := by
  rw [← foldlM_processLine_ok_iff host (.make host destDir destFile true) rfl, report_eq]
  constructor
  · rintro ⟨result, hok⟩
    obtain ⟨cb, hcb, -⟩ := bind_eq_ok.mp hok
    exact ⟨cb, hcb⟩
  · rintro ⟨cb, hcb⟩
    exact ⟨_, bind_eq_ok.mpr ⟨cb, hcb, rfl⟩⟩

/-- No directory is looked up and no file is pulled. -/
def plainHost : Host := ⟨id, fun _ _ _ => false, 47⟩

theorem zero_total_divides : ¬ ∀ (host : Host) (destDir destFile : Bytes) (chunks : List Bytes),
    ∃ result, report host (.make host destDir destFile true) chunks = .ok result := by
  intro h
  obtain ⟨result, hok⟩ := h plainHost [] (ascii "a") [ascii "PROGRESS:1/0\n"]
  have herror : report plainHost (.make plainHost [] (ascii "a") true) [ascii "PROGRESS:1/0\n"] =
      .error .divideByZero := rfl
  rw [herror] at hok
  cases hok

/-- A line with a progress that is not negative and a positive total. -/
def WellFormed (line : Bytes) : Prop :=
  ∃ progress total, numbers line = some (progress, total) ∧ 0 ≤ progress ∧ 0 < total ∧
    IsInt (progress * 100) ∧ IsInt total

/-- At least one percent. -/
def Advanced (line : Bytes) : Prop :=
  progressPrefix.isPrefixOf line = true ∧
    ∃ progress total, numbers line = some (progress, total) ∧ total ≤ progress * 100

/-- Less than one percent. -/
def Unstarted (line : Bytes) : Prop :=
  progressPrefix.isPrefixOf line = true ∧
    ∃ progress total, numbers line = some (progress, total) ∧ progress * 100 < total

def percentage (line : Bytes) : Option Int :=
  if progressPrefix.isPrefixOf line then
    (numbers line).map fun (progress, total) => (progress * 100).tdiv total
  else none

/-- Which percentages are shown after the last one. -/
def forward : Int → List Int → List Int
  | _, [] => []
  | last, p :: ps => if p ≠ 0 ∧ p ≤ last then forward last ps else p :: forward p ps

section

variable {last : Int} {ps : List Int} {line : Bytes}

theorem pairwise_le_cons_cons {a b : Int} {l : List Int} :
    (a :: b :: l).Pairwise (· ≤ ·) ↔ a ≤ b ∧ (b :: l).Pairwise (· ≤ ·) := by
  rw [← List.isChain_iff_pairwise, ← List.isChain_iff_pairwise, List.isChain_cons_cons]

theorem forward_sublist (last : Int) (ps : List Int) : (forward last ps).Sublist ps := by
  induction ps generalizing last with
  | nil => exact .slnil
  | cons p ps ih =>
      rw [forward]
      split
      · exact (ih last).cons p
      · exact (ih p).cons_cons p

theorem pairwise_forward (hlast : 0 ≤ last) (hps : ∀ p ∈ ps, 0 ≤ p) :
    (last :: forward last ps).Pairwise (· ≤ ·) ↔ (last :: ps).Pairwise fun a b => 0 < a → b ≠ 0 := by
  induction ps generalizing last with
  | nil => exact iff_of_true (List.pairwise_singleton _ _) (List.pairwise_singleton _ _)
  | cons p ps ih =>
      obtain ⟨hp, hps⟩ := List.forall_mem_cons.mp hps
      rw [forward]
      split
      · next hskip =>
          -- A percentage that is left out is positive, and so is the last one.
          have hpositive : 0 < p := Int.lt_iff_le_and_ne.mpr ⟨hp, hskip.1.symm⟩
          have hlast' : 0 < last := Int.lt_of_lt_of_le hpositive hskip.2
          rw [ih hlast hps, List.pairwise_cons, List.pairwise_cons, List.pairwise_cons,
            List.forall_mem_cons]
          constructor
          · rintro ⟨hrel, hrest⟩
            exact ⟨⟨fun _ => hskip.1, hrel⟩, fun b hb _ => hrel b hb hlast', hrest⟩
          · rintro ⟨⟨-, hrel⟩, -, hrest⟩
            exact ⟨hrel, hrest⟩
      · next hshown =>
          rw [pairwise_le_cons_cons, ih hp hps, List.pairwise_cons (a := last), List.forall_mem_cons]
          constructor
          · rintro ⟨hle, hrest⟩
            refine ⟨⟨fun h => by omega, fun b hb h => ?_⟩, hrest⟩
            exact (List.pairwise_cons.mp hrest).1 b hb (Int.lt_of_lt_of_le h hle)
          · rintro ⟨⟨hzero, -⟩, hrest⟩
            exact ⟨by omega, hrest⟩

theorem percentage_of_numbers (h : progressPrefix.isPrefixOf line = true) {progress total : Int}
    (hnumbers : numbers line = some (progress, total)) :
    percentage line = some ((progress * 100).tdiv total) := by
  rw [percentage, if_pos h, hnumbers]
  rfl

theorem tdiv_pos_iff {progress total : Int} (hprogress : 0 ≤ progress) (htotal : 0 < total) :
    0 < (progress * 100).tdiv total ↔ total ≤ progress * 100 := by
  have hproduct : 0 ≤ progress * 100 := by omega
  rw [Int.tdiv_eq_ediv_of_nonneg hproduct, Int.lt_iff_add_one_le, Int.le_ediv_iff_mul_le htotal]
  omega

theorem percentage_nonneg (hwf : progressPrefix.isPrefixOf line = true → WellFormed line) {p : Int}
    (hp : percentage line = some p) : 0 ≤ p := by
  cases h : progressPrefix.isPrefixOf line with
  | false => simp [percentage, h] at hp
  | true =>
      obtain ⟨progress, total, hnumbers, hprogress, htotal, -⟩ := hwf h
      rw [percentage_of_numbers h hnumbers] at hp
      cases hp
      exact Int.tdiv_nonneg (by omega) (Int.le_of_lt htotal)

theorem advanced_iff (hwf : progressPrefix.isPrefixOf line = true → WellFormed line) :
    Advanced line ↔ ∃ p, percentage line = some p ∧ 0 < p := by
  cases h : progressPrefix.isPrefixOf line with
  | false => simp [Advanced, percentage, h]
  | true =>
      obtain ⟨progress, total, hnumbers, hprogress, htotal, -⟩ := hwf h
      simp [Advanced, percentage, h, hnumbers, tdiv_pos_iff hprogress htotal]

theorem unstarted_iff (hwf : progressPrefix.isPrefixOf line = true → WellFormed line) :
    Unstarted line ↔ percentage line = some 0 := by
  cases h : progressPrefix.isPrefixOf line with
  | false => simp [Unstarted, percentage, h]
  | true =>
      obtain ⟨progress, total, hnumbers, hprogress, htotal, -⟩ := hwf h
      have hpos := tdiv_pos_iff hprogress htotal
      have hnonneg : 0 ≤ (progress * 100).tdiv total := Int.tdiv_nonneg (by omega) (Int.le_of_lt htotal)
      rw [percentage_of_numbers h hnumbers, Option.some_inj]
      simp only [Unstarted, h, hnumbers, true_and, Option.some_inj, Prod.mk.injEq]
      constructor
      · rintro ⟨_, _, ⟨rfl, rfl⟩, hlt⟩
        omega
      · intro hzero
        exact ⟨progress, total, ⟨rfl, rfl⟩, by omega⟩

end

section

theorem processLine_wellFormed (host : Host) {cb : Callback} (hshow : cb.showProgress = true)
    {line : Bytes} (h : progressPrefix.isPrefixOf line = true) (hwf : WellFormed line) :
    ∃ p, percentage line = some p ∧ processLine host cb line = .ok
      (if p ≠ 0 ∧ p ≤ cb.lastProgressPercentage then cb
        else { cb with
          lastProgressPercentage := p
          updates := cb.updates ++ [(cb.lineMessage, p)] }) := by
  obtain ⟨progress, total, hnumbers, hprogress, htotal, hrange, ht⟩ := hwf
  refine ⟨_, percentage_of_numbers h hnumbers, ?_⟩
  have hok := (progressPercentage_eq_ok_iff h).mpr
    ⟨progress, total, hnumbers, hrange, ht, Int.ne_of_gt htotal, rfl⟩
  rw [processLine_progress hshow h, hok]
  exact (apply_ite Except.ok _ _ _).symm

theorem foldlM_processLine_forward (host : Host) (cb : Callback) (hshow : cb.showProgress = true)
    (lines : List Bytes)
    (hwf : ∀ line ∈ lines, progressPrefix.isPrefixOf line = true → WellFormed line) :
    ∃ cb', lines.foldlM (processLine host) cb = .ok cb' ∧
      cb'.updates.map Prod.snd = cb.updates.map Prod.snd ++
        forward cb.lastProgressPercentage (lines.filterMap percentage) := by
  induction lines generalizing cb with
  | nil => exact ⟨cb, rfl, (List.append_nil _).symm⟩
  | cons line lines ih =>
      obtain ⟨hline, hlines⟩ := List.forall_mem_cons.mp hwf
      rw [List.foldlM_cons]
      cases h : progressPrefix.isPrefixOf line with
      | false =>
          obtain ⟨next, hnext, hsame, hlast, hupdates⟩ :=
            processLine_other host cb (by rw [h, Bool.and_false])
          obtain ⟨cb', hok, hforward⟩ := ih next (hsame.trans hshow) hlines
          have hnone : percentage line = none := by rw [percentage, h, if_neg Bool.false_ne_true]
          refine ⟨cb', bind_eq_ok.mpr ⟨next, hnext, hok⟩, ?_⟩
          rw [hforward, hlast, hupdates, List.filterMap_cons_none hnone]
      | true =>
          obtain ⟨p, hp, hnext⟩ := processLine_wellFormed host hshow h (hline h)
          rw [List.filterMap_cons_some hp, forward]
          split at hnext
          · next hskip =>
              obtain ⟨cb', hok, hforward⟩ := ih cb hshow hlines
              refine ⟨cb', bind_eq_ok.mpr ⟨cb, hnext, hok⟩, ?_⟩
              rw [if_pos hskip, hforward]
          · next hshown =>
              obtain ⟨cb', hok, hforward⟩ := ih { cb with
                lastProgressPercentage := p
                updates := cb.updates ++ [(cb.lineMessage, p)] } hshow hlines
              refine ⟨cb', bind_eq_ok.mpr ⟨_, hnext, hok⟩, ?_⟩
              rw [if_neg hshown, hforward, List.map_append, List.append_assoc]
              rfl

theorem foldlM_processLine_hidden (host : Host) (cb : Callback) (hshow : cb.showProgress = false)
    (lines : List Bytes) :
    ∃ cb', lines.foldlM (processLine host) cb = .ok cb' ∧ cb'.updates = cb.updates := by
  induction lines generalizing cb with
  | nil => exact ⟨cb, rfl, rfl⟩
  | cons line lines ih =>
      obtain ⟨next, hnext, hsame, -, hupdates⟩ :=
        processLine_other host cb (by rw [hshow, Bool.false_and])
      obtain ⟨cb', hok, hlines⟩ := ih next (hsame.trans hshow)
      rw [List.foldlM_cons]
      exact ⟨cb', bind_eq_ok.mpr ⟨next, hnext, hok⟩, hlines.trans hupdates⟩

theorem updates_finish (host : Host) (cb : Callback) :
    (finish host cb).2.updates = cb.updates := by
  rw [finish]
  split
  · split
    · rfl
    · rfl
  · rfl

theorem report_of_foldlM {host : Host} {cb cb' : Callback} {chunks : List Bytes}
    (h : (chunks.flatten.splitOn 10).foldlM (processLine host) cb = .ok cb') :
    report host cb chunks = .ok (finish host cb') := by
  rw [report_eq, h]
  rfl

theorem pairwise_forward_zero {ps : List Int} (hps : ∀ p ∈ ps, 0 ≤ p) :
    (forward 0 ps).Pairwise (· ≤ ·) ↔ ps.Pairwise fun a b => 0 < a → b ≠ 0 := by
  have hforward := pairwise_forward (Int.le_refl 0) hps
  have hmem : ∀ p ∈ forward 0 ps, 0 ≤ p := fun p hp => hps p ((forward_sublist 0 ps).subset hp)
  rw [List.pairwise_cons, List.pairwise_cons] at hforward
  have hzero : ∀ p ∈ ps, (0 : Int) < 0 → p ≠ 0 := fun _ _ h => absurd h (Int.lt_irrefl 0)
  exact (and_iff_right hmem).symm.trans (hforward.trans (and_iff_right hzero))

end

/-- The percentages that are shown never decrease, as long as no progress below one percent
comes after one that has reached it. -/
theorem progress_forward_iff (host : Host) (destDir destFile : Bytes) (showProgress : Bool)
    (chunks : List Bytes)
    (hwf : ∀ line ∈ chunks.flatten.splitOn 10, progressPrefix.isPrefixOf line = true →
      WellFormed line) :
    ∃ status cb, report host (.make host destDir destFile showProgress) chunks = .ok (status, cb) ∧
      ((cb.updates.map Prod.snd).Pairwise (· ≤ ·) ↔
        (showProgress = true → (chunks.flatten.splitOn 10).Pairwise fun earlier later =>
          Advanced earlier → ¬ Unstarted later)) := by
  cases showProgress with
  | false =>
      obtain ⟨cb, hok, hupdates⟩ := foldlM_processLine_hidden host
        (.make host destDir destFile false) rfl (chunks.flatten.splitOn 10)
      refine ⟨(finish host cb).1, (finish host cb).2, report_of_foldlM hok, iff_of_true ?_ (by simp)⟩
      rw [updates_finish, hupdates]
      exact List.Pairwise.nil
  | true =>
      obtain ⟨cb, hok, hforward⟩ := foldlM_processLine_forward host
        (.make host destDir destFile true) rfl _ hwf
      have hnonneg : ∀ p ∈ (chunks.flatten.splitOn 10).filterMap percentage, 0 ≤ p := by
        intro p hp
        obtain ⟨line, hline, hp⟩ := List.mem_filterMap.mp hp
        exact percentage_nonneg (hwf line hline) hp
      have hshown : cb.updates.map Prod.snd =
          forward 0 ((chunks.flatten.splitOn 10).filterMap percentage) := hforward
      refine ⟨(finish host cb).1, (finish host cb).2, report_of_foldlM hok, ?_⟩
      rw [updates_finish, hshown, pairwise_forward_zero hnonneg, List.pairwise_filterMap,
        imp_iff_right rfl]
      refine List.Pairwise.iff_of_mem fun {earlier later} hearlier hlater => ?_
      rw [advanced_iff (hwf earlier hearlier), unstarted_iff (hwf later hlater)]
      constructor
      · rintro h ⟨p, hp, hpos⟩ hzero
        exact h p hp 0 hzero hpos rfl
      · rintro h p hp q hq hpos rfl
        exact h ⟨p, hp, hpos⟩ hq

/-- Half of the work is done, and then the total grows so much that nothing seems to be. -/
def fallsBack : List Bytes := [ascii "PROGRESS:50/100\nPROGR", ascii "ESS:50/9000\n"]

theorem fallsBack_wellFormed : ∀ line ∈ fallsBack.flatten.splitOn 10,
    progressPrefix.isPrefixOf line = true → WellFormed line := by
  have hlines : fallsBack.flatten.splitOn 10 =
      [ascii "PROGRESS:50/100", ascii "PROGRESS:50/9000", []] := by decide
  rw [hlines]
  intro line hline
  simp only [List.mem_cons, List.not_mem_nil, or_false] at hline
  rcases hline with rfl | rfl | rfl
  · exact fun _ => ⟨50, 100, by decide, by decide, by decide, by decide, by decide⟩
  · exact fun _ => ⟨50, 9000, by decide, by decide, by decide, by decide, by decide⟩
  · simp [progressPrefix, ascii]

theorem progress_forward_fallsBack : ∃ status cb,
    report plainHost (.make plainHost [] (ascii "a") true) fallsBack = .ok (status, cb) ∧
      ((cb.updates.map Prod.snd).Pairwise (· ≤ ·) ↔
        (true = true → (fallsBack.flatten.splitOn 10).Pairwise fun earlier later =>
          Advanced earlier → ¬ Unstarted later)) :=
  progress_forward_iff plainHost [] (ascii "a") true fallsBack fallsBack_wellFormed

theorem progress_recedes : ¬ ∀ (host : Host) (destDir destFile : Bytes) (showProgress : Bool)
    (chunks : List Bytes),
    (∀ line ∈ chunks.flatten.splitOn 10, progressPrefix.isPrefixOf line = true →
      WellFormed line) →
    ∀ status cb, report host (.make host destDir destFile showProgress) chunks =
      .ok (status, cb) → (cb.updates.map Prod.snd).Pairwise (· ≤ ·) := by
  intro h
  have hshown := h plainHost [] (ascii "a") true fallsBack fallsBack_wellFormed _ _ rfl
  have hupdates : ¬ [(50 : Int), 0].Pairwise (· ≤ ·) := by decide
  exact hupdates hshown

end Adb.BugreportLines
