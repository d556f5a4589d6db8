import Adb.WirePackets
import Mathlib.Data.List.Induction

/-!
`escape_arg` of adb_utils.cpp, and the words that a shell makes of what it
returns.
-/

namespace Adb.ShellQuoting

open Adb.DescriptorIo
open Adb.WirePackets

/-- `result.insert(i, text)`. -/
def insertAt (result : Bytes) (i : Nat) (text : Bytes) : Bytes :=
  result.take i ++ text ++ result.drop i

/-- What is inserted before a quote: a quote, a backslash and a quote. -/
def quoteEscape : Bytes := [39, 92, 39]

/-- The loop of `escape_arg` from the index `i` on. -/
def escapeFrom (s : Bytes) (i : Nat) (result : Bytes) : Bytes :=
  if h : i < s.length then
    if s[i] = 39 then escapeFrom s (i + 2 + 1) (insertAt result i quoteEscape)
    else escapeFrom s (i + 1) result
  else result
  termination_by s.length - i

def escapeArg (s : Bytes) : Bytes := 39 :: escapeFrom s 0 s ++ [39]

/-- The arguments of a command, each of them escaped. -/
def commandLine (args : List Bytes) : Bytes := [32].intercalate (args.map escapeArg)

/-- Where the shell is in its input, and the word it is reading. -/
inductive Mode where
  | unquoted (word : Option Bytes)
  | escaped (word : Option Bytes)
  | quoted (word : Bytes)
  deriving DecidableEq, Repr

/-- A shell that splits its input into words. -/
structure Shell where
  words : List Bytes
  mode : Mode
  deriving DecidableEq, Repr

def isBlank (c : UInt8) : Bool := c = 32 || c = 9 || c = 10

/-- Pieces that follow each other without a blank make one word.  An escaped
newline continues the line. -/
def Shell.step (sh : Shell) (c : UInt8) : Shell :=
  match sh.mode with
  | .quoted word =>
      if c = 39 then { sh with mode := .unquoted (some word) }
      else { sh with mode := .quoted (word ++ [c]) }
  | .escaped word =>
      if c = 10 then { sh with mode := .unquoted word }
      else { sh with mode := .unquoted (some (word.getD [] ++ [c])) }
  | .unquoted word =>
      if c = 39 then { sh with mode := .quoted (word.getD []) }
      else if c = 92 then { sh with mode := .escaped word }
      else if isBlank c then ⟨sh.words ++ word.toList, .unquoted none⟩
      else { sh with mode := .unquoted (some (word.getD [] ++ [c])) }

def Shell.run (sh : Shell) (text : Bytes) : Shell := text.foldl Shell.step sh

/-- The words of a complete input. -/
def Shell.finish (sh : Shell) : Option (List Bytes) :=
  match sh.mode with
  | .unquoted word => some (sh.words ++ word.toList)
  | _ => none

def shellWords (text : Bytes) : Option (List Bytes) :=
  (Shell.run ⟨[], .unquoted none⟩ text).finish

section

variable {s text rest : Bytes} {sh : Shell}

theorem run_append (sh : Shell) (first second : Bytes) :
    sh.run (first ++ second) = (sh.run first).run second :=
  List.foldl_append

theorem run_cons (sh : Shell) (c : UInt8) (text : Bytes) :
    sh.run (c :: text) = (sh.step c).run text := rfl

theorem run_quoted (words : List Bytes) (word : Bytes) (h : 39 ∉ text) :
    Shell.run ⟨words, .quoted word⟩ text = ⟨words, .quoted (word ++ text)⟩ := by
  induction text generalizing word with
  | nil => simp [Shell.run]
  | cons c text ih =>
      rw [List.mem_cons, not_or] at h
      rw [run_cons, Shell.step]
      simp only [if_neg (Ne.symm h.1)]
      rw [ih _ h.2, List.append_assoc]
      rfl

/-- The loop over the bytes that it has not reached yet. -/
def escapeRest (rest : Bytes) (i : Nat) (result : Bytes) : Bytes :=
  match rest with
  | [] => result
  | c :: rest =>
      if c = 39 then escapeRest (rest.drop 2) (i + 3) (insertAt result i quoteEscape)
      else escapeRest rest (i + 1) result
  termination_by rest.length
  decreasing_by
    · simp only [List.length_drop, List.length_cons]
      omega
    · exact Nat.lt_succ_self _

theorem escapeFrom_eq (s : Bytes) (i : Nat) (result : Bytes) :
    escapeFrom s i result = escapeRest (s.drop i) i result := by
  induction i, result using escapeFrom.induct s with
  | case1 i result h hquote ih =>
      rw [escapeFrom, dif_pos h, if_pos hquote, ih, List.drop_eq_getElem_cons h, escapeRest,
        if_pos hquote, List.drop_drop]
  | case2 i result h hquote ih =>
      rw [escapeFrom, dif_pos h, if_neg hquote, ih, List.drop_eq_getElem_cons h, escapeRest,
        if_neg hquote]
  | case3 i result h =>
      rw [escapeFrom, dif_neg h, List.drop_eq_nil_of_le (Nat.le_of_not_lt h), escapeRest]

theorem escapeArg_eq (s : Bytes) : escapeArg s = 39 :: escapeRest s 0 s ++ [39] := by
  rw [escapeArg, escapeFrom_eq, List.drop_zero]

theorem escapeRest_of_not_mem (h : 39 ∉ rest) (i : Nat) (result : Bytes) :
    escapeRest rest i result = result := by
  induction rest generalizing i with
  | nil => rw [escapeRest]
  | cons c rest ih =>
      rw [List.mem_cons, not_or] at h
      rw [escapeRest, if_neg (Ne.symm h.1)]
      exact ih h.2 (i + 1)

theorem escapeRest_append {front : Bytes} (h : 39 ∉ front) (rest : Bytes) (i : Nat)
    (result : Bytes) :
    escapeRest (front ++ rest) i result = escapeRest rest (i + front.length) result := by
  induction front generalizing i with
  | nil => rfl
  | cons c front ih =>
      rw [List.mem_cons, not_or] at h
      rw [List.cons_append, escapeRest, if_neg (Ne.symm h.1), ih h.2, List.length_cons]
      congr 1
      omega

theorem escapeRest_cons_quote (rest : Bytes) (i : Nat) (result : Bytes) :
    escapeRest (39 :: rest) i result =
      escapeRest (rest.drop 2) (i + 3) (insertAt result i quoteEscape) := by
  rw [escapeRest, if_pos rfl]

theorem insertAt_length (front rest text : Bytes) :
    insertAt (front ++ rest) front.length text = front ++ text ++ rest := by
  rw [insertAt, List.take_left, List.drop_left]

theorem escapeRest_first {front : Bytes} (h : 39 ∉ front) (rest : Bytes) :
    escapeRest (front ++ 39 :: rest) 0 (front ++ 39 :: rest) =
      escapeRest (rest.drop 2) (front.length + 3) (front ++ quoteEscape ++ 39 :: rest) := by
  rw [escapeRest_append h, Nat.zero_add, escapeRest_cons_quote, insertAt_length]

theorem exists_first_quote (h : 39 ∈ s) : ∃ front rest, 39 ∉ front ∧ s = front ++ 39 :: rest := by
  obtain ⟨front, rest, hs, hfront⟩ := List.eq_append_cons_of_mem h
  exact ⟨front, rest, hfront, hs⟩

/-- A string with at most one quote is one word for the shell. -/
theorem run_escapeArg (words : List Bytes) (h : s.count 39 ≤ 1) :
    Shell.run ⟨words, .unquoted none⟩ (escapeArg s) = ⟨words, .unquoted (some s)⟩ := by
  rw [escapeArg_eq]
  rcases Decidable.em (39 ∈ s) with hmem | hmem
  · obtain ⟨front, rest, hfront, rfl⟩ := exists_first_quote hmem
    have hrest : 39 ∉ rest := by
      rw [List.count_append, List.count_cons_self] at h
      exact List.count_eq_zero.mp (by omega)
    rw [escapeRest_first hfront,
      escapeRest_of_not_mem (fun hdrop => hrest (List.mem_of_mem_drop hdrop))]
    have htext : 39 :: (front ++ quoteEscape ++ 39 :: rest) ++ [39] =
        39 :: (front ++ (39 :: 92 :: 39 :: 39 :: (rest ++ [39]))) := by
      simp [quoteEscape]
    rw [htext, run_cons, run_append]
    have hopen : Shell.step ⟨words, .unquoted none⟩ 39 = ⟨words, .quoted []⟩ := rfl
    rw [hopen, run_quoted words [] hfront, List.nil_append]
    have hescape : Shell.run ⟨words, .quoted front⟩ (39 :: 92 :: 39 :: 39 :: (rest ++ [39])) =
        Shell.run ⟨words, .quoted (front ++ [39])⟩ (rest ++ [39]) := rfl
    rw [hescape, run_append, run_quoted words _ hrest, List.append_assoc]
    rfl
  · rw [escapeRest_of_not_mem hmem, List.cons_append, run_cons, run_append]
    have hopen : Shell.step ⟨words, .unquoted none⟩ 39 = ⟨words, .quoted []⟩ := rfl
    rw [hopen, run_quoted words [] hmem]
    rfl

theorem shellWords_commandLine {args : List Bytes} (h : ∀ s ∈ args, s.count 39 ≤ 1) :
    shellWords (commandLine args) = some args := by
  have hrun : ∀ words, (Shell.run ⟨words, .unquoted none⟩ (commandLine args)).finish =
      some (words ++ args) := by
    induction args with
    | nil => intro words; simp [commandLine, Shell.run, Shell.finish]
    | cons s args ih =>
        intro words
        have hs := h s List.mem_cons_self
        have hargs := ih fun s' hs' => h s' (List.mem_cons_of_mem _ hs')
        cases args with
        | nil =>
            rw [commandLine, List.map_singleton, List.intercalate_singleton, run_escapeArg words hs]
            rfl
        | cons next args =>
            have hjoin : commandLine (s :: next :: args) =
                escapeArg s ++ 32 :: commandLine (next :: args) := by
              simp [commandLine, List.intercalate_cons_cons]
            rw [hjoin, run_append, run_escapeArg words hs, run_cons]
            have hblank : Shell.step ⟨words, .unquoted (some s)⟩ 32 =
                ⟨words ++ [s], .unquoted none⟩ := rfl
            rw [hblank, hargs, List.append_assoc]
            rfl
  exact hrun []

/-- How often the loop inserts. -/
def insertions (rest : Bytes) : Nat :=
  match rest with
  | [] => 0
  | c :: rest => if c = 39 then insertions (rest.drop 2) + 1 else insertions rest
  termination_by rest.length
  decreasing_by
    · simp only [List.length_drop, List.length_cons]
      omega
    · exact Nat.lt_succ_self _

theorem insertions_cons_quote (rest : Bytes) :
    insertions (39 :: rest) = insertions (rest.drop 2) + 1 := by
  rw [insertions, if_pos rfl]

theorem insertions_append {front : Bytes} (h : 39 ∉ front) (rest : Bytes) :
    insertions (front ++ rest) = insertions rest := by
  induction front with
  | nil => rfl
  | cons c front ih =>
      rw [List.mem_cons, not_or] at h
      rw [List.cons_append, insertions, if_neg (Ne.symm h.1)]
      exact ih h.2

theorem length_insertAt (result : Bytes) (i : Nat) (text : Bytes) :
    (insertAt result i text).length = result.length + text.length := by
  simp only [insertAt, List.length_append, List.length_take, List.length_drop]
  omega

theorem count_insertAt (result : Bytes) (i : Nat) (text : Bytes) (c : UInt8) :
    (insertAt result i text).count c = result.count c + text.count c := by
  have hsplit := congrArg (List.count c) (List.take_append_drop i result)
  rw [List.count_append] at hsplit
  simp only [insertAt, List.count_append]
  omega

theorem length_escapeRest (rest : Bytes) (i : Nat) (result : Bytes) :
    (escapeRest rest i result).length = result.length + 3 * insertions rest := by
  induction rest, i, result using escapeRest.induct with
  | case1 i result =>
      rw [escapeRest, insertions]
      rfl
  | case2 i result rest ih =>
      rw [escapeRest_cons_quote, ih, length_insertAt, insertions_cons_quote]
      simp only [quoteEscape, List.length_cons, List.length_nil]
      omega
  | case3 i result c rest hc ih => rw [escapeRest, if_neg hc, ih, insertions, if_neg hc]

theorem count_escapeRest (rest : Bytes) (i : Nat) (result : Bytes) :
    (escapeRest rest i result).count 39 = result.count 39 + 2 * insertions rest := by
  induction rest, i, result using escapeRest.induct with
  | case1 i result =>
      rw [escapeRest, insertions]
      rfl
  | case2 i result rest ih =>
      have hescape : quoteEscape.count 39 = 2 := by decide
      rw [escapeRest_cons_quote, ih, count_insertAt, insertions_cons_quote, hescape]
      omega
  | case3 i result c rest hc ih => rw [escapeRest, if_neg hc, ih, insertions, if_neg hc]

theorem insertions_le (rest : Bytes) : insertions rest ≤ rest.count 39 := by
  induction rest using insertions.induct with
  | case1 =>
      rw [insertions]
      exact Nat.zero_le _
  | case2 rest ih =>
      have hdrop : (rest.drop 2).count 39 ≤ rest.count 39 :=
        (List.drop_sublist 2 rest).count_le 39
      rw [insertions_cons_quote, List.count_cons_self]
      omega
  | case3 c rest hc ih =>
      rw [insertions, if_neg hc, List.count_cons_of_ne hc]
      exact ih

/-- The bytes of the words so far. -/
def Shell.size (sh : Shell) : Nat :=
  sh.words.flatten.length +
    match sh.mode with
    | .unquoted word => (word.getD []).length
    | .escaped word => (word.getD []).length + 1
    | .quoted word => word.length

/-- Every quote of the text that was read is one of a pair, or stands after a
backslash; `spare` more bytes did not get into a word either. -/
def Accounts (read : Bytes) (sh : Shell) (spare : Nat) : Prop :=
  read.count 39 + sh.size + spare ≤ read.length

theorem size_step_quote (sh : Shell) : (sh.step 39).size ≤ sh.size := by
  obtain ⟨words, mode⟩ := sh
  cases mode with
  | quoted word => exact Nat.le_refl _
  | escaped word => simp [Shell.step, Shell.size]
  | unquoted word => exact Nat.le_refl _

theorem size_step_other (sh : Shell) {c : UInt8} (hc : c ≠ 39) :
    (sh.step c).size ≤ sh.size + 1 := by
  obtain ⟨words, mode⟩ := sh
  cases mode with
  | quoted word => simp [Shell.step, Shell.size, hc, Nat.add_assoc]
  | escaped word =>
      rcases Decidable.em (c = 10) with rfl | hnewline
      · simp [Shell.step, Shell.size]
        omega
      · simp [Shell.step, Shell.size, hnewline]
  | unquoted word =>
      rcases Decidable.em (c = 92) with rfl | hbackslash
      · simp [Shell.step, Shell.size, Nat.add_assoc]
      · cases hblank : isBlank c with
        | true =>
            cases word with
            | none => simp [Shell.step, Shell.size, hc, hbackslash, hblank]
            | some word => simp [Shell.step, Shell.size, hc, hbackslash, hblank]
        | false => simp [Shell.step, Shell.size, hc, hbackslash, hblank, Nat.add_assoc]

theorem accounts_step {read : Bytes} {spare : Nat} (h : Accounts read sh spare) (c : UInt8) :
    Accounts (read ++ [c]) (sh.step c) spare := by
  rw [Accounts] at h ⊢
  rw [List.count_append, List.length_append, List.length_singleton]
  rcases Decidable.em (c = 39) with rfl | hc
  · have hsize := size_step_quote sh
    rw [List.count_singleton_self]
    omega
  · have hsize := size_step_other sh hc
    have hcount : [c].count 39 = 0 := List.count_eq_zero.mpr (by simpa using Ne.symm hc)
    omega

theorem accounts_run {read : Bytes} {spare : Nat} (h : Accounts read sh spare) (text : Bytes) :
    Accounts (read ++ text) (sh.run text) spare := by
  induction text generalizing read sh with
  | nil =>
      rw [List.append_nil]
      exact h
  | cons c text ih =>
      have hrest := ih (accounts_step h c)
      rwa [List.append_assoc] at hrest

theorem accounts_newline {read : Bytes} {word : Option Bytes} (h : Accounts read sh 0)
    (hmode : sh.mode = .escaped word) : Accounts (read ++ [10]) (sh.step 10) 1 := by
  obtain ⟨words, mode⟩ := sh
  subst hmode
  rw [Accounts] at h ⊢
  rw [List.count_append, List.length_append]
  simp [Shell.step, Shell.size] at h ⊢
  omega

theorem size_of_finish {words : List Bytes} (h : sh.finish = some words) :
    sh.size = words.flatten.length := by
  obtain ⟨words', mode⟩ := sh
  cases mode with
  | quoted word => cases h
  | escaped word => cases h
  | unquoted word =>
      rw [← Option.some.inj h]
      cases word with
      | none => simp [Shell.size]
      | some word => simp [Shell.size]

theorem drop_insertAt {result : Bytes} {i : Nat} (hi : i ≤ result.length) :
    (insertAt result i quoteEscape).drop (i + 3) = result.drop i := by
  have hlength : (result.take i ++ quoteEscape).length = i + 3 := by
    rw [List.length_append, List.length_take, Nat.min_eq_left hi]
    rfl
  rw [insertAt, ← hlength, List.drop_left]

theorem apart_of_le (hins : (39 :: rest).count 39 ≤ insertions (39 :: rest)) (hmem : 39 ∈ rest) :
    ∃ a b more, rest = a :: b :: more ∧ b ≠ 39 ∧ more.count 39 ≤ insertions more ∧ 39 ∈ more := by
  rw [insertions_cons_quote, List.count_cons_self] at hins
  have hle := insertions_le (rest.drop 2)
  have hpos := List.count_pos_iff.mpr hmem
  cases rest with
  | nil => exact absurd hmem List.not_mem_nil
  | cons a rest =>
      cases rest with
      | nil =>
          simp only [List.drop_succ_cons, List.drop_nil, List.count_nil] at hle
          simp only [List.drop_succ_cons, List.drop_nil] at hins
          omega
      | cons b more =>
          simp only [List.drop_succ_cons, List.drop_zero] at hle hins
          have ha : more.count 39 ≤ (b :: more).count 39 := List.count_le_count_cons
          have hb : (b :: more).count 39 ≤ (a :: b :: more).count 39 := List.count_le_count_cons
          refine ⟨a, b, more, rfl, ?_, by omega, List.count_pos_iff.mp (by omega)⟩
          rintro rfl
          rw [List.count_cons_self] at ha hb
          omega

/-- Once the loop has inserted, it inserts too early.  When no quote is skipped,
what it makes of the last one is the byte before it, the quote itself and the
rest, as they stand in the argument. -/
theorem escapeRest_last {front before rest result : Bytes} {z : UInt8} {k : Nat}
    (hbefore : before = front ++ [z]) (hz : z ≠ 39) (hk : 1 ≤ k) (hle : 3 * k ≤ before.length)
    (hresult : result.drop before.length = (before ++ rest).drop (before.length - 3 * k))
    (hins : rest.count 39 ≤ insertions rest) (hmem : 39 ∈ rest) :
    ∃ out start z last, escapeRest rest before.length result = out ++ z :: 39 :: last ∧
      before ++ rest = start ++ z :: 39 :: last ∧ z ≠ 39 ∧ 39 ∉ last := by
  induction rest using insertions.induct generalizing front before result z k with
  | case1 => exact absurd hmem List.not_mem_nil
  | case2 rest ih =>
      rw [escapeRest_cons_quote]
      rcases Decidable.em (39 ∈ rest) with hrest | hrest
      · -- Another quote follows.
        obtain ⟨a, b, more, rfl, hb, hmore, hmem⟩ := apart_of_le hins hrest
        have hlength : before.length ≤ result.length := by
          have hsize := congrArg List.length hresult
          simp only [List.length_drop, List.length_append, List.length_cons] at hsize
          omega
        have hbefore' : before ++ [39, a, b] = (before ++ [39, a]) ++ [b] := by simp
        have hlength' : (before ++ [39, a, b]).length = before.length + 3 :=
          List.length_append
        have hjoin : before ++ [39, a, b] ++ more = before ++ 39 :: a :: b :: more := by simp
        have hresult' : (insertAt result before.length quoteEscape).drop
            (before ++ [39, a, b]).length = (before ++ [39, a, b] ++ more).drop
              ((before ++ [39, a, b]).length - 3 * (k + 1)) := by
          rw [hlength', drop_insertAt hlength, hresult, hjoin]
          congr 1
          omega
        have hagain := ih hbefore' hb (Nat.le_add_left 1 k) (by omega) hresult' hmore hmem
        rw [hlength', List.drop_succ_cons, List.drop_succ_cons, List.drop_zero, hjoin] at hagain
        exact hagain
      · rw [escapeRest_of_not_mem fun hdrop => hrest (List.mem_of_mem_drop hdrop)]
        have hlength : before.length - 3 * k ≤ front.length := by
          rw [hbefore, List.length_append, List.length_singleton]
          omega
        have hdrop : (before ++ 39 :: rest).drop (before.length - 3 * k) =
            front.drop (before.length - 3 * k) ++ z :: 39 :: rest := by
          have hjoin : before ++ 39 :: rest = front ++ z :: 39 :: rest := by simp [hbefore]
          rw [hjoin, List.drop_append_of_le_length hlength]
        refine ⟨result.take before.length ++ quoteEscape ++ front.drop (before.length - 3 * k),
          front, z, rest, ?_, ?_, hz, hrest⟩
        · rw [insertAt, hresult, hdrop, List.append_assoc _ _ (z :: 39 :: rest)]
        · rw [hbefore, List.append_assoc]
          rfl
  | case3 c rest hc ih =>
      rw [escapeRest, if_neg hc]
      rw [insertions, if_neg hc, List.count_cons_of_ne hc] at hins
      have hmem' : 39 ∈ rest := by
        rcases List.mem_cons.mp hmem with heq | hmem
        · exact absurd heq.symm hc
        · exact hmem
      have hlength : (before ++ [c]).length = before.length + 1 := List.length_append
      have hjoin : before ++ [c] ++ rest = before ++ c :: rest := by simp
      have hresult' : result.drop (before ++ [c]).length =
          (before ++ [c] ++ rest).drop ((before ++ [c]).length - 3 * k) := by
        rw [hlength, ← List.drop_drop, hresult, List.drop_drop, hjoin]
        congr 1
        omega
      have hagain := ih (rfl : before ++ [c] = before ++ [c]) hc hk (by omega) hresult' hins hmem'
      rw [hlength, hjoin] at hagain
      exact hagain

theorem mode_run_unquoted {word : Option Bytes} (hmode : sh.mode = .unquoted word)
    (h : 39 ∉ text) :
    (∃ word, (sh.run text).mode = .unquoted word) ∨
      ∃ word front, (sh.run text).mode = .escaped word ∧ text = front ++ [92] := by
  induction text using List.reverseRecOn with
  | nil => exact .inl ⟨word, hmode⟩
  | append_singleton front c ih =>
      rw [List.mem_append, not_or] at h
      have hc : c ≠ 39 := fun heq => h.2 (by simp [heq])
      rw [run_append]
      have hstep : Shell.run (sh.run front) [c] = (sh.run front).step c := rfl
      rw [hstep, Shell.step]
      rcases ih h.1 with ⟨word, hword⟩ | ⟨word, more, hword, -⟩
      · rw [hword]
        simp only [if_neg hc]
        split
        · next hbackslash => exact .inr ⟨word, front, rfl, by rw [hbackslash]⟩
        · split
          · exact .inl ⟨none, rfl⟩
          · exact .inl ⟨_, rfl⟩
      · rw [hword]
        simp only []
        split
        · exact .inl ⟨word, rfl⟩
        · exact .inl ⟨_, rfl⟩

theorem eq_of_finish {words : List Bytes} (word : Bytes)
    (h : Shell.finish ⟨words, .unquoted (some word)⟩ = some [s]) : word = s := by
  have hlast := congrArg List.getLast? (Option.some.inj h)
  rw [Option.toList_some, List.getLast?_concat] at hlast
  exact Option.some.inj hlast

theorem finish_ne_of_unquoted {word : Option Bytes} {start : Bytes}
    (hmode : sh.mode = .unquoted word) (h : 39 ∉ text) :
    ((sh.run text).step 39).finish ≠ some [start ++ 39 :: text] := by
  intro hfinish
  rcases mode_run_unquoted hmode h with ⟨word, hword⟩ | ⟨word, front, hword, htext⟩
  · rw [Shell.step, hword] at hfinish
    cases hfinish
  · rw [Shell.step, hword] at hfinish
    have hlast := eq_of_finish (word.getD [] ++ [39]) hfinish
    have hjoin : start ++ 39 :: (front ++ [92]) = (start ++ 39 :: front) ++ [92] := by simp
    rw [htext, hjoin] at hlast
    have hquote := List.append_inj_right' hlast rfl
    exact absurd hquote (by decide)

theorem escaped_newline_of_step {word : Option Bytes} {start : Bytes} {z : UInt8} (hz : z ≠ 39)
    (hmode : (sh.step z).mode = .unquoted word) (hword : word.getD [] = start ++ [39]) :
    z = 10 ∧ ∃ word', sh.mode = .escaped word' := by
  have hne : ∀ front : Bytes, front ++ [z] ≠ start ++ [39] := by
    intro front heq
    have hlast := List.append_inj_right' heq rfl
    exact hz (List.singleton_inj.mp hlast)
  rw [Shell.step] at hmode
  cases hsh : sh.mode with
  | quoted word' =>
      simp only [hsh, if_neg hz] at hmode
      cases hmode
  | escaped word' =>
      simp only [hsh] at hmode
      split at hmode
      · next hnewline => exact ⟨hnewline, word', rfl⟩
      · cases hmode
        exact absurd hword (hne _)
  | unquoted word' =>
      simp only [hsh, if_neg hz] at hmode
      split at hmode
      · cases hmode
      · split at hmode
        · cases hmode
          exact absurd hword.symm (by simp)
        · cases hmode
          exact absurd hword (hne _)

theorem accounts_nil : Accounts [] ⟨[], .unquoted none⟩ 0 := Nat.le_refl _

/-- When the whole text has become the argument, the loop has inserted as often
as there are quotes, and `spare` more bytes are too many. -/
theorem count_add_le_of_accounts {spare : Nat} (h : shellWords (escapeArg s) = some [s])
    (haccounts : Accounts (escapeArg s) (Shell.run ⟨[], .unquoted none⟩ (escapeArg s)) spare) :
    s.count 39 + spare ≤ insertions s := by
  rw [Accounts, size_of_finish h, List.flatten_singleton] at haccounts
  rw [escapeArg_eq, List.cons_append, List.count_cons_self, List.count_append, count_escapeRest,
    List.count_singleton_self, List.length_cons, List.length_append, length_escapeRest,
    List.length_singleton] at haccounts
  omega

theorem escapeRest_of_two (h : 2 ≤ s.count 39) (hins : s.count 39 ≤ insertions s) :
    ∃ out start z last, escapeRest s 0 s = out ++ z :: 39 :: last ∧
      s = start ++ z :: 39 :: last ∧ z ≠ 39 ∧ 39 ∉ last := by
  have hquote : 39 ∈ s := List.count_pos_iff.mp (by omega)
  obtain ⟨front, rest, hfront, rfl⟩ := exists_first_quote hquote
  have hcount : (front ++ 39 :: rest).count 39 = (39 :: rest).count 39 := by
    rw [List.count_append, List.count_eq_zero.mpr hfront, Nat.zero_add]
  rw [insertions_append hfront, hcount] at hins
  rw [hcount, List.count_cons_self] at h
  obtain ⟨a, b, more, rfl, hb, hmore, hmem⟩ :=
    apart_of_le hins (List.count_pos_iff.mp (by omega))
  have hlength : (front ++ [39, a, b]).length = front.length + 3 := List.length_append
  have hjoin : front ++ [39, a, b] ++ more = front ++ 39 :: a :: b :: more := by simp
  have hresult : (front ++ quoteEscape ++ 39 :: a :: b :: more).drop
      (front ++ [39, a, b]).length =
        (front ++ [39, a, b] ++ more).drop ((front ++ [39, a, b]).length - 3 * 1) := by
    have hescaped : (front ++ quoteEscape).length = front.length + 3 := List.length_append
    rw [hlength, ← hescaped, List.drop_left, hescaped, hjoin, Nat.mul_one, Nat.add_sub_cancel,
      List.drop_left]
  have hbefore : front ++ [39, a, b] = (front ++ [39, a]) ++ [b] := by simp
  have hlast := escapeRest_last hbefore hb (Nat.le_refl 1) (by omega) hresult hmore hmem
  rw [hlength, hjoin] at hlast
  rw [escapeRest_first hfront]
  exact hlast

/-- With two quotes or more, something goes wrong. -/
theorem shellWords_ne_of_two (h : 2 ≤ s.count 39) : shellWords (escapeArg s) ≠ some [s] := by
  intro hwords
  have haccounts := accounts_run accounts_nil (escapeArg s)
  rw [List.nil_append] at haccounts
  have htight := count_add_le_of_accounts hwords haccounts
  obtain ⟨out, start, z, last, hout, hs, hz, hlast⟩ := escapeRest_of_two h htight
  -- The shell before and after the last byte that is no quote.
  set sh := Shell.run ⟨[], .unquoted none⟩ (39 :: out) with hsh
  have htext : escapeArg s = 39 :: out ++ ([z] ++ (39 :: last ++ [39])) := by
    rw [escapeArg_eq, hout]
    simp
  have hrun : Shell.run ⟨[], .unquoted none⟩ (escapeArg s) =
      (((sh.step z).step 39).run last).step 39 := by
    rw [htext, run_append, run_append, run_append, ← hsh]
    rfl
  have hfinish : ((((sh.step z).step 39).run last).step 39).finish = some [s] := by
    rw [← hrun]
    exact hwords
  have hjoin : s = (start ++ [z]) ++ 39 :: last := by simp [hs]
  cases hmode : (sh.step z).mode with
  | quoted word =>
      rw [hjoin] at hfinish
      have hclosed : ((sh.step z).step 39).mode = .unquoted (some word) := by
        rw [Shell.step, hmode]
        rfl
      exact finish_ne_of_unquoted hclosed hlast hfinish
  | escaped word =>
      rw [hjoin] at hfinish
      have hkept : ((sh.step z).step 39).mode = .unquoted (some (word.getD [] ++ [39])) := by
        rw [Shell.step, hmode]
        rfl
      exact finish_ne_of_unquoted hkept hlast hfinish
  | unquoted word =>
      have hopened : (sh.step z).step 39 = ⟨(sh.step z).words, .quoted (word.getD [])⟩ := by
        rw [Shell.step, hmode]
        rfl
      rw [hopened, run_quoted _ _ hlast] at hfinish
      have hword := eq_of_finish _ hfinish
      rw [hs] at hword
      have hboth : word.getD [] ++ last = (start ++ [z]) ++ [39] ++ last := by
        rw [hword]
        simp
      have hquote := List.append_cancel_right hboth
      obtain ⟨rfl, word', hescaped⟩ := escaped_newline_of_step hz hmode hquote
      have hread := accounts_run accounts_nil (39 :: out)
      rw [List.nil_append] at hread
      have hspare := accounts_run (accounts_newline hread hescaped) (39 :: last ++ [39])
      have hsplit : 39 :: out ++ [10] ++ (39 :: last ++ [39]) = escapeArg s := by
        rw [htext]
        simp
      rw [hsplit] at hspare
      have hrun' : (sh.step 10).run (39 :: last ++ [39]) =
          Shell.run ⟨[], .unquoted none⟩ (escapeArg s) := by
        rw [hrun, run_append]
        rfl
      rw [← hsh, hrun'] at hspare
      have hover := count_add_le_of_accounts hwords hspare
      have hle := insertions_le s
      omega

theorem shellWords_escapeArg_iff (s : Bytes) :
    shellWords (escapeArg s) = some [s] ↔ s.count 39 ≤ 1 := by
  constructor
  · intro hwords
    rcases Nat.lt_or_ge 1 (s.count 39) with htwo | hone
    · exact absurd hwords (shellWords_ne_of_two htwo)
    · exact hone
  · intro h
    rw [shellWords, run_escapeArg [] h]
    rfl

/-- Every argument reaches the shell unchanged, alone and in a command line,
exactly when none has two quotes. -/
theorem escaped_args_unchanged_iff (args : List Bytes) :
    ((∀ s ∈ args, shellWords (escapeArg s) = some [s]) ∧
      shellWords (commandLine args) = some args) ↔ ∀ s ∈ args, s.count 39 ≤ 1 := by
  constructor
  · rintro ⟨hwords, -⟩ s hs
    exact (shellWords_escapeArg_iff s).mp (hwords s hs)
  · intro h
    exact ⟨fun s hs => (shellWords_escapeArg_iff s).mpr (h s hs), shellWords_commandLine h⟩

/-- Of `''` one quote is left. -/
theorem two_quotes_lost : ¬ shellWords (escapeArg (ascii "''")) = some [ascii "''"] := by
  rw [shellWords_escapeArg_iff]
  decide

end

end Adb.ShellQuoting
