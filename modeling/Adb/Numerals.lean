import Mathlib.Algebra.Group.Int.Defs
import Mathlib.Algebra.Group.Nat.Defs
import Mathlib.Data.List.Basic

/-!
Numbers as text.  `print` is what the conversions `%d` and `%x` of a
non-negative number produce, and `strtoul` reads such a text back.
-/

namespace Adb.Numerals

/-- The byte of a digit, in lower case. -/
def digitByte (d : Nat) : UInt8 := UInt8.ofNat (Nat.digitChar d).toNat

/-- The digits of a number in a base of at most sixteen. -/
def print (base n : Nat) : List UInt8 :=
  (Nat.toDigits base n).map fun c => UInt8.ofNat c.toNat

/-- The value of a byte as a digit of the base. -/
def digitValue (base : Nat) (b : UInt8) : Option Nat :=
  let value :=
    if 48 ≤ b.toNat ∧ b.toNat ≤ 57 then b.toNat - 48
    else if 97 ≤ b.toNat ∧ b.toNat ≤ 122 then b.toNat - 87
    else if 65 ≤ b.toNat ∧ b.toNat ≤ 90 then b.toNat - 55
    else base
  if value < base then some value else none

/-- The value of the longest run of digits, continued from `acc`. -/
def digitsValue (base : Nat) : Nat → List UInt8 → Nat
  | acc, [] => acc
  | acc, b :: bs =>
      match digitValue base b with
      | some d => digitsValue base (base * acc + d) bs
      | none => acc

/-- The number after an optional sign: base 16 skips `0x`, base 0 chooses the
base from the first characters. -/
def unsignedValue : Nat → List UInt8 → Nat
  | 0, 48 :: x :: text =>
      if x = 120 ∨ x = 88 then digitsValue 16 0 text else digitsValue 8 0 (x :: text)
  | 0, text => digitsValue 10 0 text
  | 16, 48 :: x :: text =>
      if x = 120 ∨ x = 88 then digitsValue 16 0 text
      else digitsValue 16 0 (48 :: x :: text)
  | base, text => digitsValue base 0 text

def isSpace (b : UInt8) : Bool := b = 32 || (9 ≤ b.toNat && b.toNat ≤ 13)

def afterSign : List UInt8 → List UInt8
  | 45 :: text => text
  | 43 :: text => text
  | text => text

/-- `strtoul` with a 64-bit `unsigned long`, and whether it sets `ERANGE`. -/
def strtoul (base : Nat) (text : List UInt8) : Nat × Bool :=
  let signed := text.dropWhile isSpace
  let value := unsignedValue base (afterSign signed)
  if 2 ^ 64 ≤ value then (2 ^ 64 - 1, true)
  else if signed.head? = some 45 then ((2 ^ 64 - value) % 2 ^ 64, false)
  else (value, false)

theorem print_eq_if {base : Nat} (h : 1 < base) (n : Nat) :
    print base n =
      if n < base then [digitByte n] else print base (n / base) ++ [digitByte (n % base)] := by
  rw [print, Nat.toDigits_eq_if h]
  split
  · rfl
  · rw [List.map_append]
    rfl

theorem digitValue_digitByte {base d : Nat} (hbase : base ≤ 16) (hd : d < base) :
    digitValue base (digitByte d) = some d := by
  have hsixteen : ∀ e < 16, ∀ b ≤ 16, e < b → digitValue b (digitByte e) = some e := by
    decide
  exact hsixteen d (by omega) base hbase hd

theorem digitsValue_print {base : Nat} (hone : 1 < base) (hsixteen : base ≤ 16)
    (n : Nat) (rest : List UInt8) :
    digitsValue base 0 (print base n ++ rest) = digitsValue base n rest := by
  induction n using Nat.strongRecOn generalizing rest with
  | ind n ih =>
      rw [print_eq_if hone]
      split
      · rename_i hn
        rw [List.singleton_append, digitsValue, digitValue_digitByte hsixteen hn]
        simp
      · rename_i hn
        have hmod : n % base < base := Nat.mod_lt _ (by omega)
        rw [List.append_assoc, ih (n / base) (Nat.div_lt_self (by omega) hone),
          List.singleton_append, digitsValue, digitValue_digitByte hsixteen hmod]
        simp only [Nat.div_add_mod]

theorem mem_print {base : Nat} (hone : 1 < base) {n : Nat} {b : UInt8}
    (h : b ∈ print base n) : ∃ d < base, b = digitByte d := by
  induction n using Nat.strongRecOn with
  | ind n ih =>
      rw [print_eq_if hone] at h
      split at h
      · rename_i hn
        exact ⟨n, hn, by simpa using h⟩
      · rename_i hn
        rcases List.mem_append.mp h with hhead | hlast
        · exact ih (n / base) (Nat.div_lt_self (by omega) hone) hhead
        · exact ⟨n % base, Nat.mod_lt _ (by omega), by simpa using hlast⟩

theorem length_print_le_iff {base n k : Nat} (hone : 1 < base) (hk : 0 < k) :
    (print base n).length ≤ k ↔ n < base ^ k := by
  rw [print, List.length_map, Nat.length_toDigits_le_iff hone hk]

theorem print_ne_nil (base n : Nat) : print base n ≠ [] := by
  simp [print]

theorem digitValue_lt {base d : Nat} {b : UInt8} (h : digitValue base b = some d) :
    d < base := by
  obtain ⟨hlt, hvalue⟩ := Option.ite_none_right_eq_some.mp h
  cases hvalue
  exact hlt

theorem digitsValue_lt {base : Nat} (text : List UInt8) (acc : Nat) (h : 0 < base) :
    digitsValue base acc text < base ^ text.length * (acc + 1) := by
  induction text generalizing acc with
  | nil => simp [digitsValue]
  | cons b text ih =>
      rw [digitsValue, List.length_cons, Nat.pow_succ, Nat.mul_assoc]
      split
      · rename_i d hd
        have hlt := digitValue_lt hd
        calc digitsValue base (base * acc + d) text
            < base ^ text.length * (base * acc + d + 1) := ih _
          _ ≤ base ^ text.length * (base * (acc + 1)) := by
              apply Nat.mul_le_mul_left
              rw [Nat.mul_add]
              omega
      · calc acc < base ^ text.length * (base * (acc + 1)) := by
              have hpos : 0 < base ^ text.length := Nat.pow_pos h
              have h1 : acc + 1 ≤ base * (acc + 1) := Nat.le_mul_of_pos_left _ h
              have h2 : base * (acc + 1) ≤ base ^ text.length * (base * (acc + 1)) :=
                Nat.le_mul_of_pos_left _ hpos
              omega

/-- A byte that a printed number can hold. -/
def IsDigit (b : UInt8) : Prop := ∃ d < 16, b = digitByte d

theorem isDigit_of_mem_print {base n : Nat} (hone : 1 < base) (hsixteen : base ≤ 16)
    {b : UInt8} (h : b ∈ print base n) : IsDigit b := by
  obtain ⟨d, hd, rfl⟩ := mem_print hone h
  exact ⟨d, by omega, rfl⟩

theorem IsDigit.plain {b : UInt8} (h : IsDigit b) :
    b ≠ 0 ∧ isSpace b = false ∧ b ≠ 45 ∧ b ≠ 43 ∧ b ≠ 120 ∧ b ≠ 88 := by
  obtain ⟨d, hd, rfl⟩ := h
  have hall : ∀ e < 16, digitByte e ≠ 0 ∧ isSpace (digitByte e) = false ∧
      digitByte e ≠ 45 ∧ digitByte e ≠ 43 ∧ digitByte e ≠ 120 ∧ digitByte e ≠ 88 := by
    decide
  exact hall d hd

theorem unsignedValue_sixteen {text : List UInt8} (h : ∀ b ∈ text, IsDigit b) :
    unsignedValue 16 text = digitsValue 16 0 text := by
  unfold unsignedValue
  split
  · contradiction
  · contradiction
  · rename_i x rest _
    have hx := (h x (by simp)).plain
    rw [if_neg (by simp [hx])]
  · rfl

theorem strtoul_of_plain {base : Nat} {text : List UInt8}
    (h : ∀ b ∈ text.head?, isSpace b = false ∧ b ≠ 45 ∧ b ≠ 43)
    (hsmall : unsignedValue base text < 2 ^ 64) :
    strtoul base text = (unsignedValue base text, false) := by
  have hdrop : text.dropWhile isSpace = text := by
    cases text with
    | nil => rfl
    | cons b text => simp [List.dropWhile, (h b (by simp)).1]
  have hminus : text.head? ≠ some 45 := by
    intro hhead
    exact (h 45 (by simp [hhead])).2.1 rfl
  have hplus : text.head? ≠ some 43 := by
    intro hhead
    exact (h 43 (by simp [hhead])).2.2 rfl
  have hsign : afterSign text = text := by
    unfold afterSign
    split
    · exact absurd rfl hminus
    · exact absurd rfl hplus
    · rfl
  simp only [strtoul, hdrop, hsign]
  rw [if_neg (by omega), if_neg hminus]

/-- `strtoul` on at most sixteen hexadecimal digits. -/
theorem strtoul_sixteen {text : List UInt8} (h : ∀ b ∈ text, IsDigit b)
    (hlen : text.length ≤ 15) : strtoul 16 text = (digitsValue 16 0 text, false) := by
  have hvalue := unsignedValue_sixteen h
  rw [strtoul_of_plain, hvalue]
  · intro b hb
    have hplain := (h b (List.mem_of_mem_head? hb)).plain
    exact ⟨hplain.2.1, hplain.2.2.1, hplain.2.2.2.1⟩
  · rw [hvalue]
    calc digitsValue 16 0 text < 16 ^ text.length * (0 + 1) := digitsValue_lt text 0 (by omega)
      _ ≤ 16 ^ 15 * (0 + 1) := by
          apply Nat.mul_le_mul_right
          exact Nat.pow_le_pow_right (by omega) hlen
      _ < 2 ^ 64 := by decide

theorem digitByte_eq_zero_digit {d : Nat} (hd : d < 16) (h : digitByte d = 48) : d = 0 := by
  have hall : ∀ e < 16, digitByte e = 48 → e = 0 := by decide
  exact hall d hd h

theorem head_print_ne {base n : Nat} (hone : 1 < base) (hsixteen : base ≤ 16) (hn : 0 < n) :
    (print base n).head? ≠ some 48 := by
  induction n using Nat.strongRecOn with
  | ind n ih =>
      rw [print_eq_if hone]
      split
      · rename_i hlt
        intro hhead
        have hzero := digitByte_eq_zero_digit (by omega) (Option.some.inj hhead)
        omega
      · rename_i hle
        have hpos : 0 < n / base := Nat.div_pos (by omega) (by omega)
        have hhead := ih (n / base) (Nat.div_lt_self hn hone) hpos
        cases hprint : print base (n / base) with
        | nil => exact absurd hprint (print_ne_nil _ _)
        | cons b rest =>
            rw [hprint] at hhead
            exact hhead

theorem unsignedValue_zero_print (n : Nat) : unsignedValue 0 (print 10 n) = n := by
  have hread : digitsValue 10 0 (print 10 n) = n := by
    have happend := digitsValue_print (show 1 < 10 by omega) (show 10 ≤ 16 by omega) n []
    rw [List.append_nil] at happend
    exact happend
  rcases Nat.eq_zero_or_pos n with rfl | hpos
  · rfl
  · have hhead := head_print_ne (show 1 < 10 by omega) (show 10 ≤ 16 by omega) hpos
    unfold unsignedValue
    split
    · exact absurd (by assumption) (fun hprint => hhead (by rw [hprint]; rfl))
    · exact hread
    · contradiction
    · rename_i hnot _ _
      exact absurd rfl hnot

end Adb.Numerals
