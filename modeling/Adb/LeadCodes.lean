import Mathlib.Data.List.Basic

/-!
Codes whose words start with a unit that says how long the word is and go on
with units that start no word.  A text that ends inside a word can be cut back
to its whole words from its end.
-/

namespace Adb.LeadCodes

universe u

variable {α : Type u}

/-- The length of the word that a unit leads, if it leads one. -/
abbrev Code (α : Type u) := α → Option Nat

namespace Code

variable (C : Code α)

def IsWord (word : List α) : Prop :=
  ∃ lead rest, word = lead :: rest ∧ C lead = some word.length ∧ ∀ x ∈ rest, C x = none

/-- A word without some of its last units. -/
def Incomplete (part : List α) : Prop :=
  ∃ lead rest length, part = lead :: rest ∧ C lead = some length ∧ part.length < length ∧
    ∀ x ∈ rest, C x = none

/-- Where the incomplete word at the end of a text starts.  The list holds the units
before the position that is looked at, the last one first. -/
def incompleteAt (total : Nat) : List α → Option Nat
  | [] => none
  | x :: before =>
      match C x with
      | some length => if total - before.length < length then some before.length else none
      | none => incompleteAt total before

/-- A text without the incomplete word at its end, and that word. -/
def cut (text : List α) : List α × List α :=
  match C.incompleteAt text.length text.reverse with
  | some n => (text.take n, text.drop n)
  | none => (text, [])

/-- The pieces that come out when a text goes in chunk by chunk and an incomplete word is
kept for the next chunk, and what is kept at the end. -/
def stream : List α → List (List α) → List (List α) × List α
  | buffer, [] => ([], buffer)
  | buffer, chunk :: chunks =>
      let next := C.cut (buffer ++ chunk)
      let later := stream next.2 chunks
      (next.1 :: later.1, later.2)

variable {C} {text front rest part later buffer : List α} {lead : α} {length : Nat}
  {words chunks : List (List α)}

theorem IsWord.ne_nil (h : C.IsWord text) : text ≠ [] := by
  obtain ⟨lead, rest, rfl, -⟩ := h
  exact List.cons_ne_nil lead rest

theorem incompleteAt_append (total : Nat) (hrest : ∀ x ∈ rest, C x = none) (before : List α) :
    C.incompleteAt total (rest ++ before) = C.incompleteAt total before := by
  induction rest with
  | nil => rfl
  | cons x rest ih =>
      rw [List.cons_append, incompleteAt, hrest x (by simp)]
      exact ih fun y hy => hrest y (List.mem_cons_of_mem x hy)

theorem cut_of_no_lead (h : ∀ x ∈ text, C x = none) : C.cut text = (text, []) := by
  have hreverse : ∀ x ∈ text.reverse, C x = none := fun x hx => h x (List.mem_reverse.mp hx)
  have hnone := incompleteAt_append text.length hreverse []
  rw [List.append_nil] at hnone
  rw [cut, hnone]
  rfl

theorem cut_of_lead (hlead : C lead = some length) (hrest : ∀ x ∈ rest, C x = none) :
    C.cut (front ++ lead :: rest) =
      if rest.length + 1 < length then (front, lead :: rest)
      else (front ++ lead :: rest, []) := by
  have hreverse : (front ++ lead :: rest).reverse = rest.reverse ++ lead :: front.reverse := by
    simp
  have hlength : (front ++ lead :: rest).length - front.reverse.length = rest.length + 1 := by
    simp
  rw [cut, hreverse, incompleteAt_append _ fun x hx => hrest x (List.mem_reverse.mp hx),
    incompleteAt, hlead]
  dsimp only
  rw [hlength]
  rcases Nat.lt_or_ge (rest.length + 1) length with hlt | hge
  · rw [if_pos hlt, if_pos hlt]
    simp
  · rw [if_neg (Nat.not_lt.mpr hge), if_neg (Nat.not_lt.mpr hge)]

theorem lead_cases (C : Code α) (text : List α) :
    (∀ x ∈ text, C x = none) ∨
      ∃ front lead rest length, text = front ++ lead :: rest ∧ C lead = some length ∧
        ∀ x ∈ rest, C x = none := by
  induction text with
  | nil => exact .inl (by simp)
  | cons x text ih =>
      rcases ih with hnone | ⟨front, lead, rest, length, rfl, hlead, hrest⟩
      · cases hx : C x with
        | none => exact .inl (List.forall_mem_cons.mpr ⟨hx, hnone⟩)
        | some length => exact .inr ⟨[], x, text, length, rfl, hx, hnone⟩
      · exact .inr ⟨x :: front, lead, rest, length, rfl, hlead, hrest⟩

theorem cut_append (C : Code α) (text : List α) : (C.cut text).1 ++ (C.cut text).2 = text := by
  rw [cut]
  split
  · exact List.take_append_drop _ _
  · exact List.append_nil text

theorem cut_incomplete (C : Code α) (text : List α) :
    (C.cut text).2 = [] ∨ C.Incomplete (C.cut text).2 := by
  rcases lead_cases C text with hnone | ⟨front, lead, rest, length, rfl, hlead, hrest⟩
  · rw [cut_of_no_lead hnone]
    exact .inl rfl
  · rw [cut_of_lead hlead hrest]
    split
    · next hlt => exact .inr ⟨lead, rest, length, rfl, hlead, hlt, hrest⟩
    · exact .inl rfl

theorem cut_words (hwords : ∀ word ∈ words, C.IsWord word)
    (hpart : part = [] ∨ C.Incomplete part) :
    C.cut (words.flatten ++ part) = (words.flatten, part) := by
  rcases hpart with rfl | ⟨lead, rest, length, rfl, hlead, hlt, hrest⟩
  · rw [List.append_nil]
    rcases List.eq_nil_or_concat words with rfl | ⟨words, word, rfl⟩
    · rfl
    · obtain ⟨lead, rest, rfl, hlead, hrest⟩ := hwords word (by simp)
      rw [List.concat_eq_append, List.flatten_append, List.flatten_singleton,
        cut_of_lead hlead hrest, if_neg (by simp)]
  · rw [cut_of_lead hlead hrest]
    exact if_pos hlt

theorem exists_split (hwords : ∀ word ∈ words, C.IsWord word)
    (h : text ++ later = words.flatten) :
    ∃ first second part, words = first ++ second ∧ text = first.flatten ++ part ∧
      part ++ later = second.flatten ∧ (part = [] ∨ C.Incomplete part) := by
  induction words generalizing text with
  | nil =>
      obtain ⟨rfl, rfl⟩ := List.append_eq_nil_iff.mp h
      exact ⟨[], [], [], rfl, rfl, rfl, .inl rfl⟩
  | cons word words ih =>
      rw [List.flatten_cons] at h
      rcases List.append_eq_append_iff.mp h with ⟨missing, hword, hlater⟩ | ⟨text', htext, h'⟩
      · cases missing with
        | nil =>
            rw [List.append_nil] at hword
            exact ⟨[word], words, [], rfl, by simp [hword], hlater, .inl rfl⟩
        | cons x missing =>
            refine ⟨[], word :: words, text, rfl, rfl, h, ?_⟩
            cases text with
            | nil => exact .inl rfl
            | cons y text =>
                obtain ⟨lead, rest, hcons, hlead, hrest⟩ := hwords word (by simp)
                rw [hcons, List.cons_append, List.cons.injEq] at hword
                obtain ⟨rfl, rfl⟩ := hword
                refine .inr ⟨lead, text, _, rfl, hlead, ?_, ?_⟩
                · rw [hcons]
                  simp
                · exact fun z hz => hrest z (List.mem_append_left _ hz)
      · obtain ⟨first, second, part, rfl, rfl, hpart, hincomplete⟩ :=
          ih (fun w hw => hwords w (List.mem_cons_of_mem word hw)) h'.symm
        exact ⟨word :: first, second, part, rfl, by simp [htext], hpart, hincomplete⟩

theorem stream_append (C : Code α) (buffer : List α) (chunks : List (List α)) :
    (C.stream buffer chunks).1.flatten ++ (C.stream buffer chunks).2 =
      buffer ++ chunks.flatten := by
  induction chunks generalizing buffer with
  | nil => simp [stream]
  | cons chunk chunks ih =>
      rw [stream]
      dsimp only
      rw [List.flatten_cons, List.append_assoc, ih, ← List.append_assoc, cut_append,
        List.flatten_cons, List.append_assoc]

theorem stream_incomplete (hbuffer : buffer = [] ∨ C.Incomplete buffer) :
    (C.stream buffer chunks).2 = [] ∨ C.Incomplete (C.stream buffer chunks).2 := by
  induction chunks generalizing buffer with
  | nil => exact hbuffer
  | cons chunk chunks ih => exact ih (cut_incomplete C (buffer ++ chunk))

/-- A text of whole words comes out in pieces of whole words, and nothing of it is kept. -/
theorem stream_words (hwords : ∀ word ∈ words, C.IsWord word)
    (hbuffer : buffer = [] ∨ C.Incomplete buffer)
    (h : buffer ++ chunks.flatten = words.flatten) :
    ∃ groups : List (List (List α)), groups.flatten = words ∧
      C.stream buffer chunks = (groups.map List.flatten, []) := by
  induction chunks generalizing buffer words with
  | nil =>
      rw [List.flatten_nil, List.append_nil] at h
      have hwhole := cut_words hwords (.inl rfl)
      have hpart : C.cut (([] : List (List α)).flatten ++ buffer) = _ :=
        cut_words (by simp) hbuffer
      rw [List.append_nil, ← h] at hwhole
      rw [List.flatten_nil, List.nil_append, hwhole, Prod.mk.injEq] at hpart
      obtain ⟨hnil, rfl⟩ := hpart
      cases words with
      | nil => exact ⟨[], rfl, rfl⟩
      | cons word words =>
          rw [List.flatten_cons] at h
          exact absurd (List.append_eq_nil_iff.mp h.symm).1 (hwords word (by simp)).ne_nil
  | cons chunk chunks ih =>
      rw [List.flatten_cons, ← List.append_assoc] at h
      obtain ⟨first, second, part, rfl, htext, hsecond, hincomplete⟩ := exists_split hwords h
      have hcut : C.cut (buffer ++ chunk) = (first.flatten, part) := by
        rw [htext]
        exact cut_words (fun w hw => hwords w (List.mem_append_left _ hw)) hincomplete
      obtain ⟨groups, rfl, hstream⟩ :=
        ih (fun w hw => hwords w (List.mem_append_right _ hw)) hincomplete hsecond
      refine ⟨first :: groups, rfl, ?_⟩
      rw [stream, hcut]
      dsimp only
      rw [hstream]
      rfl

end Code

end Adb.LeadCodes
