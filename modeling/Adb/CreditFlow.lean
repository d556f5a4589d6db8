import Adb.StreamProtocol

/-!
Flow control between two endpoints of a link: a stream that may not write has
something of its own on the way, or its last data is still held on the other side,
or it is being told to go on.  No order of turns loses this credit.
-/

namespace Adb.CreditFlow

open Adb.StreamProtocol

universe u

/-- Which streams of an endpoint may write, and which of them hold data that has been
accepted but not passed on. -/
structure Gauge where
  ready : Nat → Prop
  holds : Nat → Prop

/-- What an endpoint does in one turn, on its own or about the message `m`, as far as it
concerns the streams that may write. -/
structure Turn {D : Type u} (e e' : Endpoint D) (g g' : Gauge) (m : Option (Message D))
    (out : List (Message D)) : Prop where
  stays : ∀ i j, e.stage i = .joined j → e'.stage i = .joined j ∨ e'.stage i = .gone
  gone : ∀ i, e.stage i = .gone → e'.stage i = .gone
  begins : ∀ i j, e'.stage i = .joined j → e.stage i ≠ .joined j → g'.ready i
  resumes : ∀ i j, e.stage i = .joined j → e'.stage i = .joined j → g.ready i →
    g'.ready i ∨ ∃ data, .write i j data ∈ out
  told : ∀ i j, m = some (.okay j i) → e.stage i = .joined j → e'.stage i = .joined j →
    g'.ready i
  drains : ∀ i j, e.stage j = .joined i → e'.stage j = .joined i → g.holds j →
    g'.holds j ∨ .okay j i ∈ out
  fed : ∀ i j data, m = some (.write i j data) → e.stage j = .joined i →
    e'.stage j = .joined i → g'.holds j ∨ .okay j i ∈ out

/-- What is on its way to a side. -/
def inFlight {D : Type u} (st : Linked D) (b : Bool) : List (Message D) :=
  (st.sent (!b)).drop (st.heard b).length

/-- The stream will not be joined to this remote id any more. -/
def Refuses (stage : Stage) (remote : Nat) : Prop := stage.Settled ∧ stage ≠ .joined remote

/-- A joined stream may write, or something of its own or an answer to it is not yet
where it goes, or the other side has left the stream. -/
def Credited {D : Type u} (st : Linked D) (g : Bool → Gauge) (b : Bool) : Prop :=
  ∀ i j, (st.ends b).stage i = .joined j →
    Refuses ((st.ends (!b)).stage j) i ∨ (g b).ready i ∨
      (∃ data, .write i j data ∈ inFlight st (!b)) ∨
      ((st.ends (!b)).stage j = .joined i ∧ (g (!b)).holds j) ∨ .okay j i ∈ inFlight st b

section Turns

variable {D : Type u} {st : Linked D} {b : Bool} {e e' : Endpoint D} {g g' : Gauge}
  {m : Option (Message D)} {out : List (Message D)} {i j : Nat}

theorem Turn.refuses (h : Turn e e' g g' m out) (hrefuses : Refuses (e.stage j) i) :
    Refuses (e'.stage j) i := by
  obtain ⟨hsettled, hne⟩ := hrefuses
  have hgone : e'.stage j = .gone → Refuses (e'.stage j) i := fun hgone => by
    simp [Refuses, hgone, Stage.Settled]
  cases hstage : e.stage j with
  | joined k =>
      rcases h.stays j k hstage with hsame | hleft
      · rw [hsame, ← hstage]
        exact ⟨hsettled, hne⟩
      · exact hgone hleft
  | gone => exact hgone (h.gone j hstage)
  | fresh | idle | opening => simp [hstage, Stage.Settled] at hsettled

theorem Turn.remains (h : Turn e e' g g' m out) (hjoined : e.stage j = .joined i) :
    e'.stage j = .joined i ∨ Refuses (e'.stage j) i :=
  (h.stays j i hjoined).imp_right fun hgone => by simp [Refuses, hgone, Stage.Settled]

theorem sent_eq (h : Coherent st b) : st.sent (!b) = st.heard b ++ inFlight st b := by
  obtain ⟨later, hlater⟩ := h.order
  rw [inFlight, ← hlater, List.drop_left]

/-- The message that is heard was the first one on its way. -/
theorem inFlight_act_self
    (hm : ∀ x, m = some x → ∃ rest, st.sent (!b) = st.heard b ++ x :: rest) :
    inFlight st b = m.toList ++ inFlight (st.act b e' out m.toList) b := by
  rw [inFlight, inFlight, act_sent_other, act_heard_self]
  cases m with
  | none => simp
  | some x =>
      obtain ⟨rest, hrest⟩ := hm x rfl
      simp [hrest]

theorem inFlight_act_other (h : Coherent st (!b)) :
    inFlight (st.act b e' out m.toList) (!b) = inFlight st (!b) ++ out := by
  have hsent := sent_eq h
  rw [Bool.not_not] at hsent
  rw [inFlight, act_heard_other, Bool.not_not, act_sent_self, hsent, List.append_assoc,
    List.drop_left]

theorem credited_turn (h : ∀ c, Coherent st c) {gauges : Bool → Gauge}
    (hcredit : ∀ c, Credited st gauges c) (hturn : Turn (st.ends b) e' (gauges b) g' m out)
    (hm : ∀ x, m = some x → ∃ rest, st.sent (!b) = st.heard b ++ x :: rest) (c : Bool) :
    Credited (st.act b e' out m.toList) (Function.update gauges b g') c := by
  have hself := @inFlight_act_self D st b e' m out hm
  have hother := @inFlight_act_other D st b e' m out (h (!b))
  have hlater : ∀ {x}, x ∈ inFlight st (!b) → x ∈ inFlight (st.act b e' out m.toList) (!b) :=
    fun hx => hother ▸ List.mem_append_left _ hx
  have hsent : ∀ {x}, x ∈ out → x ∈ inFlight (st.act b e' out m.toList) (!b) :=
    fun hx => hother ▸ List.mem_append_right _ hx
  have harrives : ∀ {x}, x ∈ inFlight st b →
      m = some x ∨ x ∈ inFlight (st.act b e' out m.toList) b := by
    intro x hx
    rw [hself] at hx
    exact (List.mem_append.mp hx).imp_left Option.mem_toList.mp
  have hne : (!b) ≠ b := by simp
  rcases side_cases b c with rfl | rfl
  · -- the side that acts may write
    intro i j hjoined
    simp only [act_ends_self, act_ends_other, Function.update_self,
      Function.update_of_ne hne] at hjoined ⊢
    by_cases hbefore : (st.ends c).stage i = .joined j
    · rcases hcredit c i j hbefore with hrefuses | hready | ⟨data, hdata⟩ | hholds | hokay
      · exact .inl hrefuses
      · rcases hturn.resumes i j hbefore hjoined hready with hready | ⟨data, hdata⟩
        · exact .inr (.inl hready)
        · exact .inr (.inr (.inl ⟨data, hsent hdata⟩))
      · exact .inr (.inr (.inl ⟨data, hlater hdata⟩))
      · exact .inr (.inr (.inr (.inl hholds)))
      · rcases harrives hokay with htold | hokay
        · exact .inr (.inl (hturn.told i j htold hbefore hjoined))
        · exact .inr (.inr (.inr (.inr hokay)))
    · exact .inr (.inl (hturn.begins i j hjoined hbefore))
  · -- the side that acts holds the data of the other one
    intro i j hjoined
    simp only [act_ends_self, act_ends_other, Bool.not_not, Function.update_self,
      Function.update_of_ne hne] at hjoined ⊢
    have hcredit' := hcredit (!b) i j hjoined
    rw [Bool.not_not] at hcredit'
    rcases hcredit' with hrefuses | hready | ⟨data, hdata⟩ | ⟨hstage, hholds⟩ | hokay
    · exact .inl (hturn.refuses hrefuses)
    · exact .inr (.inl hready)
    · rcases harrives hdata with hfed | hdata
      · obtain ⟨rest, hrest⟩ := hm _ hfed
        by_cases hstage : (st.ends b).stage j = .joined i
        · rcases hturn.remains hstage with hstays | hrefuses
          · rcases hturn.fed i j data hfed hstage hstays with hholds | hokay
            · exact .inr (.inr (.inr (.inl ⟨hstays, hholds⟩)))
            · exact .inr (.inr (.inr (.inr (hsent hokay))))
          · exact .inl hrefuses
        · rcases settled_of_arrival h hrest ⟨rfl, rfl⟩ with hsettled | ⟨hokay, -⟩
          · exact .inl (hturn.refuses ⟨hsettled, hstage⟩)
          · cases hokay
      · exact .inr (.inr (.inl ⟨data, hdata⟩))
    · rcases hturn.remains hstage with hstays | hrefuses
      · rcases hturn.drains i j hstage hstays hholds with hholds | hokay
        · exact .inr (.inr (.inr (.inl ⟨hstays, hholds⟩)))
        · exact .inr (.inr (.inr (.inr (hsent hokay))))
      · exact .inl hrefuses
    · exact .inr (.inr (.inr (.inr (hlater hokay))))

end Turns

end Adb.CreditFlow
