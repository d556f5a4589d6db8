import Mathlib.Data.List.Infix

/-!
Two endpoints that open streams to each other over a link that keeps the order
of messages: what an endpoint may do on its own, what it does about a message,
and what the messages in flight say about the other side.
-/

namespace Adb.StreamProtocol

universe u

/-- Where the stream with a local id stands at its endpoint. -/
inductive Stage where
  | fresh
  | idle
  | opening
  | joined (remote : Nat)
  | gone
  deriving DecidableEq, Repr

namespace Stage

/-- How a stream gets on by itself; to be joined takes a message. -/
def Advances : Stage → Stage → Prop
  | .fresh, .joined _ => False
  | .fresh, _ => True
  | .idle, later => later = .idle ∨ later = .opening ∨ later = .gone
  | .opening, later => later = .opening ∨ later = .gone
  | .joined remote, later => later = .joined remote ∨ later = .gone
  | .gone, later => later = .gone

theorem Advances.refl (stage : Stage) : stage.Advances stage := by
  cases stage <;> simp [Advances]

theorem Advances.trans {x y z : Stage} (hxy : x.Advances y) (hyz : y.Advances z) :
    x.Advances z := by
  cases x with
  | fresh =>
      cases z with
      | joined remote =>
          cases y with
          | joined => exact hxy
          | _ => simp [Advances] at hyz
      | _ => trivial
  | idle =>
      rcases hxy with rfl | rfl | rfl
      · exact hyz
      · exact .inr hyz
      · exact .inr (.inr hyz)
  | opening =>
      rcases hxy with rfl | rfl
      · exact hyz
      · exact .inr hyz
  | joined remote =>
      rcases hxy with rfl | rfl
      · exact hyz
      · exact .inr hyz
  | gone =>
      obtain rfl := hxy
      exact hyz

/-- The other side may have been asked to open the stream. -/
def Opened : Stage → Prop
  | .opening | .joined _ | .gone => True
  | .fresh | .idle => False

/-- The stream has been joined, or never will be. -/
def Settled : Stage → Prop
  | .joined _ | .gone => True
  | .fresh | .idle | .opening => False

theorem Opened.advances {x y : Stage} (hx : x.Opened) (h : x.Advances y) : y.Opened := by
  cases x with
  | opening => rcases h with rfl | rfl <;> trivial
  | joined => rcases h with rfl | rfl <;> trivial
  | gone =>
      obtain rfl := h
      trivial
  | _ => exact hx.elim

theorem Settled.advances {x y : Stage} (hx : x.Settled) (h : x.Advances y) : y.Settled := by
  cases x with
  | joined => rcases h with rfl | rfl <;> trivial
  | gone =>
      obtain rfl := h
      trivial
  | _ => exact hx.elim

theorem Advances.of_joined {x : Stage} {remote : Nat} (h : x.Advances (.joined remote)) :
    x = .joined remote := by
  cases x <;> simp_all [Advances]

/-- The stream is joined to this remote id, or gone. -/
def Agrees (stage : Stage) (remote : Nat) : Prop := stage = .joined remote ∨ stage = .gone

theorem Agrees.advances {x y : Stage} {remote : Nat} (hx : x.Agrees remote) (h : x.Advances y) :
    y.Agrees remote := by
  rcases hx with rfl | rfl
  · exact h
  · exact .inr h

theorem Agrees.settled {x : Stage} {remote : Nat} (hx : x.Agrees remote) : x.Settled := by
  rcases hx with rfl | rfl <;> trivial

end Stage

/-- The messages about streams, each with the id of the side that sends it first. -/
inductive Message (D : Type u) where
  | opens (i : Nat)
  | okay (i j : Nat)
  | write (i j : Nat) (data : D)
  | close (i j : Nat)

/-- The message speaks for a stream that its sender has joined. -/
def Message.Speaks {D : Type u} (i j : Nat) : Message D → Prop
  | .okay i' j' | .write i' j' _ => i' = i ∧ j' = j
  | _ => False

/-- The data that the messages carry from the stream `i` to the stream `j`. -/
def writes {D : Type u} (i j : Nat) (messages : List (Message D)) : List D :=
  messages.filterMap fun
    | .write i' j' data => if i' = i ∧ j' = j then some data else none
    | _ => none

section Writes

variable {D : Type u} {i j : Nat}

@[simp] theorem writes_append (messages messages' : List (Message D)) :
    writes i j (messages ++ messages') = writes i j messages ++ writes i j messages' :=
  List.filterMap_append

theorem writes_write (i' j' : Nat) (data : D) :
    writes i j [.write i' j' data] = if i' = i ∧ j' = j then [data] else [] := by
  by_cases hpair : i' = i ∧ j' = j
  · simp [writes, hpair]
  · simp [writes, hpair]

theorem writes_eq_nil {messages : List (Message D)} (h : ∀ m ∈ messages, ¬ m.Speaks i j) :
    writes i j messages = [] := by
  rw [writes, List.filterMap_eq_nil_iff]
  intro m hm
  cases m with
  | write i' j' data => exact if_neg (h _ hm)
  | _ => rfl

end Writes

/-- An endpoint: where its streams stand, and what it has accepted on a stream `j`
from a stream `i` of the other side. -/
structure Endpoint (D : Type u) where
  stage : Nat → Stage
  accepted : Nat → Nat → List D

namespace Endpoint

variable {D : Type u}

def join (e : Endpoint D) (j i : Nat) : Endpoint D :=
  { e with stage := Function.update e.stage j (.joined i) }

def accept (e : Endpoint D) (i j : Nat) (data : D) : Endpoint D :=
  { e with accepted := fun i' j' =>
      if i' = i ∧ j' = j then e.accepted i' j' ++ [data] else e.accepted i' j' }

end Endpoint

/-- What an endpoint does on its own, and the messages that it sends meanwhile. -/
structure Moves {D : Type u} (e e' : Endpoint D) (out : List (Message D)) : Prop where
  stages : ∀ j, (e.stage j).Advances (e'.stage j)
  accepted : e'.accepted = e.accepted
  opens : ∀ j, .opens j ∈ out → (e'.stage j).Opened
  speaks : ∀ i j, (∃ m ∈ out, m.Speaks i j) → e.stage i = .joined j

/-- What an endpoint does about a message first: it joins the stream, accepts the
data, or does nothing of the kind. -/
inductive Takes {D : Type u} (e : Endpoint D) :
    Message D → Endpoint D → List (Message D) → Prop where
  | opened (i j : Nat) (hj : ¬ (e.stage j).Settled) : Takes e (.opens i) (e.join j i) [.okay j i]
  | connected (i j : Nat) (hj : ¬ (e.stage j).Settled) : Takes e (.okay i j) (e.join j i) []
  | written (i j : Nat) (data : D) (hj : e.stage j = .joined i) :
      Takes e (.write i j data) (e.accept i j data) []
  | passed (m : Message D) (hokay : ∀ i j, m = .okay i j → e.stage j ≠ .opening)
      (hwrite : ∀ i j data, m = .write i j data → e.stage j ≠ .joined i) : Takes e m e []

/-- Both endpoints, what each has sent, and how much of what the other one has
sent each has heard. -/
@[ext]
structure Linked (D : Type u) where
  ends : Bool → Endpoint D
  sent : Bool → List (Message D)
  heard : Bool → List (Message D)

namespace Linked

variable {D : Type u}

/-- One endpoint has changed, sent and heard something. -/
def act (st : Linked D) (b : Bool) (e : Endpoint D) (out heard : List (Message D)) : Linked D where
  ends := Function.update st.ends b e
  sent := Function.update st.sent b (st.sent b ++ out)
  heard := Function.update st.heard b (st.heard b ++ heard)

end Linked

inductive Step {D : Type u} (st : Linked D) : Linked D → Prop where
  | move (b : Bool) {e : Endpoint D} {out : List (Message D)} (h : Moves (st.ends b) e out) :
      Step st (st.act b e out [])
  | hear (b : Bool) {m : Message D} {rest out out' : List (Message D)} {e e' : Endpoint D}
      (hm : st.sent (!b) = st.heard b ++ m :: rest) (htakes : Takes (st.ends b) m e out)
      (h : Moves e e' out') : Step st (st.act b e' (out ++ out') [m])

/-- The stream `i` of `b` was joined for a stream `j` that the other side had asked
to open, and nothing was written on it before the other side was told. -/
def Pending {D : Type u} (st : Linked D) (b : Bool) (i j : Nat) : Prop :=
  ((st.ends (!b)).stage j).Opened ∧ ∃ before after, st.sent b = before ++ .okay i j :: after ∧
    ∀ m ∈ before, ¬ m.Speaks i j

/-- What is known of one endpoint and of what it has sent. -/
structure Coherent {D : Type u} (st : Linked D) (b : Bool) : Prop where
  order : st.heard b <+: st.sent (!b)
  opens : ∀ j, .opens j ∈ st.sent b → ((st.ends b).stage j).Opened
  speaks : ∀ i j, (∃ m ∈ st.sent b, m.Speaks i j) → ((st.ends b).stage i).Agrees j
  met : ∀ i j, ((st.ends b).stage i = .joined j ∨ ∃ m ∈ st.sent b, m.Speaks i j) →
    ((st.ends (!b)).stage j).Agrees i ∨ Pending st b i j
  settled : ∀ i j, (∃ m ∈ st.heard b, m.Speaks i j) → ((st.ends b).stage j).Settled
  accepted : ∀ i j, (st.ends b).accepted i j <+: writes i j (st.heard b)
  joined : ∀ i j, (st.ends b).stage j = .joined i →
    (st.ends b).accepted i j = writes i j (st.heard b)

section Coherence

variable {D : Type u} {st : Linked D} {b c : Bool} {e e' : Endpoint D}
  {out heard : List (Message D)}

@[simp] theorem act_ends_self : (st.act b e out heard).ends b = e := Function.update_self ..

@[simp] theorem act_sent_self : (st.act b e out heard).sent b = st.sent b ++ out :=
  Function.update_self ..

@[simp] theorem act_heard_self : (st.act b e out heard).heard b = st.heard b ++ heard :=
  Function.update_self ..

@[simp] theorem act_ends_other : (st.act b e out heard).ends (!b) = st.ends (!b) :=
  Function.update_of_ne (by simp) ..

@[simp] theorem act_sent_other : (st.act b e out heard).sent (!b) = st.sent (!b) :=
  Function.update_of_ne (by simp) ..

@[simp] theorem act_heard_other : (st.act b e out heard).heard (!b) = st.heard (!b) :=
  Function.update_of_ne (by simp) ..

theorem side_cases (b c : Bool) : c = b ∨ c = !b := by
  cases b <;> cases c <;> simp

theorem Pending.grow {st st' : Linked D} {i j : Nat} (h : Pending st b i j)
    (hopened : ((st'.ends (!b)).stage j).Opened) {more : List (Message D)}
    (hsent : st'.sent b = st.sent b ++ more) : Pending st' b i j := by
  obtain ⟨-, before, after, hsplit, hfirst⟩ := h
  exact ⟨hopened, before, after ++ more, by rw [hsent, hsplit]; simp, hfirst⟩

theorem pending_act {i j : Nat} (h : Pending st b i j) : Pending (st.act b e out heard) b i j :=
  h.grow (by simpa using h.1) act_sent_self

theorem pending_act_other {i j : Nat} (h : Pending st (!b) i j)
    (hopened : ((st.ends b).stage j).Opened → (e.stage j).Opened) :
    Pending (st.act b e out heard) (!b) i j := by
  have hbefore := h.1
  rw [Bool.not_not] at hbefore
  refine h.grow ?_ (by rw [act_sent_other]; exact (List.append_nil _).symm)
  rw [Bool.not_not, act_ends_self]
  exact hopened hbefore

/-- One side acts, and the other side still agrees with it. -/
theorem coherent_other (h : Coherent st (!b))
    (hagrees : ∀ i j, ((st.ends b).stage j).Agrees i → (e.stage j).Agrees i)
    (hopened : ∀ j, ((st.ends b).stage j).Opened → (e.stage j).Opened) :
    Coherent (st.act b e out heard) (!b) := by
  have horder := h.order
  rw [Bool.not_not] at horder
  refine ⟨?_, ?_, ?_, ?_, ?_, ?_, ?_⟩
  · rw [act_heard_other, Bool.not_not, act_sent_self]
    exact horder.trans (List.prefix_append _ _)
  · simpa using h.opens
  · simpa using h.speaks
  · simp only [act_sent_other, act_ends_other, Bool.not_not, act_ends_self]
    intro i j hspeaks
    have hmet := h.met i j hspeaks
    rw [Bool.not_not] at hmet
    exact hmet.imp (hagrees i j) fun hpending => pending_act_other hpending (hopened j)
  · simpa using h.settled
  · simpa using h.accepted
  · simpa using h.joined

theorem coherent_move (h : ∀ c, Coherent st c) (hmoves : Moves (st.ends b) e out) (c : Bool) :
    Coherent (st.act b e out []) c := by
  rcases side_cases b c with rfl | rfl
  · have hb := h c
    refine ⟨?_, ?_, ?_, ?_, ?_, ?_, ?_⟩
    · simpa using hb.order
    · simp only [act_sent_self, act_ends_self, List.mem_append]
      rintro j (hold | hnew)
      · exact (hb.opens j hold).advances (hmoves.stages j)
      · exact hmoves.opens j hnew
    · simp only [act_sent_self, act_ends_self, List.mem_append]
      rintro i j ⟨m, hold | hnew, hm⟩
      · exact (hb.speaks i j ⟨m, hold, hm⟩).advances (hmoves.stages i)
      · have hjoined : ((st.ends c).stage i).Agrees j := .inl (hmoves.speaks i j ⟨m, hnew, hm⟩)
        exact hjoined.advances (hmoves.stages i)
    · simp only [act_sent_self, act_ends_self, act_ends_other, List.mem_append]
      intro i j hspeaks
      have hbefore : (st.ends c).stage i = .joined j ∨ ∃ m ∈ st.sent c, m.Speaks i j := by
        rcases hspeaks with hjoined | ⟨m, hold | hnew, hm⟩
        · exact .inl (Stage.Advances.of_joined (hjoined ▸ hmoves.stages i))
        · exact .inr ⟨m, hold, hm⟩
        · exact .inl (hmoves.speaks i j ⟨m, hnew, hm⟩)
      exact (hb.met i j hbefore).imp_right pending_act
    · simp only [act_heard_self, act_ends_self, List.append_nil]
      exact fun i j hm => (hb.settled i j hm).advances (hmoves.stages j)
    · simp only [act_heard_self, act_ends_self, List.append_nil, hmoves.accepted]
      exact hb.accepted
    · simp only [act_heard_self, act_ends_self, List.append_nil, hmoves.accepted]
      intro i j hjoined
      exact hb.joined i j (Stage.Advances.of_joined (hjoined ▸ hmoves.stages j))
  · exact coherent_other (h (!b)) (fun i j hagrees => hagrees.advances (hmoves.stages j))
      fun j hopened => hopened.advances (hmoves.stages j)

/-- What comes before a message in one reading of a list and not in the other. -/
theorem mem_of_split {α : Type u} {before after heard rest : List α} {x y : α}
    (h : heard ++ y :: rest = before ++ x :: after) (hy : y ∉ before) (hne : y ≠ x) :
    x ∈ heard := by
  rcases List.append_eq_append_iff.mp h with ⟨l, hbefore, hl⟩ | ⟨l, hheard, hl⟩
  · cases l with
    | nil => exact absurd (List.cons.inj hl).1 hne
    | cons z l =>
        obtain ⟨rfl, -⟩ := List.cons.inj hl
        exact absurd (hbefore ▸ List.mem_append_right _ List.mem_cons_self) hy
  · cases l with
    | nil => exact absurd (List.cons.inj hl).1.symm hne
    | cons z l =>
        obtain ⟨rfl, -⟩ := List.cons.inj hl
        exact hheard ▸ List.mem_append_right _ List.mem_cons_self

/-- When a message for a joined stream arrives, the stream was joined before, or
the endpoint joins it now. -/
theorem settled_of_arrival (h : ∀ c, Coherent st c) {m : Message D} {rest : List (Message D)}
    (hm : st.sent (!b) = st.heard b ++ m :: rest) {i j : Nat} (hspeaks : m.Speaks i j) :
    ((st.ends b).stage j).Settled ∨ (m = .okay i j ∧ (st.ends b).stage j = .opening) := by
  have hmem : m ∈ st.sent (!b) := hm ▸ List.mem_append_right _ List.mem_cons_self
  have hmet := (h (!b)).met i j (.inr ⟨m, hmem, hspeaks⟩)
  rw [Bool.not_not] at hmet
  rcases hmet with hagrees | ⟨hopened, before, after, hsplit, hfirst⟩
  · exact .inl hagrees.settled
  · rw [Bool.not_not] at hopened
    by_cases hokay : m = .okay i j
    · cases hstage : (st.ends b).stage j with
      | opening => exact .inr ⟨hokay, rfl⟩
      | joined | gone => exact .inl trivial
      | fresh | idle => simp [hstage, Stage.Opened] at hopened
    · have hheard : .okay i j ∈ st.heard b :=
        mem_of_split (hm.symm.trans hsplit) (fun hbefore => hfirst m hbefore hspeaks) hokay
      exact .inl ((h b).settled i j ⟨_, hheard, rfl, rfl⟩)

theorem join_stage (i j k : Nat) :
    (e.join j i).stage k = if k = j then .joined i else e.stage k := by
  by_cases hk : k = j
  · subst hk
    simp [Endpoint.join]
  · simp [Endpoint.join, hk]

section Join

variable {i j : Nat} (hb : Coherent st b) (hstage : ¬ ((st.ends b).stage j).Settled)

include hb hstage

theorem not_speaks_sent (i' : Nat) : ∀ m ∈ st.sent b, ¬ m.Speaks j i' := fun m hm hspeaks =>
  hstage ((hb.speaks j i' ⟨m, hm, hspeaks⟩).settled)

theorem not_speaks_heard (i' : Nat) : ∀ m ∈ st.heard b, ¬ m.Speaks i' j := fun m hm hspeaks =>
  hstage (hb.settled i' j ⟨m, hm, hspeaks⟩)

/-- What is said of a stream once `j` is joined to `i`: as before, unless it is `j` itself. -/
theorem speaks_join (hreply : ∀ m ∈ out, m = .okay j i) {i' j' : Nat}
    (hspeaks : ((st.ends b).join j i).stage i' = .joined j' ∨
      ∃ m ∈ st.sent b ++ out, m.Speaks i' j') :
    (i' = j ∧ j' = i) ∨
      (i' ≠ j ∧ ((st.ends b).stage i' = .joined j' ∨ ∃ m ∈ st.sent b, m.Speaks i' j')) := by
  rcases hspeaks with hjoined | ⟨m, hm, hspeaks⟩
  · rw [join_stage] at hjoined
    split at hjoined
    · rename_i hi
      exact .inl ⟨hi, (Stage.joined.inj hjoined).symm⟩
    · rename_i hi
      exact .inr ⟨hi, .inl hjoined⟩
  · rcases List.mem_append.mp hm with hold | hnew
    · refine .inr ⟨?_, .inr ⟨m, hold, hspeaks⟩⟩
      rintro rfl
      exact not_speaks_sent hb hstage j' m hold hspeaks
    · rw [hreply m hnew] at hspeaks
      exact .inl ⟨hspeaks.1.symm, hspeaks.2.symm⟩

theorem met_join (hout : (out = [] ∧ ((st.ends (!b)).stage i).Agrees j) ∨
      (out = [.okay j i] ∧ ((st.ends (!b)).stage i).Opened)) {i' j' : Nat}
    (hspeaks : ((st.ends b).join j i).stage i' = .joined j' ∨
      ∃ m ∈ st.sent b ++ out, m.Speaks i' j') :
    ((st.ends (!b)).stage j').Agrees i' ∨
      Pending (st.act b ((st.ends b).join j i) out heard) b i' j' := by
  have hreply : ∀ m ∈ out, m = .okay j i := by
    rcases hout with ⟨rfl, -⟩ | ⟨rfl, -⟩
    · simp
    · simp
  rcases speaks_join hb hstage hreply hspeaks with ⟨rfl, rfl⟩ | ⟨-, hbefore⟩
  · rcases hout with ⟨-, hagrees⟩ | ⟨rfl, hopened⟩
    · exact .inl hagrees
    · exact .inr ⟨by simpa using hopened, st.sent b, [], by simp, not_speaks_sent hb hstage j'⟩
  · exact (hb.met i' j' hbefore).imp_right pending_act

theorem accepted_join {i' j' : Nat} (hjoined : ((st.ends b).join j i).stage j' = .joined i') :
    (st.ends b).accepted i' j' = writes i' j' (st.heard b) := by
  rw [join_stage] at hjoined
  split at hjoined
  · rename_i hj
    subst hj
    have hnone : writes i' j' (st.heard b) = [] :=
      writes_eq_nil (not_speaks_heard hb hstage i')
    have haccepted := hb.accepted i' j'
    rw [hnone] at haccepted ⊢
    exact List.prefix_nil.mp haccepted
  · exact hb.joined i' j' hjoined

end Join

theorem coherent_join (h : ∀ c, Coherent st c) {m : Message D} {rest : List (Message D)}
    (hm : st.sent (!b) = st.heard b ++ m :: rest) {i j : Nat}
    (hstage : ¬ ((st.ends b).stage j).Settled)
    (hdata : ∀ i' j', writes i' j' [m] = []) (hspoken : ∀ i' j', m.Speaks i' j' → j' = j)
    (hout : (out = [] ∧ ((st.ends (!b)).stage i).Agrees j) ∨
      (out = [.okay j i] ∧ ((st.ends (!b)).stage i).Opened)) (c : Bool) :
    Coherent (st.act b ((st.ends b).join j i) out [m]) c := by
  rcases side_cases b c with rfl | rfl
  · have hb := h c
    have hreply : ∀ m' ∈ out, m' = .okay j i := by
      rcases hout with ⟨rfl, -⟩ | ⟨rfl, -⟩
      · simp
      · simp
    refine ⟨?_, ?_, ?_, ?_, ?_, ?_, ?_⟩
    · simp [hm]
    · simp only [act_sent_self, act_ends_self, List.mem_append, join_stage]
      rintro j' (hold | hnew)
      · split
        · trivial
        · exact hb.opens j' hold
      · cases hreply _ hnew
    · simp only [act_sent_self, act_ends_self]
      intro i' j' hspeaks
      rw [join_stage]
      rcases speaks_join hb hstage hreply (.inr hspeaks) with ⟨rfl, rfl⟩ | ⟨hi, hbefore⟩
      · rw [if_pos rfl]
        exact .inl rfl
      · rw [if_neg hi]
        exact hbefore.elim Or.inl fun hsaid => hb.speaks i' j' hsaid
    · simp only [act_sent_self, act_ends_self, act_ends_other]
      exact fun i' j' hspeaks => met_join hb hstage hout hspeaks
    · simp only [act_heard_self, act_ends_self, List.mem_append, List.mem_singleton, join_stage]
      rintro i' j' ⟨m', hold | rfl, hspeaks⟩
      · split
        · trivial
        · exact hb.settled i' j' ⟨m', hold, hspeaks⟩
      · rw [if_pos (hspoken i' j' hspeaks)]
        trivial
    · simp only [act_heard_self, act_ends_self, writes_append, hdata, List.append_nil]
      exact hb.accepted
    · simp only [act_heard_self, act_ends_self, writes_append, hdata, List.append_nil]
      exact fun i' j' hjoined => accepted_join hb hstage hjoined
  · refine coherent_other (h (!b)) (fun i' j' hagrees => ?_) fun j' hopened => ?_
    · rw [join_stage, if_neg]
      · exact hagrees
      · rintro rfl
        exact hstage hagrees.settled
    · rw [join_stage]
      split
      · trivial
      · exact hopened

theorem coherent_hear (h : ∀ c, Coherent st c) {m : Message D} {rest : List (Message D)}
    (hm : st.sent (!b) = st.heard b ++ m :: rest) (hstage : e.stage = (st.ends b).stage)
    (hokay : ∀ i j, m = .okay i j → (st.ends b).stage j ≠ .opening)
    (haccepted : ∀ i j, e.accepted i j <+: writes i j (st.heard b ++ [m]))
    (hjoined : ∀ i j, e.stage j = .joined i → e.accepted i j = writes i j (st.heard b ++ [m]))
    (c : Bool) : Coherent (st.act b e [] [m]) c := by
  rcases side_cases b c with rfl | rfl
  · have hb := h c
    refine ⟨?_, ?_, ?_, ?_, ?_, ?_, ?_⟩
    · simp [hm]
    · simpa [hstage] using hb.opens
    · simpa [hstage] using hb.speaks
    · simp only [act_sent_self, act_ends_self, act_ends_other, List.append_nil, hstage]
      exact fun i j hspeaks => (hb.met i j hspeaks).imp_right pending_act
    · simp only [act_heard_self, act_ends_self, List.mem_append, List.mem_singleton, hstage]
      rintro i j ⟨m', hold | rfl, hspeaks⟩
      · exact hb.settled i j ⟨m', hold, hspeaks⟩
      · exact (settled_of_arrival h hm hspeaks).resolve_right fun hopening =>
          hokay i j hopening.1 hopening.2
    · simpa using haccepted
    · simpa using hjoined
  · exact coherent_other (h (!b)) (fun i j => by rw [hstage]; exact id)
      fun j => by rw [hstage]; exact id

theorem coherent_takes (h : ∀ c, Coherent st c) {m : Message D} {rest : List (Message D)}
    (hm : st.sent (!b) = st.heard b ++ m :: rest) (htakes : Takes (st.ends b) m e out) (c : Bool) :
    Coherent (st.act b e out [m]) c := by
  have hmem : m ∈ st.sent (!b) := hm ▸ List.mem_append_right _ List.mem_cons_self
  cases htakes with
  | opened i j hj =>
      refine coherent_join h hm hj (fun _ _ => rfl) nofun (.inr ⟨rfl, ?_⟩) c
      exact (h (!b)).opens i hmem
  | connected i j hj =>
      refine coherent_join h hm hj (fun _ _ => rfl) (fun _ _ hspeaks => hspeaks.2.symm)
        (.inl ⟨rfl, ?_⟩) c
      exact (h (!b)).speaks i j ⟨_, hmem, rfl, rfl⟩
  | written i j data hj =>
      have hstage : ((st.ends b).accept i j data).stage = (st.ends b).stage := rfl
      refine coherent_hear h hm hstage nofun ?_ ?_ c
      · intro i' j'
        rw [writes_append, writes_write]
        by_cases hpair : i' = i ∧ j' = j
        · obtain ⟨rfl, rfl⟩ := hpair
          rw [if_pos ⟨rfl, rfl⟩, ← (h b).joined i' j' hj]
          simp [Endpoint.accept]
        · rw [if_neg (fun heq => hpair ⟨heq.1.symm, heq.2.symm⟩), List.append_nil]
          simpa only [Endpoint.accept, if_neg hpair] using (h b).accepted i' j'
      · intro i' j' hjoined
        rw [writes_append, writes_write]
        by_cases hpair : i' = i ∧ j' = j
        · obtain ⟨rfl, rfl⟩ := hpair
          rw [if_pos ⟨rfl, rfl⟩, ← (h b).joined i' j' hj]
          simp [Endpoint.accept]
        · rw [if_neg (fun heq => hpair ⟨heq.1.symm, heq.2.symm⟩), List.append_nil]
          simpa only [Endpoint.accept, if_neg hpair] using (h b).joined i' j' hjoined
  | passed _ hokay hwrite =>
      have hnone : ∀ i j, (st.ends b).stage j = .joined i → writes i j [m] = [] := by
        intro i j hjoined
        cases m with
        | write i' j' data =>
            rw [writes_write, if_neg]
            rintro ⟨rfl, rfl⟩
            exact hwrite i' j' data rfl hjoined
        | _ => rfl
      refine coherent_hear h hm rfl hokay ?_ ?_ c
      · intro i j
        rw [writes_append]
        exact ((h b).accepted i j).trans (List.prefix_append _ _)
      · intro i j hjoined
        rw [writes_append, hnone i j hjoined, List.append_nil]
        exact (h b).joined i j hjoined

@[simp] theorem act_act (e' : Endpoint D) (out' heard' : List (Message D)) :
    (st.act b e out heard).act b e' out' heard' = st.act b e' (out ++ out') (heard ++ heard') := by
  simp [Linked.act]

theorem coherent_step {st' : Linked D} (h : ∀ c, Coherent st c) (hstep : Step st st') (c : Bool) :
    Coherent st' c := by
  cases hstep with
  | move b hmoves => exact coherent_move h hmoves c
  | @hear b m rest out out' e e' hm htakes hmoves =>
      have htaken := coherent_takes h hm htakes
      have hmoved : ((st.act b e out [m]).act b e' out' []) = st.act b e' (out ++ out') [m] :=
        act_act e' out' []
      rw [← hmoved]
      refine coherent_move htaken ?_ c
      rwa [act_ends_self]

/-- An endpoint that does something on its own before and after it takes a message. -/
theorem coherent_hears {m : Message D} {rest out₁ out₂ out₃ : List (Message D)}
    {e₁ e₂ e₃ : Endpoint D} (h : ∀ c, Coherent st c)
    (hm : st.sent (!b) = st.heard b ++ m :: rest) (hbefore : Moves (st.ends b) e₁ out₁)
    (htakes : Takes e₁ m e₂ out₂) (hafter : Moves e₂ e₃ out₃) (c : Bool) :
    Coherent (st.act b e₃ (out₁ ++ (out₂ ++ out₃)) [m]) c := by
  have hmoved := coherent_step h (.move b hbefore)
  have hsent : (st.act b e₁ out₁ []).sent (!b) = (st.act b e₁ out₁ []).heard b ++ m :: rest := by
    rw [act_sent_other, act_heard_self, List.append_nil]
    exact hm
  have htaken : Takes ((st.act b e₁ out₁ []).ends b) m e₂ out₂ := by rwa [act_ends_self]
  have hdone := coherent_step hmoved (.hear b hsent htaken hafter) c
  rwa [act_act] at hdone

theorem coherent_silent (hsent : ∀ c, st.sent c = []) (hheard : ∀ c, st.heard c = [])
    (haccepted : ∀ c i j, (st.ends c).accepted i j = [])
    (hjoined : ∀ c i j, (st.ends c).stage i ≠ .joined j) (c : Bool) : Coherent st c where
  order := by simp [hsent, hheard]
  opens := by simp [hsent]
  speaks := by simp [hsent]
  met := by simp [hsent, hjoined]
  settled := by simp [hheard]
  accepted := by simp [haccepted]
  joined := fun i j h => absurd h (hjoined c j i)

/-- What an endpoint has accepted on a stream is what was written there, in this
order and from the start. -/
theorem Coherent.accepted_sent (h : Coherent st b) (i j : Nat) :
    (st.ends b).accepted i j <+: writes i j (st.sent (!b)) := by
  obtain ⟨rest, hrest⟩ := h.order
  refine (h.accepted i j).trans ?_
  rw [← hrest, writes_append]
  exact List.prefix_append _ _

end Coherence

end Adb.StreamProtocol
