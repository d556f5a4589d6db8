import Adb.OfflineTransports
import Adb.StreamSends

/-!
The process with the two threads that each transport has.  `read_transport_thread`
and `write_transport_thread` talk to the main thread over a socket pair, and the
main thread hears of new and finished transports over the registration socket.
-/

namespace Adb.TransportThreads

open Adb.WirePackets
open Adb.SocketTable
open Adb.SocketClosing
open Adb.GraphInvariants
open Adb.ServerState
open Adb.ServerRuns
open Adb.ServerEffects
open Adb.TransitionSystems
open Adb.OfflineTransports
open Adb.StreamSends

/-- Where a thread of a transport stands.  A thread is `starting` until it has
announced itself, `ending` when its loop is left, and `leaving` from the label
`oops` on; the one that drops the last reference is then `removing`. -/
inductive Phase where
  | starting
  | pumping
  | ending
  | leaving
  | removing
  | gone
  deriving DecidableEq, Repr

/-- The reference of a thread that has not called `transport_unref`. -/
def Phase.refs : Phase → Nat
  | .starting | .pumping | .ending | .leaving => 1
  | .removing | .gone => 0

/-- The removal that the thread is about to announce. -/
def Phase.removals : Phase → Nat
  | .removing => 1
  | _ => 0

/-- The read thread is past its last SYNC message. -/
def Phase.ended : Phase → Bool
  | .leaving | .removing | .gone => true
  | .starting | .pumping | .ending => false

inductive Thread where
  | reader
  | writer
  deriving DecidableEq, Repr

/-- What the threads of a transport use of it, and what passes between them and
the main thread.  `toMain` holds the packets that the read thread has put into
the socket pair, `taken` counts those that the write thread has read from it, and
`written` are the packets that it has passed on to the remote. -/
structure Link where
  reader : Phase := .gone
  writer : Phase := .gone
  toMain : List Apacket := []
  taken : Nat := 0
  refCount : Nat := 0
  syncToken : Nat := 1
  active : Bool := false
  written : List Apacket := []
  installed : Bool := false
  deriving DecidableEq, Repr

namespace Link

def phase (l : Link) : Thread → Phase
  | .reader => l.reader
  | .writer => l.writer

def setPhase (l : Link) : Thread → Phase → Link
  | .reader, phase => { l with reader := phase }
  | .writer, phase => { l with writer := phase }

@[simp] theorem setPhase_refCount (l : Link) (w : Thread) (phase : Phase) :
    (l.setPhase w phase).refCount = l.refCount := by cases w <;> rfl

@[simp] theorem setPhase_installed (l : Link) (w : Thread) (phase : Phase) :
    (l.setPhase w phase).installed = l.installed := by cases w <;> rfl

@[simp] theorem phase_refCount (l : Link) (n : Nat) (w : Thread) :
    { l with refCount := n }.phase w = l.phase w := by cases w <;> rfl

/-- What the phases of both threads count for. -/
def total (l : Link) (f : Phase → Nat) : Nat := f l.reader + f l.writer

end Link

/-- A `tmsg` on the registration socket. -/
inductive Message where
  | register (t : TransportRef) (state : ConnectionState) (type : TransportType)
  | remove (t : TransportRef)
  deriving DecidableEq, Repr

def Message.transport : Message → TransportRef
  | .register t _ _ => t
  | .remove t => t

/-- What the main thread does about it. -/
def Message.action : Message → Action
  | .register t state type => .register t state type
  | .remove t => .remove t

def Message.isRegister : Message → Bool
  | .register _ _ _ => true
  | .remove _ => false

structure Process where
  server : Server
  link : TransportRef → Link
  registration : List Message

namespace Process

def initial : Process := ⟨.initial, fun _ => {}, []⟩

def setLink (st : Process) (t : TransportRef) (l : Link) : Process :=
  { st with link := Function.update st.link t l }

/-- The packets that `send_packet` has written and the write thread has not read. -/
def queue (st : Process) (t : TransportRef) : List Apacket :=
  (sentOn t st.server.sockets.trace).drop (st.link t).taken

end Process

/-- The messages on the registration socket that are about a transport. -/
def mail (messages : List Message) (t : TransportRef) : List Message :=
  messages.filter fun m => m.transport = t

/-- The steps of the main thread and of the threads of the transports. -/
inductive Label where
  | callback (action : Action) (env : Oracle)
  | packet (t : TransportRef) (env : Oracle)
  | registration (env : Oracle)
  | announce (t : TransportRef) (state : ConnectionState) (type : TransportType)
  | sendOnline (t : TransportRef) (ok : Bool)
  | readRemote (t : TransportRef) (p : Apacket) (ok : Bool)
  | readFails (t : TransportRef)
  | sendOffline (t : TransportRef) (ok : Bool)
  | take (t : TransportRef) (ok : Bool)
  | takeFails (t : TransportRef)
  | unref (t : TransportRef) (w : Thread)
  | sendRemoval (t : TransportRef) (w : Thread)

/-- The callbacks that no transport thread is behind. -/
def isOwn : Action → Bool
  | .packet _ _ | .register _ _ _ | .remove _ => false
  | _ => true

/-- When a thread can take a step.  New transports are offline, or not accessible. -/
def CanStep (cfg : Config) (st : Process) : Label → Prop
  | .callback action _ =>
      st.server.sockets.halted = none ∧ isOwn action = true ∧ Enabled cfg st.server action
  | .packet t _ =>
      st.server.sockets.halted = none ∧ (st.link t).installed = true ∧ (st.link t).toMain ≠ []
  | .registration _ => st.server.sockets.halted = none ∧ st.registration ≠ []
  | .announce t state _ => (state = .offline ∨ state = .noPerm) ∧
      AuthEvent.created t ∉ st.server.authLog ∧ ∀ m ∈ mail st.registration t, m.isRegister = false
  | .sendOnline t _ => (st.link t).reader = .starting
  | .readRemote t _ _ | .readFails t => (st.link t).reader = .pumping
  | .sendOffline t _ => (st.link t).reader = .ending
  | .take t _ => (st.link t).writer = .pumping ∧ st.queue t ≠ []
  | .takeFails t => (st.link t).writer = .pumping
  | .unref t w => (st.link t).phase w = .leaving
  | .sendRemoval t w => (st.link t).phase w = .removing

/-- `write_packet` of the read thread: a packet that cannot be written ends it. -/
def pump (l : Link) (p : Apacket) (next : Phase) (ok : Bool) : Link :=
  if ok then { l with reader := next, toMain := l.toMain ++ [p] }
  else { l with reader := .leaving }

/-- The transport as `transport_registration_func` starts its threads. -/
def startThreads (st : Process) (t : TransportRef) : Link where
  reader := .starting
  writer := .pumping
  toMain := []
  taken := (sentOn t st.server.sockets.trace).length
  refCount := 2
  syncToken := 1
  active := false
  written := []
  installed := true

/-- One round of `write_transport_thread` with the packet that it has read; `ok`
is the result of `Write`. -/
def writeRound (l : Link) (p : Apacket) (ok : Bool) : Link :=
  let l := { l with taken := l.taken + 1 }
  if p.command = .aSync then
    if p.arg0 = 0 then { l with writer := .leaving }
    else if p.arg1 = l.syncToken then { l with active := true }
    else l
  else if l.active then
    if ok then { l with written := l.written ++ [p] }
    else { l with writer := .leaving }
  else l

/-- The SYNC messages of the read thread. -/
def onlineSync (token : Nat) : Apacket :=
  { command := .aSync, arg0 := 1, arg1 := token, data := [] }

def offlineSync : Apacket := { command := .aSync, arg0 := 0, arg1 := 0, data := [] }

/-- `transport_registration_func`. -/
def registrationFunc (cfg : Config) (env : Oracle) (st : Process) : Message → Process
  | .register t state type =>
      let started := if state = .noPerm then st else st.setLink t (startThreads st t)
      { started with server := step cfg env st.server (.register t state type) }
  | .remove t =>
      { st.setLink t { st.link t with installed := false } with
        server := step cfg env st.server (.remove t) }

/-- `transport_unref`. -/
def transportUnref (st : Process) (t : TransportRef) (w : Thread) : Process :=
  let l := st.link t
  let old := l.refCount
  let l := { l with refCount := old - 1 }
  if old = 0 then
    { st with server := { st.server with sockets := st.server.sockets.halt .check } }
  else st.setLink t (l.setPhase w (if old = 1 then .removing else .gone))

def next (cfg : Config) (st : Process) : Label → Process
  | .callback action env => { st with server := step cfg env st.server action }
  | .packet t env =>
      match (st.link t).toMain with
      | [] => st
      | p :: rest =>
          { st.setLink t { st.link t with toMain := rest } with
            server := step cfg env st.server (.packet t p) }
  | .registration env =>
      match st.registration with
      | [] => st
      | m :: rest => registrationFunc cfg env { st with registration := rest } m
  | .announce t state type =>
      { st with registration := st.registration ++ [.register t state type] }
  | .sendOnline t ok =>
      let l := { st.link t with syncToken := (st.link t).syncToken + 1 }
      st.setLink t (pump l (onlineSync l.syncToken) .pumping ok)
  | .readRemote t p ok =>
      if cfg.host ∧ p.command = .other 0 then st
      else st.setLink t (pump (st.link t) p .pumping ok)
  | .readFails t => st.setLink t { st.link t with reader := .ending }
  | .sendOffline t ok => st.setLink t (pump (st.link t) offlineSync .leaving ok)
  | .take t ok =>
      match st.queue t with
      | [] => st
      | p :: _ => st.setLink t (writeRound (st.link t) p ok)
  | .takeFails t => st.setLink t { st.link t with writer := .leaving }
  | .unref t w => transportUnref st t w
  | .sendRemoval t w =>
      { st.setLink t ((st.link t).setPhase w .gone) with
        registration := st.registration ++ [.remove t] }

instance (cfg : Config) (st : Process) : (l : Label) → Decidable (CanStep cfg st l)
  | .callback action _ =>
      have : Decidable (Enabled cfg st.server action) := inferInstance
      inferInstanceAs (Decidable (_ ∧ _ ∧ _))
  | .packet _ _ => inferInstanceAs (Decidable (_ ∧ _ ∧ _))
  | .registration _ => inferInstanceAs (Decidable (_ ∧ _))
  | .announce _ _ _ => inferInstanceAs (Decidable (_ ∧ _ ∧ _))
  | .sendOnline _ _ | .readRemote _ _ _ | .readFails _ | .sendOffline _ _ | .takeFails _
  | .unref _ _ | .sendRemoval _ _ => inferInstanceAs (Decidable (_ = _))
  | .take _ _ => inferInstanceAs (Decidable (_ ∧ _))

/-- The runs of the threads, in any order of their steps. -/
def threadSystem (cfg : Config) : System Process Label where
  initial st := st = .initial
  enabled st l := CanStep cfg st l
  next st l := next cfg st l

instance (cfg : Config) (st : Process) (l : Label) : Decidable ((threadSystem cfg).enabled st l) :=
  inferInstanceAs (Decidable (CanStep cfg st l))

/-! ### References and removals -/

/-- The references are the threads', and the removal of the transport is
announced once, when both have ended; `removes` counts the messages about it. -/
structure Counted (l : Link) (removes : Nat) : Prop where
  refs : l.refCount = l.total Phase.refs
  removals : removes + l.total Phase.removals =
    if l.installed = true ∧ l.refCount = 0 then 1 else 0
  stopped : l.installed = false → l.refCount = 0

namespace Counted

variable {l l' : Link} {removes : Nat}

theorem total_setPhase (f : Phase → Nat) (w : Thread) (phase : Phase) :
    (l.setPhase w phase).total f + f (l.phase w) = l.total f + f phase := by
  cases w with
  | reader =>
      simp only [Link.setPhase, Link.phase, Link.total]
      omega
  | writer =>
      simp only [Link.setPhase, Link.phase, Link.total]
      omega

/-- Two phases that count alike. -/
def Alike (x y : Phase) : Prop := y = x ∨ x.refs = 1 ∧ y.refs = 1

theorem Alike.counts {x y : Phase} (h : Alike x y) :
    y.refs = x.refs ∧ y.removals = x.removals := by
  rcases h with rfl | ⟨hx, hy⟩
  · exact ⟨rfl, rfl⟩
  · have hnone : ∀ z : Phase, z.refs = 1 → z.removals = 0 := by
      intro z hz
      cases z with
      | removing => cases hz
      | _ => rfl
    exact ⟨hy.trans hx.symm, (hnone y hy).trans (hnone x hx).symm⟩

theorem holding (h : Counted l removes) (hrefs : l'.refCount = l.refCount)
    (hinstalled : l'.installed = l.installed) (hreader : Alike l.reader l'.reader)
    (hwriter : Alike l.writer l'.writer) : Counted l' removes where
  refs := by
    rw [hrefs, h.refs, Link.total, Link.total, hreader.counts.1, hwriter.counts.1]
  removals := by
    rw [hrefs, hinstalled, ← h.removals, Link.total, Link.total, hreader.counts.2,
      hwriter.counts.2]
  stopped := by
    rw [hrefs, hinstalled]
    exact h.stopped

theorem pos_of_leaving (h : Counted l removes) {w : Thread} (hw : l.phase w = .leaving) :
    0 < l.refCount := by
  have hheld := total_setPhase (l := l) Phase.refs w .gone
  rw [hw] at hheld
  rw [h.refs]
  simp only [Phase.refs] at hheld
  omega

theorem of_pos (h : Counted l removes) (hpos : 0 < l.refCount) :
    l.installed = true ∧ removes = 0 ∧ l.total Phase.removals = 0 := by
  have hinstalled : l.installed = true := by
    by_contra hnot
    exact absurd (h.stopped (by simpa using hnot)) (Nat.ne_of_gt hpos)
  have hnone := h.removals
  rw [if_neg fun hboth => Nat.ne_of_gt hpos hboth.2] at hnone
  exact ⟨hinstalled, by omega, by omega⟩

theorem of_removes (h : Counted l removes) (hpos : 0 < removes + l.total Phase.removals) :
    l.installed = true ∧ l.refCount = 0 ∧ removes + l.total Phase.removals = 1 := by
  have hcount := h.removals
  split at hcount
  · rename_i hboth
    exact ⟨hboth.1, hboth.2, hcount⟩
  · omega

theorem unref (h : Counted l removes) {w : Thread} (hw : l.phase w = .leaving) :
    Counted ({ l with refCount := l.refCount - 1 }.setPhase w
      (if l.refCount = 1 then .removing else .gone)) removes := by
  have hpos := h.pos_of_leaving hw
  obtain ⟨hinstalled, hnone, hquiet⟩ := h.of_pos hpos
  have hrefs := h.refs
  have hcounts : ∀ (f : Phase → Nat) phase,
      ({ l with refCount := l.refCount - 1 }.setPhase w phase).total f + f .leaving =
        l.total f + f phase := by
    intro f phase
    have htotal := total_setPhase (l := { l with refCount := l.refCount - 1 }) f w phase
    rw [Link.phase_refCount, hw] at htotal
    exact htotal
  split
  · rename_i hlast
    have hheld := hcounts Phase.refs .removing
    have hremoving := hcounts Phase.removals .removing
    simp only [Phase.refs, Phase.removals] at hheld hremoving
    refine ⟨?_, ?_, ?_⟩
    · simp only [Link.setPhase_refCount]
      omega
    · rw [if_pos (by simp [hinstalled, hlast])]
      omega
    · simp [hlast]
  · rename_i hmore
    have hheld := hcounts Phase.refs .gone
    have hremoving := hcounts Phase.removals .gone
    simp only [Phase.refs, Phase.removals] at hheld hremoving
    refine ⟨?_, ?_, ?_⟩
    · simp only [Link.setPhase_refCount]
      omega
    · rw [if_neg]
      · omega
      · simp only [Link.setPhase_refCount]
        omega
    · simp [hinstalled]

theorem removal (h : Counted l removes) {w : Thread} (hw : l.phase w = .removing) :
    Counted (l.setPhase w .gone) (removes + 1) := by
  have hheld := total_setPhase (l := l) Phase.refs w .gone
  have hremoving := total_setPhase (l := l) Phase.removals w .gone
  have hcount := h.removals
  rw [hw] at hheld hremoving
  simp only [Phase.refs, Phase.removals] at hheld hremoving
  refine ⟨?_, ?_, ?_⟩
  · rw [Link.setPhase_refCount, h.refs]
    omega
  · rw [Link.setPhase_refCount, Link.setPhase_installed, ← hcount]
    omega
  · simpa using h.stopped

end Counted

/-- What the main thread knows of a transport, and what its threads hold. -/
structure Balanced (st : Process) (t : TransportRef) : Prop where
  counted : Counted (st.link t) ((mail st.registration t).count (.remove t))
  listed : (st.link t).installed = true → t ∈ st.server.transportList
  fresh : ∀ m ∈ mail st.registration t, m.isRegister = true → .created t ∉ st.server.authLog
  once : (mail st.registration t).countP Message.isRegister ≤ 1
  deleted : .deleted t ∈ st.server.authLog →
    (st.link t).installed = false ∧ .created t ∈ st.server.authLog

/-- What a callback about other things leaves of a transport's registration. -/
structure Kept (st st' : Server) (t : TransportRef) : Prop where
  listed : t ∈ st.transportList → t ∈ st'.transportList
  created : .created t ∈ st'.authLog ↔ .created t ∈ st.authLog
  deleted : .deleted t ∈ st'.authLog → .deleted t ∈ st.authLog

theorem Kept.refl {st : Server} {t : TransportRef} : Kept st st t := ⟨id, Iff.rfl, id⟩

theorem kept_step {cfg : Config} {st : Server} {t : TransportRef} {l : Action × Oracle}
    (henabled : Enabled cfg st l.1) (hregister : ∀ state type, l.1 ≠ .register t state type)
    (hremove : l.1 ≠ .remove t) : Kept st (step cfg l.2 st l.1) t where
  listed ht := ((upkeep_step henabled).stays ht).resolve_right hremove
  created := by
    constructor
    · intro hmem
      rcases (upkeep_step henabled).changes rfl hmem with hold | ⟨state, type, hl⟩
      · exact hold
      · exact absurd hl (hregister state type)
    · exact (upkeep_step henabled).created
  deleted hmem := ((upkeep_step henabled).changes rfl hmem).resolve_right hremove

theorem step_register {cfg : Config} {env : Oracle} {st : Server} (t : TransportRef)
    (state : ConnectionState) (type : TransportType) :
    (step cfg env st (.register t state type)).transportList = t :: st.transportList ∧
      (step cfg env st (.register t state type)).authLog = st.authLog ++ [.created t] := by
  simp only [step, registerTransport, updateTransports]
  split <;> exact ⟨rfl, rfl⟩

theorem step_remove {cfg : Config} {env : Oracle} {st : Server} (t : TransportRef) :
    (step cfg env st (.remove t)).transportList = st.transportList.filter (· ≠ t) ∧
      (step cfg env st (.remove t)).authLog = st.authLog ++ [.deleted t] := by
  simp only [step, deleteTransport, updateTransports]
  split <;> exact ⟨rfl, rfl⟩

section Balance

variable {cfg : Config} {st st' : Process} {t : TransportRef}

theorem Balanced.keep (h : Balanced st t) (hmail : mail st'.registration t = mail st.registration t)
    (hkept : Kept st.server st'.server t)
    (hinstalled : (st'.link t).installed = (st.link t).installed)
    (hcounted : Counted (st'.link t) ((mail st.registration t).count (.remove t))) : Balanced st' t where
  counted := hmail ▸ hcounted
  listed := by
    rw [hinstalled]
    exact fun ht => hkept.listed (h.listed ht)
  fresh := by
    rw [hmail, hkept.created]
    exact h.fresh
  once := hmail ▸ h.once
  deleted := by
    rw [hinstalled, hkept.created]
    exact fun hdeleted => h.deleted (hkept.deleted hdeleted)

theorem Balanced.frame (h : Balanced st t) (hmail : mail st'.registration t = mail st.registration t)
    (hkept : Kept st.server st'.server t) (hlink : st'.link t = st.link t) : Balanced st' t :=
  h.keep hmail hkept (by rw [hlink]) (by rw [hlink]; exact h.counted)

@[simp] theorem setLink_self (l : Link) : (st.setLink t l).link t = l := Function.update_self ..

theorem setLink_other {t' : TransportRef} (h : t ≠ t') (l : Link) :
    (st.setLink t' l).link t = st.link t := Function.update_of_ne h ..

theorem Balanced.setLink {t' : TransportRef} {l : Link} (h : Balanced st t)
    (hinstalled : l.installed = (st.link t').installed)
    (hcounted : t = t' → Counted l ((mail st.registration t).count (.remove t))) :
    Balanced (st.setLink t' l) t := by
  by_cases ht : t = t'
  · subst ht
    exact h.keep rfl .refl (by rw [setLink_self, hinstalled])
      (by rw [setLink_self]; exact hcounted rfl)
  · exact h.frame rfl .refl (setLink_other ht l)

theorem mail_self {m : Message} {rest : List Message} (hm : m.transport = t) :
    mail (m :: rest) t = m :: mail rest t :=
  List.filter_cons_of_pos (by simpa using hm)

theorem mail_other {m : Message} {rest : List Message} (hm : m.transport ≠ t) :
    mail (m :: rest) t = mail rest t :=
  List.filter_cons_of_neg (by simpa using hm)

theorem mail_append (messages messages' : List Message) :
    mail (messages ++ messages') t = mail messages t ++ mail messages' t :=
  List.filter_append _ _

theorem registrationFunc_register (env : Oracle) (t : TransportRef) (state : ConnectionState)
    (type : TransportType) :
    registrationFunc cfg env st (.register t state type) =
      ⟨step cfg env st.server (.register t state type),
        if state = .noPerm then st.link else Function.update st.link t (startThreads st t),
        st.registration⟩ := by
  simp only [registrationFunc]
  split <;> rfl

theorem balanced_register (h : Balanced st t) (hheld : Held st.server) {t' : TransportRef}
    {state : ConnectionState} {type : TransportType} {rest : List Message} {env : Oracle}
    (hst : st.registration = .register t' state type :: rest)
    (henabled : Enabled cfg st.server (.register t' state type)) :
    Balanced (registrationFunc cfg env { st with registration := rest }
      (.register t' state type)) t := by
  rw [registrationFunc_register]
  by_cases ht : t = t'
  · subst ht
    have hmail : mail st.registration t = .register t state type :: mail rest t := by
      rw [hst]
      exact mail_self rfl
    have hidle : (st.link t).installed = false := by
      by_contra hnot
      exact henabled (hheld.listed t (h.listed (by simpa using hnot)))
    have hcounted : Counted (st.link t) ((mail rest t).count (.remove t)) := by
      have hold := h.counted
      rwa [hmail, List.count_cons_of_ne (by simp)] at hold
    have hnone : (mail rest t).count (.remove t) = 0 := by
      have hcount := hcounted.removals
      rw [if_neg (by simp [hidle])] at hcount
      omega
    have honce : (mail rest t).countP Message.isRegister = 0 := by
      have hcount := h.once
      rw [hmail, List.countP_cons_of_pos (by rfl)] at hcount
      omega
    obtain ⟨hlist, hlog⟩ := @step_register cfg env st.server t state type
    refine ⟨?_, ?_, ?_, ?_, ?_⟩
    · by_cases hstate : state = .noPerm
      · simpa only [if_pos hstate] using hcounted
      · simp only [if_neg hstate, Function.update_self, hnone]
        exact ⟨rfl, rfl, nofun⟩
    · intro _
      rw [hlist]
      exact List.mem_cons_self
    · intro m hm hregister
      exact absurd hregister (List.countP_eq_zero.mp honce m hm)
    · rw [honce]
      exact Nat.zero_le _
    · rw [hlog]
      intro hmem
      rcases List.mem_append.mp hmem with hold | hnew
      · exact absurd (h.deleted hold).2 henabled
      · cases List.mem_singleton.mp hnew
  · have hkept : Kept st.server (step cfg env st.server (.register t' state type)) t :=
      kept_step (l := (.register t' state type, env)) henabled
        (fun _ _ heq => ht (by cases heq; rfl)) nofun
    refine h.frame ?_ hkept ?_
    · rw [hst]
      exact (mail_other (Ne.symm ht)).symm
    · dsimp only
      split
      · rfl
      · exact Function.update_of_ne ht ..

theorem balanced_remove (h : Balanced st t) (hheld : Held st.server) {t' : TransportRef}
    {rest : List Message} {env : Oracle} (hst : st.registration = .remove t' :: rest)
    (henabled : Enabled cfg st.server (.remove t')) :
    Balanced (registrationFunc cfg env { st with registration := rest } (.remove t')) t := by
  by_cases ht : t = t'
  · subst ht
    have hmail : mail st.registration t = .remove t :: mail rest t := by
      rw [hst]
      exact mail_self rfl
    have hcounted := h.counted
    rw [hmail, List.count_cons_self] at hcounted
    obtain ⟨-, hzero, hone⟩ := hcounted.of_removes (by omega)
    have hlink : (registrationFunc cfg env { st with registration := rest } (.remove t)).link t =
        { st.link t with installed := false } := Function.update_self ..
    obtain ⟨hlist, hlog⟩ := @step_remove cfg env st.server t
    have hcreated : .created t ∈ st.server.authLog := hheld.listed t henabled
    refine ⟨?_, ?_, ?_, ?_, ?_⟩
    · rw [hlink]
      refine ⟨hcounted.refs, ?_, fun _ => hzero⟩
      change (mail rest t).count (.remove t) + (st.link t).total Phase.removals = _
      rw [if_neg (by simp)]
      omega
    · rw [hlink]
      exact nofun
    · intro m hm hregister
      refine absurd hcreated (h.fresh m ?_ hregister)
      rw [hmail]
      exact List.mem_cons_of_mem _ hm
    · have hcount := h.once
      rwa [hmail, List.countP_cons_of_neg (by simp [Message.isRegister])] at hcount
    · intro _
      rw [hlink]
      exact ⟨rfl, hlog ▸ List.mem_append_left _ hcreated⟩
  · have hkept : Kept st.server (step cfg env st.server (.remove t')) t :=
      kept_step (l := (.remove t', env)) henabled nofun fun heq => ht (by cases heq; rfl)
    refine h.frame ?_ hkept (Function.update_of_ne ht ..)
    rw [hst]
    exact (mail_other (Ne.symm ht)).symm

theorem mail_concat_self {m : Message} (hm : m.transport = t) (messages : List Message) :
    mail (messages ++ [m]) t = mail messages t ++ [m] := by
  rw [mail_append, mail_self hm]
  rfl

theorem mail_concat_other {m : Message} (hm : m.transport ≠ t) (messages : List Message) :
    mail (messages ++ [m]) t = mail messages t := by
  rw [mail_append, mail_other hm]
  exact List.append_nil _

theorem balanced_announce (h : Balanced st t) {t' : TransportRef} {state : ConnectionState}
    {type : TransportType} (hstep : CanStep cfg st (.announce t' state type)) :
    Balanced { st with registration := st.registration ++ [.register t' state type] } t := by
  obtain ⟨-, hnew, hfirst⟩ := hstep
  by_cases ht : t' = t
  · subst ht
    have hmail : mail (st.registration ++ [.register t' state type]) t' =
        mail st.registration t' ++ [.register t' state type] := mail_concat_self rfl _
    have hnone : (mail st.registration t').countP Message.isRegister = 0 :=
      List.countP_eq_zero.mpr (by simpa using hfirst)
    refine ⟨?_, h.listed, fun _ _ _ => hnew, ?_, h.deleted⟩
    · rw [hmail, List.count_append]
      simpa using h.counted
    · rw [hmail, List.countP_append, hnone]
      exact Nat.le_refl 1
  · exact h.frame (mail_concat_other (m := .register t' state type) ht _) .refl rfl

theorem balanced_sendRemoval (h : Balanced st t) {t' : TransportRef} {w : Thread}
    (hw : (st.link t').phase w = .removing) :
    Balanced { st.setLink t' ((st.link t').setPhase w .gone) with
      registration := st.registration ++ [.remove t'] } t := by
  by_cases ht : t' = t
  · subst ht
    have hmail : mail (st.registration ++ [.remove t']) t' =
        mail st.registration t' ++ [.remove t'] := mail_concat_self rfl _
    have hlink : (st.setLink t' ((st.link t').setPhase w .gone)).link t' =
        (st.link t').setPhase w .gone := setLink_self _
    refine ⟨?_, ?_, ?_, ?_, ?_⟩
    · rw [hmail, List.count_append, List.count_singleton_self]
      have hcounted := h.counted.removal hw
      rwa [← hlink] at hcounted
    · rw [hlink, Link.setPhase_installed]
      exact h.listed
    · rw [hmail]
      intro m hm hregister
      rcases List.mem_append.mp hm with hold | hnew
      · exact h.fresh m hold hregister
      · rw [List.mem_singleton.mp hnew] at hregister
        cases hregister
    · rw [hmail, List.countP_append]
      exact h.once
    · rw [hlink, Link.setPhase_installed]
      exact h.deleted
  · exact h.frame (mail_concat_other (m := .remove t') ht _) .refl (Function.update_of_ne (Ne.symm ht) ..)

/-- `transport_unref` finds the reference that its caller holds. -/
theorem transportUnref_of_leaving (h : Balanced st t) {w : Thread}
    (hw : (st.link t).phase w = .leaving) :
    transportUnref st t w = st.setLink t
      ({ st.link t with refCount := (st.link t).refCount - 1 }.setPhase w
        (if (st.link t).refCount = 1 then .removing else .gone)) :=
  if_neg (Nat.ne_of_gt (h.counted.pos_of_leaving hw))

end Balance

/-! ### The process and the main thread -/

/-- The main thread runs as if alone, and every transport is accounted for. -/
structure Sound (cfg : Config) (st : Process) : Prop where
  server : (serverSystem cfg).Reachable st.server
  balanced : ∀ t, Balanced st t

section Runs

variable {cfg : Config} {st : Process} {l : Label} {t : TransportRef}

theorem enabled_registration (h : Sound cfg st) {m : Message} {rest : List Message}
    (hst : st.registration = m :: rest) : Enabled cfg st.server m.action := by
  have hmail : m ∈ mail st.registration m.transport := by
    rw [hst, mail_self rfl]
    exact List.mem_cons_self
  cases m with
  | register t state type => exact (h.balanced t).fresh _ hmail rfl
  | remove t =>
      have hcount : 0 < (mail st.registration t).count (.remove t) :=
        List.count_pos_iff.mpr hmail
      exact (h.balanced t).listed ((h.balanced t).counted.of_removes (by omega)).1

theorem Sound.callback (h : Sound cfg st) {action : Action} {env : Oracle} {st' : Process}
    (hhalted : st.server.sockets.halted = none) (henabled : Enabled cfg st.server action)
    (hserver : st'.server = step cfg env st.server action)
    (hbalanced : ∀ t, Balanced st' t) : Sound cfg st' where
  server := by
    rw [hserver]
    exact System.ReachableWhen.next (l := (action, env)) h.server ⟨hhalted, henabled⟩ trivial
  balanced := hbalanced

theorem Sound.thread (h : Sound cfg st) {st' : Process} (hserver : st'.server = st.server)
    (hbalanced : ∀ t, Balanced st' t) : Sound cfg st' where
  server := hserver ▸ h.server
  balanced := hbalanced

theorem Sound.holding (h : Sound cfg st) {l : Link} (hrefs : l.refCount = (st.link t).refCount)
    (hinstalled : l.installed = (st.link t).installed)
    (hreader : Counted.Alike (st.link t).reader l.reader)
    (hwriter : Counted.Alike (st.link t).writer l.writer) : Sound cfg (st.setLink t l) := by
  refine h.thread rfl fun t' => (h.balanced t').setLink hinstalled ?_
  rintro rfl
  exact (h.balanced t').counted.holding hrefs hinstalled hreader hwriter

theorem alike_pump {l : Link} {p : Apacket} {phase : Phase} {ok : Bool} (hl : l.reader.refs = 1)
    (hphase : phase.refs = 1) : Counted.Alike l.reader (pump l p phase ok).reader := by
  unfold pump
  split
  · exact .inr ⟨hl, hphase⟩
  · exact .inr ⟨hl, rfl⟩

theorem Sound.pump (h : Sound cfg st) {p : Apacket} {phase : Phase} {ok : Bool} {token : Nat}
    (hl : (st.link t).reader.refs = 1) (hphase : phase.refs = 1) :
    Sound cfg (st.setLink t (pump { st.link t with syncToken := token } p phase ok)) := by
  refine h.holding ?_ ?_ (alike_pump (l := { st.link t with syncToken := token }) hl hphase) ?_
  · unfold TransportThreads.pump
    split <;> rfl
  · unfold TransportThreads.pump
    split <;> rfl
  · unfold TransportThreads.pump
    split <;> exact .inl rfl

theorem Sound.packet (h : Sound cfg st) {p : Apacket} {rest : List Apacket} {env : Oracle}
    (hhalted : st.server.sockets.halted = none) (hinstalled : (st.link t).installed = true) :
    Sound cfg { st.setLink t { st.link t with toMain := rest } with
      server := step cfg env st.server (.packet t p) } := by
  have henabled : Enabled cfg st.server (.packet t p) := (h.balanced t).listed hinstalled
  refine h.callback hhalted henabled rfl fun t' => ?_
  have hkept : Kept st.server (step cfg env st.server (.packet t p)) t' :=
    kept_step (l := (.packet t p, env)) henabled nofun nofun
  by_cases ht : t' = t
  · subst ht
    have hlink : (st.setLink t' { st.link t' with toMain := rest }).link t' =
        { st.link t' with toMain := rest } := setLink_self _
    refine (h.balanced t').keep rfl hkept ?_ ?_
    · exact (congrArg Link.installed hlink).trans rfl
    rw [hlink]
    exact (h.balanced t').counted.holding rfl rfl (.inl rfl) (.inl rfl)
  · exact (h.balanced t').frame rfl hkept (setLink_other ht _)

theorem Sound.registration (h : Sound cfg st) {m : Message} {rest : List Message} {env : Oracle}
    (hhalted : st.server.sockets.halted = none) (hst : st.registration = m :: rest) :
    Sound cfg (registrationFunc cfg env { st with registration := rest } m) := by
  have henabled := enabled_registration h hst
  have hheld := held_of_reachable h.server
  cases m with
  | register t state type =>
      have hserver : (registrationFunc cfg env { st with registration := rest }
          (.register t state type)).server = step cfg env st.server (.register t state type) := by
        rw [registrationFunc_register]
      exact h.callback hhalted henabled hserver fun t' =>
        balanced_register (h.balanced t') hheld hst henabled
  | remove t =>
      exact h.callback hhalted henabled rfl fun t' =>
        balanced_remove (h.balanced t') hheld hst henabled

theorem Sound.writeRound (h : Sound cfg st) (hwriter : (st.link t).writer = .pumping)
    (p : Apacket) (ok : Bool) :
    Sound cfg (st.setLink t (writeRound (st.link t) p ok)) := by
  have hsame : ∀ l : Link, l.refCount = (st.link t).refCount →
      l.installed = (st.link t).installed → l.reader = (st.link t).reader →
      l.writer = .pumping ∨ l.writer = .leaving → Sound cfg (st.setLink t l) := by
    intro l hrefs hinstalled hreader hphase
    refine h.holding hrefs hinstalled (.inl hreader) (.inr ⟨congrArg Phase.refs hwriter, ?_⟩)
    rcases hphase with hl | hl
    · exact congrArg Phase.refs hl
    · exact congrArg Phase.refs hl
  unfold TransportThreads.writeRound
  dsimp only
  repeat' split
  all_goals first
    | exact hsame _ rfl rfl rfl (.inl hwriter)
    | exact hsame _ rfl rfl rfl (.inr rfl)

/-- Every step keeps the main thread and the threads of the transports together. -/
theorem sound_next (h : Sound cfg st) (hstep : CanStep cfg st l) : Sound cfg (next cfg st l) := by
  cases l with
  | callback action env =>
      obtain ⟨hhalted, hown, henabled⟩ := hstep
      refine h.callback hhalted henabled rfl fun t => (h.balanced t).frame rfl ?_ rfl
      refine kept_step (l := (action, env)) henabled ?_ ?_
      · rintro state type rfl
        cases hown
      · rintro rfl
        cases hown
  | packet t env =>
      obtain ⟨hhalted, hinstalled, -⟩ := hstep
      simp only [next]
      split
      · exact h
      · exact h.packet hhalted hinstalled
  | registration env =>
      simp only [next]
      split
      · exact h
      · rename_i hst
        exact h.registration hstep.1 hst
  | announce t state type => exact h.thread rfl fun t' => balanced_announce (h.balanced t') hstep
  | sendOnline t ok => exact h.pump (congrArg Phase.refs hstep) rfl
  | readRemote t p ok =>
      simp only [next]
      split
      · exact h
      · exact h.pump (congrArg Phase.refs hstep) rfl
  | readFails t => exact h.holding rfl rfl (.inr ⟨congrArg Phase.refs hstep, rfl⟩) (.inl rfl)
  | sendOffline t ok => exact h.pump (congrArg Phase.refs hstep) rfl
  | take t ok =>
      simp only [next]
      split
      · exact h
      · exact h.writeRound hstep.1 _ ok
  | takeFails t => exact h.holding rfl rfl (.inl rfl) (.inr ⟨congrArg Phase.refs hstep, rfl⟩)
  | unref t w =>
      rw [next, transportUnref_of_leaving (h.balanced t) hstep]
      refine h.thread rfl fun t' => (h.balanced t').setLink ?_ ?_
      · simp
      · rintro rfl
        exact (h.balanced t').counted.unref hstep
  | sendRemoval t w =>
      exact h.thread rfl fun t' => balanced_sendRemoval (h.balanced t') hstep

theorem sound_of_reachable (h : (threadSystem cfg).Reachable st) : Sound cfg st := by
  refine h.invariant ?_ fun st l hsound henabled _ => sound_next hsound henabled
  rintro st rfl
  refine ⟨⟨.initial, rfl, .refl⟩, fun t => ⟨⟨rfl, rfl, fun _ => rfl⟩, nofun, nofun, ?_, nofun⟩⟩
  exact Nat.zero_le _

/-- While a removal is under way nobody but the main thread uses the transport. -/
structure Exclusive (st : Process) (t : TransportRef) : Prop where
  ended : (st.link t).reader = .gone ∧ (st.link t).writer = .gone ∧ (st.link t).refCount = 0
  once : st.registration.count (.remove t) = 1
  listed : t ∈ st.server.transportList
  kept : .deleted t ∉ st.server.authLog

theorem exclusive_of_sound (h : Sound cfg st) (hremove : .remove t ∈ st.registration) :
    Exclusive st t := by
  have hbalanced := h.balanced t
  have hmail : .remove t ∈ mail st.registration t :=
    List.mem_filter.mpr ⟨hremove, by simp [Message.transport]⟩
  have hpos : 0 < (mail st.registration t).count (.remove t) := List.count_pos_iff.mpr hmail
  obtain ⟨hinstalled, hzero, hone⟩ := hbalanced.counted.of_removes (by omega)
  have hgone : ∀ x : Phase, x.refs = 0 → x.removals = 0 → x = .gone := by
    intro x hrefs hremovals
    cases x with
    | gone => rfl
    | removing => cases hremovals
    | _ => cases hrefs
  have hrefs : (st.link t).total Phase.refs = 0 := hbalanced.counted.refs.symm.trans hzero
  have hremovals : (st.link t).total Phase.removals = 0 := by omega
  rw [Link.total, Nat.add_eq_zero_iff] at hrefs hremovals
  refine ⟨⟨hgone _ hrefs.1 hremovals.1, hgone _ hrefs.2 hremovals.2, hzero⟩, ?_,
    hbalanced.listed hinstalled, ?_⟩
  · have hcount : (mail st.registration t).count (.remove t) =
        st.registration.count (.remove t) := List.count_filter (by simp [Message.transport])
    omega
  · intro hdeleted
    rw [(hbalanced.deleted hdeleted).1] at hinstalled
    cases hinstalled

/-- The main thread runs as it would alone, with packets and removals for
transports on its list only and registrations of new ones, no `CHECK` of it
fails, and when it is told to remove a transport both threads have let go of it. -/
theorem threads_serve (h : (threadSystem cfg).Reachable st) :
    (serverSystem cfg).Reachable st.server ∧ st.server.sockets.halted ≠ some .check ∧
      ∀ t, .remove t ∈ st.registration → Exclusive st t := by
  have hserver := (sound_of_reachable h).server
  exact ⟨hserver, (GraphInvariants.settled_of_reachable hserver).checked.check,
    fun _ => exclusive_of_sound (sound_of_reachable h)⟩

end Runs

/-! ### The end of a connection -/

/-- The steps that end the threads of `t` in the order that the code foresees: no
`Write` fails, the write thread's end of the socket pair can be read, and the
remote sends no SYNC message. -/
def Undisturbed (t : TransportRef) (_ : Process) : Label → Prop
  | .readRemote t' p _ => t' = t → p.command ≠ .aSync
  | .take t' ok => t' = t → ok = true
  | .takeFails t' => t' ≠ t
  | _ => True

instance (t : TransportRef) (st : Process) : (l : Label) → Decidable (Undisturbed t st l)
  | .readRemote _ _ _ | .take _ _ => inferInstanceAs (Decidable (_ → _))
  | .takeFails _ => inferInstanceAs (Decidable (_ ≠ _))
  | .callback _ _ | .packet _ _ | .registration _ | .announce _ _ _ | .sendOnline _ _
  | .readFails _ | .sendOffline _ _ | .unref _ _ | .sendRemoval _ _ =>
      inferInstanceAs (Decidable True)

/-- The offline message is the last one that the read thread writes, and the write
thread hears of it when the main thread has let go of the transport. -/
structure Finishing (st : Process) (t : TransportRef) : Prop where
  last : ∀ p ∈ (st.link t).toMain.dropLast, ¬ Apacket.isOffline p
  ended : ∀ p ∈ (st.link t).toMain, Apacket.isOffline p → (st.link t).reader.ended = true
  cleared : (∃ p ∈ st.queue t, Apacket.isOffline p) ∨ (st.link t).writer ≠ .pumping →
    (st.link t).reader.ended = true ∧ (st.link t).toMain = [] ∧ Cleared st.server t

section Ends

variable {cfg : Config} {st st' : Process} {l : Label} {t : TransportRef}

theorem mem_queue_step {action : Action} {env : Oracle} (hwf : SocketGraph.WellFormed st.server.sockets)
    (henabled : Enabled cfg st.server action) (hserver : st'.server = step cfg env st.server action)
    (htaken : (st'.link t).taken = (st.link t).taken) {p : Apacket} (hp : p ∈ st'.queue t) :
    p ∈ st.queue t ∨ (p.command = .aSync → action = .packet t p) := by
  obtain ⟨events, htrace, hevents⟩ :=
    @echoes_step cfg st.server (action, env) hwf henabled
  rw [Process.queue, hserver, htrace, sentOn_append, htaken, List.drop_append] at hp
  rcases List.mem_append.mp hp with hold | hnew
  · exact .inl hold
  · exact .inr (hevents _ (mem_sentOn.mp (List.mem_of_mem_drop hnew)))

theorem Finishing.callback (h : Finishing st t) (hsound : Sound cfg st)
    (hinstalled : (st.link t).installed = true) {action : Action} {env : Oracle}
    (henabled : Enabled cfg st.server action) (hother : ∀ p, action ≠ .packet t p)
    (hserver : st'.server = step cfg env st.server action) (hlink : st'.link t = st.link t) :
    Finishing st' t := by
  have hwf := wellFormed_of_reachable hsound.server
  have hheld := held_of_reachable hsound.server
  refine ⟨hlink ▸ h.last, hlink ▸ h.ended, ?_⟩
  intro hend
  rw [hlink, hserver]
  have hbefore : (∃ p ∈ st.queue t, Apacket.isOffline p) ∨ (st.link t).writer ≠ .pumping := by
    rcases hend with ⟨p, hp, hoffline⟩ | hwriter
    · rcases mem_queue_step hwf henabled hserver (congrArg Link.taken hlink) hp with hold | hecho
      · exact .inl ⟨p, hold, hoffline⟩
      · exact absurd (hecho hoffline.1) (hother p)
    · exact .inr (hlink ▸ hwriter)
  obtain ⟨hended, hempty, hcleared⟩ := h.cleared hbefore
  refine ⟨hended, hempty, ?_⟩
  exact cleared_step (l := (action, env)) hwf hheld henabled
    (hheld.listed t ((hsound.balanced t).listed hinstalled)) hother hcleared

theorem Finishing.packet (h : Finishing st t) (hsound : Sound cfg st)
    (hinstalled : (st.link t).installed = true) {p : Apacket} {rest : List Apacket} {env : Oracle}
    (htoMain : (st.link t).toMain = p :: rest) :
    Finishing { st.setLink t { st.link t with toMain := rest } with
      server := step cfg env st.server (.packet t p) } t := by
  have hwf := wellFormed_of_reachable hsound.server
  have henabled : Enabled cfg st.server (.packet t p) := (hsound.balanced t).listed hinstalled
  -- nothing is decided yet: the pair still holds a packet
  have hbefore : ¬ ((∃ p ∈ st.queue t, Apacket.isOffline p) ∨ (st.link t).writer ≠ .pumping) := by
    intro hend
    have hempty := (h.cleared hend).2.1
    rw [htoMain] at hempty
    cases hempty
  have hlink : (st.setLink t { st.link t with toMain := rest }).link t =
      { st.link t with toMain := rest } := setLink_self _
  generalize hst' : ({ st.setLink t { st.link t with toMain := rest } with
    server := step cfg env st.server (.packet t p) } : Process) = st'
  have hlink' : st'.link t = { st.link t with toMain := rest } := by rw [← hst']; exact hlink
  have hserver : st'.server = step cfg env st.server (.packet t p) := by rw [← hst']
  have hmem : ∀ q ∈ rest, q ∈ (st.link t).toMain := by
    rw [htoMain]
    exact fun q => List.mem_cons_of_mem p
  refine ⟨?_, ?_, ?_⟩
  · rw [hlink']
    intro q hq
    refine h.last q ?_
    rw [htoMain]
    cases rest with
    | nil => cases hq
    | cons q' rest => exact List.mem_cons_of_mem p hq
  · rw [hlink']
    exact fun q hq => h.ended q (hmem q hq)
  · intro hend
    rw [hlink', hserver]
    have hoffline : Apacket.isOffline p := by
      rcases hend with ⟨q, hq, hoffline⟩ | hwriter
      · have htaken : (st'.link t).taken = (st.link t).taken := by rw [hlink']
        rcases mem_queue_step hwf henabled hserver htaken hq with hold | hecho
        · exact absurd (.inl ⟨q, hold, hoffline⟩) hbefore
        · cases hecho hoffline.1
          exact hoffline
      · rw [hlink'] at hwriter
        exact absurd (.inr hwriter) hbefore
    refine ⟨h.ended p (by rw [htoMain]; exact List.mem_cons_self) hoffline, ?_, ?_⟩
    · cases rest with
      | nil => rfl
      | cons q rest =>
          refine absurd hoffline (h.last p ?_)
          rw [htoMain]
          exact List.mem_cons_self
    · exact cleared_offline (settled_of_reachable hsound.server)
        (held_of_reachable hsound.server) env hoffline

theorem finishing_start {state : ConnectionState} {type : TransportType} {env : Oracle}
    (hsound : Sound cfg st) (henabled : Enabled cfg st.server (.register t state type))
    (hserver : st'.server = step cfg env st.server (.register t state type))
    (hlink : st'.link t = startThreads st t) : Finishing st' t := by
  have hwf := wellFormed_of_reachable hsound.server
  refine ⟨?_, ?_, ?_⟩
  · rw [hlink]
    exact nofun
  · rw [hlink]
    exact nofun
  · rintro (⟨p, hp, hoffline⟩ | hwriter)
    · obtain ⟨events, htrace, hevents⟩ :=
        @echoes_step cfg st.server (.register t state type, env) hwf henabled
      rw [Process.queue, hserver, htrace, sentOn_append, hlink] at hp
      change p ∈ (sentOn t st.server.sockets.trace ++ sentOn t events).drop
        (sentOn t st.server.sockets.trace).length at hp
      rw [List.drop_left] at hp
      cases hevents _ (mem_sentOn.mp hp) hoffline.1
    · rw [hlink] at hwriter
      exact absurd rfl hwriter

theorem queue_setLink (l : Link) :
    (st.setLink t l).queue t = (sentOn t st.server.sockets.trace).drop l.taken := by
  rw [Process.queue, setLink_self]
  rfl

theorem Finishing.reading (h : Finishing st t) (hreader : (st.link t).reader.ended = false)
    {l : Link} (hwriter : l.writer = (st.link t).writer) (htaken : l.taken = (st.link t).taken)
    (htoMain : l.toMain = (st.link t).toMain ∨ ∃ p, l.toMain = (st.link t).toMain ++ [p] ∧
      (Apacket.isOffline p → l.reader.ended = true)) : Finishing (st.setLink t l) t := by
  have hnone : ∀ p ∈ (st.link t).toMain, ¬ Apacket.isOffline p := by
    intro p hp hoffline
    rw [h.ended p hp hoffline] at hreader
    cases hreader
  refine ⟨?_, ?_, ?_⟩
  · rw [setLink_self]
    intro p hp
    rcases htoMain with hsame | ⟨q, hmore, -⟩
    · exact h.last p (hsame ▸ hp)
    · rw [hmore, List.dropLast_concat] at hp
      exact hnone p hp
  · rw [setLink_self]
    intro p hp hoffline
    rcases htoMain with hsame | ⟨q, hmore, hq⟩
    · exact absurd hoffline (hnone p (hsame ▸ hp))
    · rw [hmore] at hp
      rcases List.mem_append.mp hp with hold | hnew
      · exact absurd hoffline (hnone p hold)
      · exact hq (List.mem_singleton.mp hnew ▸ hoffline)
  · intro hend
    rw [setLink_self, queue_setLink, hwriter, htaken] at hend
    rw [(h.cleared hend).1] at hreader
    cases hreader

theorem Finishing.pump (h : Finishing st t) (hreader : (st.link t).reader.ended = false)
    {p : Apacket} {phase : Phase} {ok : Bool} {token : Nat}
    (hp : Apacket.isOffline p → phase.ended = true) :
    Finishing (st.setLink t (pump { st.link t with syncToken := token } p phase ok)) t := by
  unfold TransportThreads.pump
  split
  · exact h.reading hreader rfl rfl (.inr ⟨p, rfl, hp⟩)
  · exact h.reading hreader rfl rfl (.inl rfl)

theorem Finishing.ending (h : Finishing st t) {l : Link}
    (htoMain : l.toMain = (st.link t).toMain)
    (hreader : (st.link t).reader.ended = true → l.reader.ended = true)
    (hend : (∃ p ∈ (sentOn t st.server.sockets.trace).drop l.taken, Apacket.isOffline p) ∨
      l.writer ≠ .pumping →
        (∃ p ∈ st.queue t, Apacket.isOffline p) ∨ (st.link t).writer ≠ .pumping) :
    Finishing (st.setLink t l) t := by
  refine ⟨?_, ?_, ?_⟩
  · rw [setLink_self, htoMain]
    exact h.last
  · rw [setLink_self, htoMain]
    exact fun p hp hoffline => hreader (h.ended p hp hoffline)
  · rw [setLink_self, queue_setLink]
    intro hafter
    obtain ⟨hended, hempty, hcleared⟩ := h.cleared (hend hafter)
    exact ⟨hreader hended, htoMain.trans hempty, hcleared⟩

theorem Finishing.writeRound (h : Finishing st t) {p : Apacket} {rest : List Apacket}
    (hqueue : st.queue t = p :: rest) :
    Finishing (st.setLink t (writeRound (st.link t) p true)) t := by
  have hrest : (sentOn t st.server.sockets.trace).drop ((st.link t).taken + 1) = rest := by
    rw [← List.drop_drop]
    change (st.queue t).drop 1 = rest
    rw [hqueue]
    rfl
  have hmore : ∀ {writer : Phase}, (Apacket.isOffline p ∨ writer = (st.link t).writer) →
      (∃ q ∈ rest, Apacket.isOffline q) ∨ writer ≠ .pumping →
        (∃ q ∈ st.queue t, Apacket.isOffline q) ∨ (st.link t).writer ≠ .pumping := by
    intro writer hwriter hend
    rw [hqueue]
    rcases hend with ⟨q, hq, hoffline⟩ | hend
    · exact .inl ⟨q, List.mem_cons_of_mem _ hq, hoffline⟩
    · rcases hwriter with hoffline | hsame
      · exact .inl ⟨p, List.mem_cons_self, hoffline⟩
      · exact .inr (hsame ▸ hend)
  unfold TransportThreads.writeRound
  dsimp only
  split
  · rename_i hsync
    split
    · rename_i harg
      refine h.ending rfl id ?_
      rw [hrest]
      exact hmore (.inl ⟨hsync, harg⟩)
    · split
      · refine h.ending rfl id ?_
        rw [hrest]
        exact hmore (.inr rfl)
      · refine h.ending rfl id ?_
        rw [hrest]
        exact hmore (.inr rfl)
  · split
    · rw [if_pos rfl]
      refine h.ending rfl id ?_
      rw [hrest]
      exact hmore (.inr rfl)
    · refine h.ending rfl id ?_
      rw [hrest]
      exact hmore (.inr rfl)

theorem Finishing.setPhase (h : Finishing st t) {w : Thread} {phase : Phase}
    (hw : ((st.link t).phase w).ended = true) (hphase : phase.ended = true) (n : Nat) :
    Finishing (st.setLink t ({ st.link t with refCount := n }.setPhase w phase)) t := by
  cases w with
  | reader => exact h.ending rfl (fun _ => hphase) id
  | writer =>
      refine h.ending rfl id fun _ => .inr ?_
      intro hpumping
      have hended : (st.link t).writer.ended = true := hw
      rw [hpumping] at hended
      cases hended

theorem Finishing.frame (h : Finishing st t) (hserver : st'.server = st.server)
    (hlink : st'.link t = st.link t) : Finishing st' t := by
  refine ⟨hlink ▸ h.last, hlink ▸ h.ended, ?_⟩
  rw [Process.queue, hlink, hserver]
  exact h.cleared

theorem finishing_setLink (h : (st.link t).installed = true → Finishing st t)
    {t' : TransportRef} {l : Link} (hsame : l.installed = (st.link t').installed)
    (hstep : t' = t → Finishing st t → Finishing (st.setLink t' l) t)
    (hinstalled : ((st.setLink t' l).link t).installed = true) :
    Finishing (st.setLink t' l) t := by
  by_cases ht : t' = t
  · subst ht
    rw [setLink_self, hsame] at hinstalled
    exact hstep rfl (h hinstalled)
  · rw [setLink_other (Ne.symm ht)] at hinstalled
    exact (h hinstalled).frame rfl (setLink_other (Ne.symm ht) _)

theorem pump_installed (l : Link) (p : Apacket) (phase : Phase) (ok : Bool) :
    (pump l p phase ok).installed = l.installed := by
  unfold pump
  split <;> rfl

theorem writeRound_installed (l : Link) (p : Apacket) (ok : Bool) :
    (writeRound l p ok).installed = l.installed := by
  unfold writeRound
  dsimp only
  repeat' split
  all_goals rfl

theorem finishing_registration (h : (st.link t).installed = true → Finishing st t)
    (hsound : Sound cfg st) {m : Message} {rest : List Message} {env : Oracle}
    (hst : st.registration = m :: rest)
    (hinstalled : ((registrationFunc cfg env { st with registration := rest } m).link t).installed =
      true) : Finishing (registrationFunc cfg env { st with registration := rest } m) t := by
  have henabled := enabled_registration hsound hst
  cases m with
  | register t' state type =>
      rw [registrationFunc_register] at hinstalled ⊢
      by_cases ht : t' = t
      · subst ht
        dsimp only at hinstalled
        split at hinstalled
        · exact absurd ((held_of_reachable hsound.server).listed t'
            ((hsound.balanced t').listed hinstalled)) henabled
        · rename_i hstate
          refine finishing_start hsound henabled rfl ?_
          simp only [if_neg hstate, Function.update_self]
          rfl
      · have hlink : (if state = .noPerm then st.link else Function.update st.link t'
            (startThreads { st with registration := rest } t')) t = st.link t := by
          split
          · rfl
          · exact Function.update_of_ne (Ne.symm ht) ..
        have hbefore : (st.link t).installed = true := by
          rw [← hlink]
          exact hinstalled
        exact (h hbefore).callback hsound hbefore henabled nofun rfl hlink
  | remove t' =>
      by_cases ht : t' = t
      · subst ht
        have hlink : (registrationFunc cfg env { st with registration := rest }
            (.remove t')).link t' = { st.link t' with installed := false } :=
          Function.update_self ..
        rw [hlink] at hinstalled
        cases hinstalled
      · have hlink : (registrationFunc cfg env { st with registration := rest }
            (.remove t')).link t = st.link t := Function.update_of_ne (Ne.symm ht) ..
        rw [hlink] at hinstalled
        exact (h hinstalled).callback hsound hinstalled henabled nofun rfl hlink

/-- Every step of an undisturbed run. -/
theorem finishing_next (h : (st.link t).installed = true → Finishing st t) (hsound : Sound cfg st)
    (hstep : CanStep cfg st l) (hcondition : Undisturbed t st l)
    (hinstalled : ((next cfg st l).link t).installed = true) : Finishing (next cfg st l) t := by
  cases l with
  | callback action env =>
      obtain ⟨-, hown, henabled⟩ := hstep
      refine (h hinstalled).callback hsound hinstalled henabled ?_ rfl rfl
      rintro p rfl
      cases hown
  | packet t' env =>
      simp only [next] at hinstalled ⊢
      split at hinstalled
      · exact h hinstalled
      · rename_i p rest htoMain
        by_cases ht : t' = t
        · subst ht
          exact (h hstep.2.1).packet hsound hstep.2.1 htoMain
        · have hlink : (st.setLink t' { st.link t' with toMain := rest }).link t = st.link t :=
            setLink_other (Ne.symm ht) _
          have hbefore : (st.link t).installed = true := by
            rw [← hlink]
            exact hinstalled
          have henabled : Enabled cfg st.server (.packet t' p) :=
            (hsound.balanced t').listed hstep.2.1
          refine (h hbefore).callback hsound hbefore henabled ?_ rfl hlink
          rintro q heq
          cases heq
          exact ht rfl
  | registration env =>
      simp only [next] at hinstalled ⊢
      split at hinstalled
      · exact h hinstalled
      · rename_i hst
        exact finishing_registration h hsound hst hinstalled
  | announce t' state type => exact (h hinstalled).frame rfl rfl
  | sendOnline t' ok =>
      refine finishing_setLink h (pump_installed ..) ?_ hinstalled
      rintro rfl hfinishing
      refine hfinishing.pump (congrArg Phase.ended hstep) fun hoffline => ?_
      cases hoffline.2
  | readRemote t' p ok =>
      simp only [next] at hinstalled ⊢
      by_cases hskipped : cfg.host = true ∧ p.command = .other 0
      · rw [if_pos hskipped] at hinstalled ⊢
        exact h hinstalled
      · rw [if_neg hskipped] at hinstalled ⊢
        refine finishing_setLink h (pump_installed ..) ?_ hinstalled
        rintro rfl hfinishing
        exact hfinishing.pump (congrArg Phase.ended hstep) fun hoffline =>
          absurd hoffline.1 (hcondition rfl)
  | readFails t' =>
      refine finishing_setLink h rfl ?_ hinstalled
      rintro rfl hfinishing
      exact hfinishing.reading (congrArg Phase.ended hstep) rfl rfl (.inl rfl)
  | sendOffline t' ok =>
      refine finishing_setLink h (pump_installed ..) ?_ hinstalled
      rintro rfl hfinishing
      exact hfinishing.pump (congrArg Phase.ended hstep) fun _ => rfl
  | take t' ok =>
      simp only [next] at hinstalled ⊢
      split at hinstalled
      · exact h hinstalled
      · rename_i hqueue
        refine finishing_setLink h (writeRound_installed ..) ?_ hinstalled
        rintro rfl hfinishing
        obtain rfl := hcondition rfl
        exact hfinishing.writeRound hqueue
  | takeFails t' =>
      refine finishing_setLink h rfl ?_ hinstalled
      rintro rfl
      exact absurd rfl hcondition
  | unref t' w =>
      rw [next, transportUnref_of_leaving (hsound.balanced t') hstep] at hinstalled ⊢
      refine finishing_setLink h (by simp) ?_ hinstalled
      rintro rfl hfinishing
      refine hfinishing.setPhase (congrArg Phase.ended hstep) ?_ _
      split <;> rfl
  | sendRemoval t' w =>
      have hgone : Finishing (st.setLink t' ((st.link t').setPhase w .gone)) t := by
        refine finishing_setLink h (by simp) ?_ hinstalled
        rintro rfl hfinishing
        exact hfinishing.setPhase (congrArg Phase.ended hstep) rfl (st.link t').refCount
      exact hgone.frame rfl rfl

/-- As long as no write fails, the main thread has handled every packet of the
transport and has let go of the transport everywhere when it is told to remove it. -/
theorem removal_after_offline
    (h : (threadSystem cfg).ReachableWhen (Undisturbed t) st)
    (hremove : .remove t ∈ st.registration) :
    (st.link t).toMain = [] ∧ Cleared st.server t := by
  have hsound := sound_of_reachable h.reachable
  have hfinishing := h.invariant
    (I := fun st => Sound cfg st ∧ ((st.link t).installed = true → Finishing st t))
    (by
      rintro st rfl
      exact ⟨sound_of_reachable ⟨_, rfl, .refl⟩, nofun⟩)
    fun st l hst henabled hcondition =>
      ⟨sound_next hst.1 henabled, finishing_next hst.2 hst.1 henabled hcondition⟩
  have hexclusive := exclusive_of_sound hsound hremove
  have hpos : 0 < (mail st.registration t).count (.remove t) :=
    List.count_pos_iff.mpr (List.mem_filter.mpr ⟨hremove, by simp [Message.transport]⟩)
  have hinstalled := ((hsound.balanced t).counted.of_removes (by omega)).1
  refine ((hfinishing.2 hinstalled).cleared (.inr ?_)).2
  rw [hexclusive.ended.2.1]
  exact nofun

end Ends

/-- A host connects to a device and opens a stream. -/
def opensStream : List Label :=
  [.announce 0 .offline .usb, .registration {}, .sendOnline 0 true, .packet 0 {}, .take 0 true,
    .readRemote 0 { command := .aCnxn, arg0 := 0x01000000, arg1 := 4096, data := ascii "host::" }
      true,
    .packet 0 {},
    .readRemote 0 { command := .aOpen, arg0 := 7, arg1 := 0, data := ascii "tcp:5 " } true,
    .packet 0 {}]

/-- The connection ends, and the main thread hears of it. -/
def endsOrderly : List Label :=
  [.take 0 true, .take 0 true, .readFails 0, .sendOffline 0 true, .unref 0 .reader,
    .packet 0 {}, .take 0 true, .take 0 true, .unref 0 .writer, .sendRemoval 0 .writer]

def orderly : Process :=
  (threadSystem (plainConfig false false)).execute .initial (opensStream ++ endsOrderly)

theorem reachable_orderly :
    (threadSystem (plainConfig false false)).ReachableWhen (Undisturbed 0) orderly :=
  System.reachableWhen_execute ⟨.initial, rfl, .refl⟩ (by decide)

theorem threads_serve_orderly :
    (serverSystem (plainConfig false false)).Reachable orderly.server ∧
      orderly.server.sockets.halted ≠ some .check ∧ Exclusive orderly 0 := by
  have h := threads_serve reachable_orderly.reachable
  exact ⟨h.1, h.2.1, h.2.2 0 (by decide)⟩

theorem removal_after_offline_orderly :
    .remove 0 ∈ orderly.registration ∧ (orderly.link 0).toMain = [] ∧
      Cleared orderly.server 0 := by
  have hremove : .remove 0 ∈ orderly.registration := by decide
  exact ⟨hremove, removal_after_offline reachable_orderly hremove⟩

/-- A `Write` fails instead, and the registration socket is read first. -/
def endsAbruptly : List Label :=
  [.take 0 false, .unref 0 .writer, .readFails 0, .sendOffline 0 true, .unref 0 .reader,
    .sendRemoval 0 .reader, .registration {}]

def abrupt : Process :=
  (threadSystem (plainConfig false false)).execute .initial (opensStream ++ endsAbruptly)

/-- The transport is deleted while a socket refers to it. -/
theorem removal_overtakes_offline :
    (threadSystem (plainConfig false false)).Reachable abrupt ∧
      .deleted 0 ∈ abrupt.server.authLog ∧ 0 ∈ abrupt.server.sockets.localSocketList ∧
      TransportIsolation.Belongs abrupt.server.sockets 0 0 :=
  ⟨System.reachableWhen_execute ⟨.initial, rfl, .refl⟩ (by decide), by decide, by decide, by decide⟩

end Adb.TransportThreads
