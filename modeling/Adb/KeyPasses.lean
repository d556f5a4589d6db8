import Mathlib.Data.List.Nodup
import Mathlib.Order.Lattice
import Mathlib.Tactic.Tauto
import Adb.ServerRuns

/-!
The answers of adb_auth_host.cpp to the tokens of a device: the private keys in
passes, with the public key at the end of each.
-/

namespace Adb.KeyPasses

open Adb.DescriptorIo
open Adb.WirePackets
open Adb.ServerState

variable {F K : Type} [LinearOrder F] {hashKey : K → F}

/-- `g_keys`: the loaded keys in the order of their fingerprints. -/
structure KeyRing (hashKey : K → F) where
  keys : List K
  sorted : keys.Pairwise fun key key' => hashKey key < hashKey key'

/-- `g_keys` after a new key was put at its place. -/
def insertKey (hashKey : K → F) (key : K) : List K → List K
  | [] => [key]
  | key' :: keys =>
      if hashKey key < hashKey key' then key :: key' :: keys
      else key' :: insertKey hashKey key keys

theorem mem_insertKey {key key' : K} {keys : List K} :
    key' ∈ insertKey hashKey key keys ↔ key' = key ∨ key' ∈ keys := by
  induction keys with
  | nil => simp [insertKey]
  | cons first keys ih =>
      rw [insertKey]
      split
      · rw [List.mem_cons]
      · rw [List.mem_cons, ih, List.mem_cons]
        tauto

theorem sorted_insertKey {key : K} {keys : List K}
    (hsorted : keys.Pairwise fun key key' => hashKey key < hashKey key')
    (hnew : ∀ key' ∈ keys, hashKey key' ≠ hashKey key) :
    (insertKey hashKey key keys).Pairwise fun key key' => hashKey key < hashKey key' := by
  induction keys with
  | nil => exact List.pairwise_singleton _ _
  | cons first keys ih =>
      obtain ⟨hfirst, hrest⟩ := List.pairwise_cons.mp hsorted
      rw [insertKey]
      split
      · next hlt =>
          refine List.pairwise_cons.mpr ⟨?_, hsorted⟩
          intro key' hmem
          rcases List.mem_cons.mp hmem with rfl | hmem
          · exact hlt
          · exact lt_trans hlt (hfirst key' hmem)
      · next hle =>
          refine List.pairwise_cons.mpr
            ⟨?_, ih hrest fun key' hmem => hnew key' (List.mem_cons_of_mem _ hmem)⟩
          intro key' hmem
          rcases mem_insertKey.mp hmem with rfl | hmem
          · exact lt_of_le_of_ne (not_lt.mp hle) (hnew first List.mem_cons_self)
          · exact hfirst key' hmem

/-- `read_key_file` for a file with this key, or for one that cannot be read. -/
def readKeyFile (ring : KeyRing hashKey) (file : Option K) : KeyRing hashKey :=
  match file with
  | none => ring
  | some key =>
      if hloaded : ∀ key' ∈ ring.keys, hashKey key' ≠ hashKey key then
        ⟨insertKey hashKey key ring.keys, sorted_insertKey ring.sorted hloaded⟩
      else ring

/-- `adb_auth_get_private_keys`: the keys and the sentinel, which stands for the
public key. -/
def adbAuthGetPrivateKeys (ring : KeyRing hashKey) : List (Option K) :=
  ring.keys.map some ++ [none]

/-- `NextKey` on the queue `keys_` of a transport. -/
def nextKey (ring : KeyRing hashKey) (keys : List (Option K)) : Option K × List (Option K) :=
  match keys with
  | key :: keys => (key, keys)
  | [] =>
      match adbAuthGetPrivateKeys ring with
      | key :: keys => (key, keys)
      | [] => (none, [])

theorem nextKey_nil (ring : KeyRing hashKey) :
    nextKey ring [] = nextKey ring (adbAuthGetPrivateKeys ring) := by
  cases hkeys : adbAuthGetPrivateKeys ring with
  | nil => rfl
  | cons key keys => simp only [nextKey, hkeys]

/-- `adb_auth_sign` over `RSA_sign`; no bytes when signing fails. -/
def adbAuthSign (sign : K → Bytes → Bytes) (key : K) (token : Bytes) : Bytes :=
  if token.length ≠ tokenSize then [] else sign key token

/-- `send_auth_publickey` with the contents of the public key file. -/
def sendAuthPublicKey (userKey : Bytes) : Option Apacket :=
  if userKey = [] then none
  else if maxPayloadV1 ≤ userKey.length then none
  else some { command := .aAuth, arg0 := adbAuthRsaPublicKey, arg1 := 0, data := userKey ++ [0] }

/-- What `send_auth_response` sends for the key that it took. -/
def authResponse (sign : K → Bytes → Bytes) (userKey token : Bytes) (key : Option K) :
    Option Apacket :=
  match key with
  | none => sendAuthPublicKey userKey
  | some key =>
      if adbAuthSign sign key token = [] then none
      else some {
        command := .aAuth
        arg0 := adbAuthSignature
        arg1 := 0
        data := adbAuthSign sign key token }

/-- The host's keys, the queue of one transport and the keys it has taken. -/
structure Host (hashKey : K → F) where
  ring : KeyRing hashKey
  queue : List (Option K)
  taken : List (Option K)

/-- A key file appears, or a token arrives. -/
inductive Occasion (K : Type) where
  | keyFile (file : Option K)
  | token (token : Bytes)

/-- `send_auth_response`, with what it sends. -/
def sendAuthResponse (sign : K → Bytes → Bytes) (userKey : Bytes) (host : Host hashKey)
    (token : Bytes) : Option Apacket × Host hashKey :=
  let (key, queue) := nextKey host.ring host.queue
  (authResponse sign userKey token key,
    { host with queue := queue, taken := host.taken ++ [key] })

def occur (sign : K → Bytes → Bytes) (userKey : Bytes) (host : Host hashKey) :
    Occasion K → Host hashKey
  | .keyFile file => { host with ring := readKeyFile host.ring file }
  | .token token => (sendAuthResponse sign userKey host token).2

/-! ## Passes -/

def Occasion.isToken : Occasion K → Bool
  | .keyFile _ => false
  | .token _ => true

/-- How many tokens arrive. -/
def tokenCount (occasions : List (Occasion K)) : Nat := occasions.countP Occasion.isToken

/-- The keys after the key files among these. -/
def loaded (ring : KeyRing hashKey) (occasions : List (Occasion K)) : KeyRing hashKey :=
  occasions.foldl (fun ring occasion =>
    match occasion with
    | .keyFile file => readKeyFile ring file
    | .token _ => ring) ring

/-- The keys that the tokens ask for.  A pass begins with the first token after
the last pass; it takes the keys that are loaded when it begins, whatever key
files come during it, and the next pass begins where it has taken all of them. -/
inductive Passes : KeyRing hashKey → List (Occasion K) → List (Option K) → Prop where
  | idle {ring : KeyRing hashKey} {files : List (Occasion K)} (hfiles : tokenCount files = 0) :
      Passes ring files []
  | part {ring : KeyRing hashKey} {files more : List (Occasion K)} {token : Bytes}
      (hfiles : tokenCount files = 0)
      (hpart : tokenCount (.token token :: more) <
        (adbAuthGetPrivateKeys (loaded ring files)).length) :
      Passes ring (files ++ .token token :: more)
        ((adbAuthGetPrivateKeys (loaded ring files)).take (tokenCount (.token token :: more)))
  | whole {ring : KeyRing hashKey} {files more rest : List (Occasion K)} {token : Bytes}
      {taken : List (Option K)} (hfiles : tokenCount files = 0)
      (hwhole : tokenCount (.token token :: more) =
        (adbAuthGetPrivateKeys (loaded ring files)).length)
      (hrest : Passes (loaded ring (files ++ .token token :: more)) rest taken) :
      Passes ring (files ++ .token token :: more ++ rest)
        (adbAuthGetPrivateKeys (loaded ring files) ++ taken)

theorem loaded_append (ring : KeyRing hashKey) (first second : List (Occasion K)) :
    loaded ring (first ++ second) = loaded (loaded ring first) second :=
  List.foldl_append

theorem tokenCount_append (first second : List (Occasion K)) :
    tokenCount (first ++ second) = tokenCount first + tokenCount second :=
  List.countP_append

theorem tokenCount_token (token : Bytes) (occasions : List (Occasion K)) :
    tokenCount (.token token :: occasions) = tokenCount occasions + 1 :=
  List.countP_cons_of_pos rfl

section Runs

variable (sign : K → Bytes → Bytes) (userKey : Bytes)

/-- The host after these occasions. -/
def hostAfter (host : Host hashKey) (occasions : List (Occasion K)) : Host hashKey :=
  occasions.foldl (occur sign userKey) host

theorem hostAfter_of_queue (host : Host hashKey) {occasions : List (Occasion K)}
    (henough : tokenCount occasions ≤ host.queue.length) :
    hostAfter sign userKey host occasions =
      { ring := loaded host.ring occasions
        queue := host.queue.drop (tokenCount occasions)
        taken := host.taken ++ host.queue.take (tokenCount occasions) } := by
  induction occasions generalizing host with
  | nil => simp [hostAfter, tokenCount, loaded]
  | cons occasion occasions ih =>
      cases occasion with
      | keyFile file => exact ih { host with ring := readKeyFile host.ring file } henough
      | token token =>
          rw [tokenCount_token] at henough ⊢
          rcases hqueue : host.queue with _ | ⟨key, queue⟩
          · rw [hqueue] at henough
            cases henough
          · have hnext : occur sign userKey host (.token token) =
                { host with queue := queue, taken := host.taken ++ [key] } := by
              rw [occur, sendAuthResponse, hqueue, nextKey]
            have hrest := ih { host with queue := queue, taken := host.taken ++ [key] }
              (by rw [hqueue] at henough; exact Nat.le_of_succ_le_succ henough)
            rw [← hnext] at hrest
            refine hrest.trans ?_
            rw [hnext, List.append_assoc]
            rfl

theorem hostAfter_token {host : Host hashKey} (hqueue : host.queue = []) (token : Bytes)
    (occasions : List (Occasion K)) :
    hostAfter sign userKey host (.token token :: occasions) =
      hostAfter sign userKey { host with queue := adbAuthGetPrivateKeys host.ring }
        (.token token :: occasions) := by
  rw [hostAfter, List.foldl_cons, occur, sendAuthResponse, hqueue, nextKey_nil]
  rfl

theorem hostAfter_append (host : Host hashKey) (first second : List (Occasion K)) :
    hostAfter sign userKey host (first ++ second) =
      hostAfter sign userKey (hostAfter sign userKey host first) second :=
  List.foldl_append

end Runs

theorem exists_split_tokenCount (occasions : List (Occasion K)) {n : Nat}
    (h : n ≤ tokenCount occasions) :
    ∃ first rest, occasions = first ++ rest ∧ tokenCount first = n := by
  induction occasions using List.reverseRecOn with
  | nil => exact ⟨[], [], rfl, (Nat.le_zero.mp h).symm⟩
  | append_singleton occasions occasion ih =>
      rcases Nat.lt_or_ge (tokenCount occasions) n with hlt | hle
      · refine ⟨occasions ++ [occasion], [], (List.append_nil _).symm, ?_⟩
        have hone : tokenCount [occasion] ≤ 1 := List.countP_le_length
        rw [tokenCount_append] at h ⊢
        omega
      · obtain ⟨first, rest, rfl, hfirst⟩ := ih hle
        exact ⟨first, rest ++ [occasion], List.append_assoc _ _ _, hfirst⟩

theorem exists_first_token (occasions : List (Occasion K)) :
    tokenCount occasions = 0 ∨ ∃ files token more,
      occasions = files ++ .token token :: more ∧ tokenCount files = 0 := by
  induction occasions with
  | nil => exact .inl rfl
  | cons occasion occasions ih =>
      cases occasion with
      | token token => exact .inr ⟨[], token, occasions, rfl, rfl⟩
      | keyFile file =>
          rcases ih with hnone | ⟨files, token, more, rfl, hfiles⟩
          · exact .inl hnone
          · exact .inr ⟨.keyFile file :: files, token, more, rfl, hfiles⟩

theorem length_adbAuthGetPrivateKeys_pos (ring : KeyRing hashKey) :
    0 < (adbAuthGetPrivateKeys ring).length := by
  simp [adbAuthGetPrivateKeys]

/-- What a transport takes from an empty queue on. -/
theorem passes_of_idle (sign : K → Bytes → Bytes) (userKey : Bytes) (host : Host hashKey)
    (hqueue : host.queue = []) (occasions : List (Occasion K)) :
    ∃ taken, (hostAfter sign userKey host occasions).taken = host.taken ++ taken ∧
      Passes host.ring occasions taken := by
  induction hn : occasions.length using Nat.strongRecOn generalizing host occasions with
  | ind n ih =>
      have hidle : ∀ files : List (Occasion K), tokenCount files = 0 →
          hostAfter sign userKey host files =
            { ring := loaded host.ring files, queue := [], taken := host.taken } := by
        intro files hfiles
        rw [hostAfter_of_queue sign userKey host (by rw [hfiles]; exact Nat.zero_le _), hqueue,
          List.drop_nil, List.take_nil, List.append_nil]
      rcases exists_first_token occasions with hnone | ⟨files, token, more, rfl, hfiles⟩
      · exact ⟨[], by rw [hidle occasions hnone, List.append_nil], .idle hnone⟩
      -- The pass over the keys that are loaded at its first token.
      have hpass : ∀ more : List (Occasion K), tokenCount (.token token :: more) ≤
          (adbAuthGetPrivateKeys (loaded host.ring files)).length →
          hostAfter sign userKey host (files ++ .token token :: more) =
            { ring := loaded host.ring (files ++ .token token :: more)
              queue := (adbAuthGetPrivateKeys (loaded host.ring files)).drop
                (tokenCount (.token token :: more))
              taken := host.taken ++ (adbAuthGetPrivateKeys (loaded host.ring files)).take
                (tokenCount (.token token :: more)) } := by
        intro more hfits
        rw [hostAfter_append, hidle files hfiles, hostAfter_token sign userKey rfl,
          hostAfter_of_queue sign userKey _ hfits, loaded_append]
      rcases Nat.lt_or_ge (tokenCount (.token token :: more))
        (adbAuthGetPrivateKeys (loaded host.ring files)).length with hpart | hwhole
      · exact ⟨_, by rw [hpass more (Nat.le_of_lt hpart)], .part hfiles hpart⟩
      · have hpos := length_adbAuthGetPrivateKeys_pos (loaded host.ring files)
        rw [tokenCount_token] at hwhole
        obtain ⟨first, rest, rfl, hfirst⟩ := exists_split_tokenCount more
          (n := (adbAuthGetPrivateKeys (loaded host.ring files)).length - 1) (by omega)
        have hall : tokenCount (.token token :: first) =
            (adbAuthGetPrivateKeys (loaded host.ring files)).length := by
          rw [tokenCount_token, hfirst]
          omega
        have hdone := hpass first (Nat.le_of_eq hall)
        rw [hall, List.drop_length, List.take_length] at hdone
        obtain ⟨taken, htaken, hrest⟩ := ih rest.length
          (by rw [← hn]; simp only [List.length_append, List.length_cons]; omega)
          (hostAfter sign userKey host (files ++ .token token :: first))
          (by rw [hdone]) rest rfl
        rw [hdone] at hrest
        have hsplit : files ++ .token token :: (first ++ rest) =
            files ++ .token token :: first ++ rest := by
          rw [List.append_assoc, List.cons_append]
        refine ⟨_, ?_, hsplit ▸ Passes.whole hfiles hall hrest⟩
        rw [hsplit, hostAfter_append, htaken, hdone, List.append_assoc]

/-- The keys of one ring are those of a later one, and perhaps more. -/
def Within (ring ring' : KeyRing hashKey) : Prop := ring.keys ⊆ ring'.keys

theorem within_readKeyFile (ring : KeyRing hashKey) (file : Option K) :
    Within ring (readKeyFile ring file) := by
  unfold readKeyFile
  split
  · exact List.Subset.refl _
  · split
    · intro key hmem
      exact mem_insertKey.mpr (Or.inr hmem)
    · exact List.Subset.refl _

theorem within_loaded (ring : KeyRing hashKey) (occasions : List (Occasion K)) :
    Within ring (loaded ring occasions) := by
  induction occasions generalizing ring with
  | nil => exact List.Subset.refl _
  | cons occasion occasions ih =>
      cases occasion with
      | keyFile file => exact List.Subset.trans (within_readKeyFile ring file) (ih _)
      | token token => exact ih ring

theorem nodup_adbAuthGetPrivateKeys (ring : KeyRing hashKey) :
    (adbAuthGetPrivateKeys ring).Nodup := by
  have hnodup : ring.keys.Nodup :=
    ring.sorted.imp fun hlt heq => absurd (heq ▸ hlt) (lt_irrefl _)
  refine List.nodup_append.mpr ⟨?_, List.pairwise_singleton _ _, ?_⟩
  · exact List.Nodup.map (fun _ _ h => Option.some.inj h) hnodup
  · intro a hmem b hb
    obtain ⟨key, -, rfl⟩ := List.mem_map.mp hmem
    rw [List.mem_singleton.mp hb]
    exact Option.some_ne_none key

/-- However tokens and new key files come, the keys that a new transport takes
are those of the passes over the loaded keys; no pass has a key twice, and a key
that is loaded stays so. -/
theorem keys_in_passes (sign : K → Bytes → Bytes) (userKey : Bytes) (ring : KeyRing hashKey)
    (occasions : List (Occasion K)) :
    Passes ring occasions (hostAfter sign userKey ⟨ring, [], []⟩ occasions).taken ∧
      ∀ first more, occasions = first ++ more →
        (adbAuthGetPrivateKeys (loaded ring first)).Nodup ∧
          Within (loaded ring first) (loaded ring occasions) := by
  constructor
  · obtain ⟨taken, htaken, hpasses⟩ :=
      passes_of_idle sign userKey ⟨ring, [], []⟩ rfl occasions
    rw [htaken]
    exact hpasses
  · rintro first more rfl
    rw [loaded_append]
    exact ⟨nodup_adbAuthGetPrivateKeys _, within_loaded _ _⟩

end Adb.KeyPasses
