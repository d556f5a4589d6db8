import Adb.DirectoryPull
import Adb.ProtocolStrings
import Adb.SyncSessions

/-!
Where `copy_remote_dir_local` makes files and directories.  `IsDotOrDotDot`
looks at whole names only, so a name with a separator in it can lead out of the
directory that it is listed in.
-/

namespace Adb.PullContainment

open Adb.DescriptorIo
open Adb.DirectoryPull
open Adb.HostPaths
open Adb.PathResolution
open Adb.ProtocolStrings
open Adb.StoppingPrograms
open Adb.SyncClient
open Adb.SyncClientRuns (wordOf_word)
open Adb.SyncMessages
open Adb.SyncService (Dent dent dentDone)
open Adb.SyncSessions (dentHeader length_dentDone length_dentHeader length_word wordOf_dentDone)
open Adb.SyncTransfers
open Adb.WirePackets

/-- The path leads into the destination. -/
def Inside (pull : Pull) (path : Bytes) : Prop := (resolve pull.lpath).Under (resolve path)

/-- All changes are made inside the destination. -/
def Contained (pull : Pull) (s : Download) : Prop := ∀ c ∈ s.changes, Inside pull c.path

instance (pull : Pull) (s : Download) : Decidable (Contained pull s) :=
  inferInstanceAs (Decidable (∀ c ∈ s.changes, (resolve pull.lpath).Under (resolve c.path)))

/-- Read component by component, the name leaves the directory it is listed in. -/
def NameClimbs (name : Bytes) : Prop := Climbs 0 (stepsOf name)

/-- A name that `sync_ls` can give to its callback. -/
def Deliverable (name : Bytes) : Prop := name.length ≤ maxNameLength ∧ 0 ∉ name

section

variable {path lpath : Bytes}

theorem resolve_withSeparator (h : path ≠ []) : resolve (withSeparator path) = resolve path := by
  rw [withSeparator]
  split
  · rfl
  · exact resolve_append_separator h

theorem resolve_withSeparator_append (h : path ≠ []) (name : Bytes) :
    resolve (withSeparator path ++ name) = (resolve path).walk (stepsOf name) := by
  rw [withSeparator]
  split
  · next hlast =>
      obtain ⟨front, rfl⟩ := List.getLast?_eq_some_iff.mp hlast
      rw [List.append_assoc]
      cases front with
      | nil => rfl
      | cons b front =>
          rw [resolve_append_separator (List.cons_ne_nil b front)]
          exact resolve_append (List.cons_ne_nil b front) name
  · rw [List.append_assoc]
    exact resolve_append h name

theorem withSeparator_ne_nil (path : Bytes) : withSeparator path ≠ [] := by
  rw [withSeparator]
  split
  · next hlast =>
      rintro rfl
      exact absurd hlast (by simp)
  · simp

theorem lpath_copyInfo (lpath rpath name : Bytes) (mode : Nat) :
    (copyInfo lpath rpath name mode).lpath = withSeparator lpath ++ name ∨
      (copyInfo lpath rpath name mode).lpath = withSeparator (withSeparator lpath ++ name) := by
  rw [copyInfo]
  split
  · exact .inr rfl
  · exact .inl rfl

theorem lpath_copyInfo_ne_nil (lpath rpath name : Bytes) (mode : Nat) :
    (copyInfo lpath rpath name mode).lpath ≠ [] := by
  rcases lpath_copyInfo lpath rpath name mode with h | h
  · rw [h]
    simp [withSeparator_ne_nil]
  · rw [h]
    exact withSeparator_ne_nil _

theorem resolve_copyInfo (h : lpath ≠ []) (rpath name : Bytes) (mode : Nat) :
    resolve (copyInfo lpath rpath name mode).lpath = (resolve lpath).walk (stepsOf name) := by
  rcases lpath_copyInfo lpath rpath name mode with hlpath | hlpath
  · rw [hlpath, resolve_withSeparator_append h]
  · rw [hlpath, resolve_withSeparator (by simp [withSeparator_ne_nil]),
      resolve_withSeparator_append h]

theorem resolve_selfEntry (paths : PathFunctions) (rpath lpath : Bytes) :
    resolve (selfEntry paths.dirname paths.basename rpath lpath).lpath = resolve lpath := by
  rw [selfEntry, resolve_copyInfo (paths.dirname_ne_nil lpath),
    ← resolve_append (paths.dirname_ne_nil lpath)]
  exact paths.resolve_join lpath

end

/-- What holds across every call: the changes are made at allowed paths, names
are only added, and the stream gets shorter. -/
structure Proceeds (Allowed : Bytes → Prop) (s s' : Download) : Prop where
  changes : (∀ c ∈ s.changes, Allowed c.path) → ∀ c ∈ s'.changes, Allowed c.path
  listed : s.listed ⊆ s'.listed
  deliverable : (∀ name ∈ s.listed, Deliverable name) → ∀ name ∈ s'.listed, Deliverable name
  incoming : s'.incoming.length ≤ s.incoming.length
  exhausted : s'.exhausted = s.exhausted

section

variable {α β : Type} {Allowed : Bytes → Prop} {root : Place Bytes} {s s' : Download}

theorem Proceeds.refl (s : Download) : Proceeds Allowed s s :=
  ⟨id, fun _ h => h, id, Nat.le_refl _, rfl⟩

theorem Proceeds.trans {s'' : Download} (h : Proceeds Allowed s s') (h' : Proceeds Allowed s' s'') :
    Proceeds Allowed s s'' where
  changes := h'.changes ∘ h.changes
  listed := List.Subset.trans h.listed h'.listed
  deliverable := h'.deliverable ∘ h.deliverable
  incoming := Nat.le_trans h'.incoming h.incoming
  exhausted := h'.exhausted.trans h.exhausted

def ProceedsThen (Allowed : Bytes → Prop) (program : Puller α) (s : Download)
    (post : α → Download → Prop) : Prop :=
  Ensures program s (fun a s' => Proceeds Allowed s s' ∧ post a s') (Proceeds Allowed s)

theorem ProceedsThen.imp {program : Puller α} {post post' : α → Download → Prop}
    (h : ProceedsThen Allowed program s post) (hpost : ∀ a s', post a s' → post' a s') :
    ProceedsThen Allowed program s post' :=
  Ensures.imp h (fun a s' h => ⟨h.1, hpost a s' h.2⟩) (fun _ h => h)

theorem ProceedsThen.of_proceeds {program : Puller α} {post : α → Download → Prop}
    (h : Proceeds Allowed s s') (hprogram : ProceedsThen Allowed program s' post) :
    Ensures program s' (fun a s'' => Proceeds Allowed s s'' ∧ post a s'') (Proceeds Allowed s) :=
  Ensures.imp hprogram (fun _ _ hpost => ⟨h.trans hpost.1, hpost.2⟩) (fun _ hstop => h.trans hstop)

theorem ProceedsThen.bind {program : Puller α} {next : α → Puller β} {middle : α → Download → Prop}
    {post : β → Download → Prop} (h : ProceedsThen Allowed program s middle)
    (hnext : ∀ a s', Proceeds Allowed s s' → middle a s' → ProceedsThen Allowed (next a) s' post) :
    ProceedsThen Allowed (program >>= next) s post :=
  Ensures.bind h fun a s' hmiddle => (hnext a s' hmiddle.1 hmiddle.2).of_proceeds hmiddle.1

theorem proceeds_pure {a : α} {post : α → Download → Prop} (h : post a s) :
    ProceedsThen Allowed (pure a) s post :=
  ⟨Proceeds.refl s, h⟩

theorem proceeds_throw {post : α → Download → Prop} : ProceedsThen Allowed (throw ()) s post :=
  Proceeds.refl s

theorem proceeds_get : ProceedsThen Allowed get s fun a s' => a = s ∧ s' = s :=
  ⟨Proceeds.refl s, rfl, rfl⟩

theorem proceeds_ask (answer : Nat → α) : ProceedsThen Allowed (ask answer) s fun _ _ => True :=
  ⟨⟨id, fun _ h => h, id, Nat.le_refl _, rfl⟩, trivial⟩

theorem proceeds_readFdExactly (n : Nat) :
    ProceedsThen Allowed (readFdExactly n) s fun bytes s' =>
      ∀ msg ∈ bytes, msg.length = n ∧ s'.incoming.length + n = s.incoming.length := by
  rw [readFdExactly]
  apply proceeds_get.bind
  rintro _ _ - ⟨rfl, rfl⟩
  split
  · next hn =>
      refine ⟨⟨id, fun _ h => h, id, ?_, rfl⟩, ?_⟩
      · exact List.length_drop.trans_le (Nat.sub_le _ n)
      · rintro msg ⟨⟩
        simp only [List.length_take, List.length_drop]
        omega
  · exact ⟨⟨id, fun _ h => h, id, Nat.zero_le _, rfl⟩, by simp⟩

variable (paths : PathFunctions) (machine : Machine)

theorem proceeds_haveStatV2 : ProceedsThen Allowed haveStatV2 s fun _ _ => True :=
  ⟨Proceeds.refl s, trivial⟩

theorem proceeds_rounds :
    ProceedsThen Allowed rounds s fun n s' => n = s.incoming.length + 1 ∧ s' = s :=
  ⟨Proceeds.refl s, rfl, rfl⟩

theorem proceeds_sendRequest (id earlier : Nat) (path : Bytes) :
    ProceedsThen Allowed ((pulling paths machine).sendRequest id earlier path) s
      fun _ _ => True := by
  rw [Socket.sendRequest]
  split
  · exact proceeds_pure trivial
  · exact proceeds_ask _

theorem proceeds_finishStat :
    ProceedsThen Allowed (pulling paths machine).finishStat s fun _ _ => True := by
  rw [SyncConnection.finishStat]
  apply proceeds_haveStatV2.bind
  intro v2 s₁ _ _
  apply (proceeds_readFdExactly _).bind
  intro msg s₂ _ _
  split
  · exact proceeds_throw
  · exact proceeds_pure trivial

theorem proceeds_syncLstat (path : Bytes) :
    ProceedsThen Allowed ((pulling paths machine).syncLstat path) s fun _ _ => True := by
  rw [SyncConnection.syncLstat, SyncConnection.sendLstat]
  apply (proceeds_haveStatV2.bind fun _ _ _ _ => proceeds_sendRequest paths machine _ 0 path).bind
  intro ok s₁ _ _
  split
  · exact proceeds_finishStat paths machine
  · exact proceeds_pure trivial

theorem proceeds_syncStat (path : Bytes) :
    ProceedsThen Allowed ((pulling paths machine).syncStat path) s fun _ _ => True := by
  rw [SyncConnection.syncStat]
  apply proceeds_haveStatV2.bind
  intro v2 s₁ _ _
  split
  · exact proceeds_pure trivial
  · apply (proceeds_sendRequest paths machine idStatV2 0 path).bind
    intro ok s₂ _ _
    split
    · exact proceeds_finishStat paths machine
    · exact proceeds_pure trivial

theorem proceeds_syncStatFallback (path : Bytes) :
    ProceedsThen Allowed ((pulling paths machine).syncStatFallback path) s fun _ _ => True := by
  rw [SyncPull.syncStatFallback, SyncClient.syncStatFallback]
  apply (proceeds_syncStat paths machine path).bind
  intro first s₁ _ _
  split
  · exact proceeds_pure trivial
  · apply (proceeds_syncLstat paths machine path).bind
    intro second s₂ _ _
    split
    · exact proceeds_pure trivial
    · split
      · apply (proceeds_syncLstat paths machine _).bind
        intro target s₃ _ _
        split
        · exact proceeds_pure trivial
        · exact proceeds_pure trivial
      · exact proceeds_pure trivial
  · exact proceeds_pure trivial

theorem proceeds_checkLinks (links : List CopyInfo) :
    ProceedsThen Allowed (checkLinks (pulling paths machine).lister links) s fun checked _ =>
      checked.1 ⊆ links ∧ checked.2 ⊆ links := by
  induction links generalizing s with
  | nil => exact proceeds_pure ⟨List.Subset.refl _, List.Subset.refl _⟩
  | cons ci links ih =>
      rw [checkLinks]
      apply (proceeds_syncStatFallback paths machine ci.rpath).bind
      intro st s₁ _ _
      apply ih.bind
      rintro checked s₂ - ⟨hdirs, hfiles⟩
      have hdirs' := List.subset_cons_of_subset ci hdirs
      have hfiles' := List.subset_cons_of_subset ci hfiles
      split
      · exact proceeds_pure ⟨hdirs', hfiles'⟩
      · split
        · exact proceeds_pure ⟨List.cons_subset_cons ci hdirs, hfiles'⟩
        · exact proceeds_pure ⟨hdirs', List.cons_subset_cons ci hfiles⟩

theorem deliverable_cString {name : Bytes} (h : name.length ≤ maxNameLength) :
    Deliverable (cString name) := by
  constructor
  · exact (List.takeWhile_prefix _).length_le.trans h
  · intro hmem
    exact absurd (List.mem_takeWhile_imp hmem) (by decide)

theorem proceeds_noteName {name : Bytes} (hname : name.length ≤ maxNameLength) :
    ProceedsThen Allowed (noteName (cString name)) s fun _ s' =>
      cString name ∈ s'.listed ∧ s'.incoming = s.incoming := by
  refine ⟨⟨id, ?_, ?_, Nat.le_refl _, rfl⟩, ?_, rfl⟩
  · exact List.subset_append_left _ _
  · intro hs other hother
    rcases List.mem_append.mp hother with hother | hother
    · exact hs other hother
    · rw [List.mem_singleton.mp hother]
      exact deliverable_cString hname
  · exact List.mem_append_right _ (List.mem_singleton_self _)

/-- What a listing that has come to its end gives. -/
def Listing (s : Download) (found : Option (List Dent)) (s' : Download) : Prop :=
  ∀ entries ∈ found, s'.incoming.length < s.incoming.length ∧
    ∀ entry ∈ entries, entry.name ∈ s'.listed

theorem proceeds_readDents {fuel : Nat} (hfuel : s.incoming.length < fuel) :
    ProceedsThen Allowed ((pulling paths machine).readDents fuel) s (Listing s) := by
  induction fuel generalizing s with
  | zero => exact absurd hfuel (Nat.not_lt_zero _)
  | succ fuel ih =>
      rw [SyncPull.readDents]
      apply (proceeds_readFdExactly dentSize).bind
      intro msg s₁ _ hmsg
      cases msg with
      | none => exact proceeds_pure (by simp [Listing])
      | some msg =>
          have hlt : s₁.incoming.length < s.incoming.length := by
            have hread := (hmsg msg rfl).2
            simp only [dentSize] at hread
            omega
          simp only []
          split
          · exact proceeds_pure (by simp [Listing, hlt])
          split
          · exact proceeds_pure (by simp [Listing])
          split
          · exact proceeds_pure (by simp [Listing])
          next hlength =>
          apply (proceeds_readFdExactly _).bind
          intro name s₂ hproceeds₂ hname
          cases name with
          | none => exact proceeds_pure (by simp [Listing])
          | some name =>
              have hle := hproceeds₂.incoming
              apply (proceeds_noteName (by
                rw [(hname name rfl).1]
                exact Nat.le_of_not_lt hlength)).bind
              rintro _ s₃ - ⟨hentry, hincoming⟩
              rw [← hincoming] at hle
              apply (ih (by omega)).bind
              intro rest s₄ hproceeds₄ hrest
              apply proceeds_pure
              intro entries hentries
              obtain ⟨entries, rfl, rfl⟩ := Option.map_eq_some_iff.mp hentries
              obtain ⟨hlt₄, hnames⟩ := hrest entries rfl
              refine ⟨by omega, ?_⟩
              rintro entry' hentry'
              rcases List.mem_cons.mp hentry' with rfl | hentry'
              · exact hproceeds₄.listed hentry
              · exact hnames entry' hentry'

theorem proceeds_syncLs (path : Bytes) :
    ProceedsThen Allowed ((pulling paths machine).syncLs path) s (Listing s) := by
  rw [SyncPull.syncLs]
  apply (proceeds_sendRequest paths machine idList 0 path).bind
  intro ok s₁ hproceeds _
  split
  · apply proceeds_rounds.bind
    rintro _ _ - ⟨rfl, rfl⟩
    apply (proceeds_readDents paths machine (Nat.lt_succ_self _)).imp
    intro found s₂ hlisting entries hentries
    exact ⟨(hlisting entries hentries).1.trans_le hproceeds.incoming,
      (hlisting entries hentries).2⟩
  · exact proceeds_pure (by simp [Listing])

/-- No listed name that `IsDotOrDotDot` lets through climbs. -/
def Harmless (s : Download) : Prop :=
  ∀ name ∈ s.listed, isDotOrDotDot name = true ∨ ¬ NameClimbs name

theorem Harmless.of_proceeds (h : Proceeds Allowed s s') (hs' : Harmless s') : Harmless s :=
  fun name hname => hs' name (h.listed hname)

/-- Every entry lies under the root. -/
def AllUnder (root : Place Bytes) (entries : List CopyInfo) : Prop :=
  ∀ ci ∈ entries, root.Under (resolve ci.lpath)

theorem AllUnder.append {first second : List CopyInfo} (h : AllUnder root first)
    (h' : AllUnder root second) : AllUnder root (first ++ second) := by
  intro ci hci
  rcases List.mem_append.mp hci with hci | hci
  · exact h ci hci
  · exact h' ci hci

theorem AllUnder.of_subset {entries some : List CopyInfo} (h : AllUnder root entries)
    (hsubset : some ⊆ entries) : AllUnder root some :=
  fun ci hci => h ci (hsubset hci)

/-- A list that is built under the root when all names are harmless. -/
def Builds (root : Place Bytes) (start : Prop) (found : Option (List CopyInfo)) (s : Download) :
    Prop :=
  Harmless s → start → ∀ entries ∈ found, AllUnder root entries

theorem proceeds_buildRemoteDirs {build : Bytes → Bytes → Puller (Option (List CopyInfo))}
    {bound : Nat}
    (hbuild : ∀ rpath lpath s, s.incoming.length < bound → lpath ≠ [] →
      ProceedsThen Allowed (build rpath lpath) s (Builds root (root.Under (resolve lpath))))
    (dirs : List CopyInfo) (hdirs : ∀ ci ∈ dirs, ci.lpath ≠ []) (hs : s.incoming.length < bound) :
    ProceedsThen Allowed (buildRemoteDirs build dirs) s (Builds root (AllUnder root dirs)) := by
  induction dirs generalizing s with
  | nil =>
      apply proceeds_pure
      rintro - - entries ⟨⟩ ci hci
      exact absurd hci List.not_mem_nil
  | cons ci dirs ih =>
      rw [buildRemoteDirs]
      apply (hbuild ci.rpath ci.lpath s hs (hdirs ci List.mem_cons_self)).bind
      intro found s₁ hproceeds₁ hfound
      cases found with
      | none =>
          apply proceeds_pure
          rintro - - entries ⟨⟩
      | some found =>
          apply (ih (fun ci hci => hdirs ci (List.mem_cons_of_mem _ hci))
            (hproceeds₁.incoming.trans_lt hs)).bind
          intro rest s₂ hproceeds₂ hrest
          apply proceeds_pure
          intro hharmless hunder entries hentries
          obtain ⟨rest, rfl, rfl⟩ := Option.map_eq_some_iff.mp hentries
          apply AllUnder.append
          · exact hfound (hharmless.of_proceeds hproceeds₂) (hunder ci List.mem_cons_self) found rfl
          · exact hrest hharmless (hunder.of_subset (List.subset_cons_self ci dirs)) rest rfl

/-- An entry that passes the filter is under the root if its directory is. -/
theorem under_copyInfo {lpath rpath name : Bytes} (hlpath : lpath ≠ [])
    (hunder : root.Under (resolve lpath)) (hname : isDotOrDotDot name = true ∨ ¬ NameClimbs name)
    (hfilter : (!isDotOrDotDot name) = true) (mode : Nat) :
    root.Under (resolve (copyInfo lpath rpath name mode).lpath) := by
  rw [resolve_copyInfo hlpath]
  apply walk_under hunder
  rcases hname with hname | hname
  · rw [hname] at hfilter
    exact absurd hfilter (by decide)
  · exact hname

theorem allUnder_entries {lpath rpath : Bytes} {entries : List Dent} (hlpath : lpath ≠ [])
    (hunder : root.Under (resolve lpath))
    (hentries : ∀ entry ∈ entries, isDotOrDotDot entry.name = true ∨ ¬ NameClimbs entry.name)
    (p : Dent → Bool) (info : Dent → CopyInfo)
    (hinfo : ∀ entry, (info entry).lpath = (copyInfo lpath rpath entry.name entry.mode).lpath) :
    AllUnder root (((entries.filter fun entry => !isDotOrDotDot entry.name).filter p).map info) := by
  intro ci hci
  obtain ⟨entry, hentry, rfl⟩ := List.mem_map.mp hci
  obtain ⟨hmem, hfilter⟩ := List.mem_filter.mp (List.mem_filter.mp hentry).1
  rw [hinfo]
  exact under_copyInfo hlpath hunder (hentries entry hmem) hfilter entry.mode

theorem proceeds_remoteBuildList {fuel : Nat} {rpath lpath : Bytes}
    (hfuel : s.incoming.length < fuel) (hlpath : lpath ≠ []) :
    ProceedsThen Allowed (remoteBuildList (pulling paths machine).lister fuel rpath lpath) s
      (Builds root (root.Under (resolve lpath))) := by
  induction fuel generalizing s rpath lpath with
  | zero => exact absurd hfuel (Nat.not_lt_zero _)
  | succ fuel ih =>
      rw [remoteBuildList]
      apply (proceeds_syncLs paths machine rpath).bind
      intro found s₁ hproceeds₁ hfound
      cases found with
      | none =>
          apply proceeds_pure
          rintro - - entries ⟨⟩
      | some entries =>
          obtain ⟨hlt, hnames⟩ := hfound entries rfl
          have hdirs : ∀ (p : Dent → Bool), ∀ ci ∈ (List.filter p
              (entries.filter fun entry => !isDotOrDotDot entry.name)).map
                (fun entry => copyInfo lpath rpath entry.name entry.mode), ci.lpath ≠ [] := by
            intro p ci hci
            obtain ⟨entry, -, rfl⟩ := List.mem_map.mp hci
            exact lpath_copyInfo_ne_nil lpath rpath entry.name entry.mode
          apply (proceeds_checkLinks paths machine _).bind
          rintro checked s₂ hproceeds₂ ⟨hlinkDirs, hlinkFiles⟩
          have hsmall : s₂.incoming.length < fuel := by
            have hle := hproceeds₂.incoming
            omega
          apply (proceeds_buildRemoteDirs (fun rpath lpath s hs hlpath => ih hs hlpath) _ _
            hsmall).bind
          · intro rest s₃ hproceeds₃ hrest
            apply proceeds_pure
            intro hharmless hunder list hlist
            obtain ⟨rest, rfl, rfl⟩ := Option.map_eq_some_iff.mp hlist
            have hproceeds : Proceeds Allowed s₁ s₃ := hproceeds₂.trans hproceeds₃
            have hentries : ∀ entry ∈ entries, isDotOrDotDot entry.name = true ∨
                ¬ NameClimbs entry.name :=
              fun entry hentry => hharmless entry.name (hproceeds.listed (hnames entry hentry))
            have hself : AllUnder root [selfEntry paths.dirname paths.basename rpath lpath] := by
              intro ci hci
              rw [List.mem_singleton.mp hci, resolve_selfEntry]
              exact hunder
            have hinfos := fun p => allUnder_entries hlpath hunder hentries p
              (fun entry => copyInfo lpath rpath entry.name entry.mode) (fun _ => rfl)
            apply ((hself.append (allUnder_entries hlpath hunder hentries _
              (fileEntry rpath lpath) fun _ => rfl)).append
                ((hinfos _).of_subset hlinkFiles)).append
            apply hrest hharmless _ rest rfl
            apply AllUnder.of_subset _ (List.reverse_subset.mpr (List.Subset.refl _))
            exact (hinfos _).append ((hinfos _).of_subset hlinkDirs)
          · intro ci hci
            rcases List.mem_append.mp (List.mem_reverse.mp hci) with hci | hci
            · exact hdirs _ ci hci
            · exact hdirs _ ci (hlinkDirs hci)

theorem proceeds_change {c : Change} (hc : Allowed c.path) :
    ProceedsThen Allowed (change c) s fun _ s' => s'.incoming = s.incoming := by
  refine ⟨⟨?_, fun _ h => h, id, Nat.le_refl _, rfl⟩, rfl⟩
  intro hs c' hc'
  rcases List.mem_append.mp hc' with hc' | hc'
  · exact hs c' hc'
  · rw [List.mem_singleton.mp hc']
    exact hc

theorem proceeds_unlink {lpath : Bytes} (hallowed : Allowed lpath) :
    ProceedsThen Allowed (do change (.unlink lpath); pure false) s fun _ _ => True :=
  (proceeds_change hallowed).bind fun _ _ _ _ => proceeds_pure trivial

theorem proceeds_recvMessages {lpath : Bytes} {fuel : Nat} (hallowed : Allowed lpath)
    (hfuel : s.incoming.length < fuel) :
    ProceedsThen Allowed ((pulling paths machine).recvMessages lpath fuel) s fun _ _ => True := by
  induction fuel generalizing s with
  | zero => exact absurd hfuel (Nat.not_lt_zero _)
  | succ fuel ih =>
      rw [SyncRecv.recvMessages]
      apply (proceeds_readFdExactly headerSize).bind
      intro msg s₁ _ hmsg
      cases msg with
      | none => exact proceeds_unlink hallowed
      | some msg =>
          have hlt : s₁.incoming.length < s.incoming.length := by
            have hread := (hmsg msg rfl).2
            simp only [headerSize] at hread
            omega
          simp only []
          split
          · exact proceeds_pure trivial
          split
          · apply (proceeds_change hallowed).bind
            intro _ s₂ _ _
            have hreport : ProceedsThen Allowed ((pulling paths machine).reportCopyFailure msg) s₂
                fun _ _ => True :=
              (proceeds_readFdExactly _).bind fun _ _ _ _ => proceeds_pure trivial
            exact hreport.bind fun _ _ _ _ => proceeds_pure trivial
          split
          · exact proceeds_unlink hallowed
          apply (proceeds_readFdExactly _).bind
          intro data s₂ hproceeds₂ _
          cases data with
          | none => exact proceeds_unlink hallowed
          | some data =>
              apply (proceeds_ask machine.written).bind
              intro written s₃ hproceeds₃ _
              split
              · have hle := hproceeds₃.incoming.trans hproceeds₂.incoming
                exact ih (by omega)
              · exact proceeds_unlink hallowed

theorem proceeds_syncRecv {lpath : Bytes} (rpath : Bytes) (hallowed : Allowed lpath) :
    ProceedsThen Allowed ((pulling paths machine).syncRecv rpath lpath) s fun _ _ => True := by
  rw [SyncRecv.syncRecv]
  apply (proceeds_sendRequest paths machine idRecv 0 rpath).bind
  intro ok s₁ _ _
  split
  · apply (proceeds_change hallowed).bind
    intro _ s₂ _ _
    have hcreat : ProceedsThen Allowed (creat machine lpath) s₂ fun _ _ => True :=
      (proceeds_change hallowed).bind fun _ _ _ _ => proceeds_ask machine.created
    apply hcreat.bind
    intro created s₃ _ _
    split
    · apply proceeds_rounds.bind
      rintro _ _ - ⟨rfl, rfl⟩
      exact proceeds_recvMessages paths machine hallowed (Nat.lt_succ_self _)
    · exact proceeds_pure trivial
  · exact proceeds_pure trivial

theorem proceeds_pullEntry (copyAttrs : Bool) {ci : CopyInfo} (hallowed : Allowed ci.lpath) :
    ProceedsThen Allowed ((pulling paths machine).pullEntry copyAttrs ci) s fun _ _ => True := by
  rw [SyncPull.pullEntry]
  split
  · exact proceeds_pure trivial
  split
  · apply (proceeds_change hallowed).bind
    intro _ s₁ _ _
    exact proceeds_ask machine.madeDirs
  · rw [SyncPull.pullFile]
    apply (proceeds_syncRecv paths machine ci.rpath hallowed).bind
    intro ok s₁ _ _
    split
    · rw [SyncPull.copyAttributes]
      split
      · exact proceeds_ask machine.setTimeAndMode
      · exact proceeds_pure trivial
    · exact proceeds_pure trivial

theorem proceeds_pullEntries (copyAttrs : Bool) {entries : List CopyInfo}
    (hallowed : ∀ ci ∈ entries, Allowed ci.lpath) :
    ProceedsThen Allowed ((pulling paths machine).pullEntries copyAttrs entries) s
      fun _ _ => True := by
  induction entries generalizing s with
  | nil => exact proceeds_pure trivial
  | cons ci entries ih =>
      rw [SyncPull.pullEntries]
      apply (proceeds_pullEntry paths machine copyAttrs (hallowed ci List.mem_cons_self)).bind
      intro ok s₁ _ _
      split
      · exact ih (fun ci hci => hallowed ci (List.mem_cons_of_mem _ hci))
      · exact proceeds_pure trivial

/-- How a pull may end: its loops have run as long as those of the source, and
harmless names have kept it inside the destination. -/
structure Ends (pull : Pull) (s s' : Download) : Prop where
  exhausted : s'.exhausted = s.exhausted
  deliverable : (∀ name ∈ s.listed, Deliverable name) → ∀ name ∈ s'.listed, Deliverable name
  contained : Harmless s' → Contained pull s'

variable {pull : Pull}

theorem ends_pullEntries (copyAttrs : Bool) {entries : List CopyInfo} (hs : Contained pull s)
    (hentries : Harmless s → AllUnder (resolve pull.lpath) entries) :
    Ensures ((pulling paths machine).pullEntries copyAttrs entries) s (fun _ => Ends pull s)
      (Ends pull s) := by
  rcases Classical.em (Harmless s) with hharmless | hharmless
  · have hpull : ProceedsThen (Inside pull) ((pulling paths machine).pullEntries copyAttrs entries)
        s fun _ _ => True := proceeds_pullEntries paths machine copyAttrs (hentries hharmless)
    have hends : ∀ s', Proceeds (Inside pull) s s' → Ends pull s s' :=
      fun s' h => ⟨h.exhausted, h.deliverable, fun _ => h.changes hs⟩
    exact Ensures.imp hpull (fun _ s' h => hends s' h.1) hends
  · -- A listed name that climbs stays listed.
    have hpull : ProceedsThen (fun _ => True)
        ((pulling paths machine).pullEntries copyAttrs entries) s fun _ _ => True :=
      proceeds_pullEntries paths machine copyAttrs fun _ _ => trivial
    have hends : ∀ s', Proceeds (fun _ => True) s s' → Ends pull s s' :=
      fun s' h => ⟨h.exhausted, h.deliverable, fun hs' => absurd (hs'.of_proceeds h) hharmless⟩
    exact Ensures.imp hpull (fun _ s' h => hends s' h.1) hends

theorem ends_copyRemoteDirLocal (copyAttrs : Bool) {depth : Nat} (hdepth : s.incoming.length < depth)
    (hs : Contained pull s) :
    Ensures ((pulling paths machine).copyRemoteDirLocal depth pull.rpath pull.lpath copyAttrs) s
      (fun _ => Ends pull s) (Ends pull s) := by
  have hdestination : (resolve pull.lpath).Under (resolve (withSeparator pull.lpath)) := by
    rw [resolve_withSeparator pull.lpath_ne_nil]
    exact under_refl _
  have hbuild : ProceedsThen (Inside pull) (remoteBuildList (pulling paths machine).lister depth
      (withSeparator pull.rpath) (withSeparator pull.lpath)) s
        (Builds (resolve pull.lpath)
          ((resolve pull.lpath).Under (resolve (withSeparator pull.lpath)))) :=
    proceeds_remoteBuildList paths machine hdepth (withSeparator_ne_nil pull.lpath)
  have hends : ∀ s', Proceeds (Inside pull) s s' → Ends pull s s' :=
    fun s' h => ⟨h.exhausted, h.deliverable, fun _ => h.changes hs⟩
  rw [SyncPull.copyRemoteDirLocal]
  apply Ensures.bind (Ensures.imp hbuild (fun _ _ h => h) hends)
  rintro found s₁ ⟨hproceeds, hfound⟩
  cases found with
  | none => exact ensures_pure (hends s₁ hproceeds)
  | some entries =>
      have hlater : ∀ s', Ends pull s₁ s' → Ends pull s s' :=
        fun s' h => ⟨h.exhausted.trans hproceeds.exhausted,
          h.deliverable ∘ hproceeds.deliverable, h.contained⟩
      apply Ensures.imp _ (fun _ => hlater) hlater
      apply ends_pullEntries paths machine copyAttrs (hproceeds.changes hs)
      exact fun hharmless => hfound hharmless hdestination entries rfl

theorem ends_download (pull : Pull) (copyAttrs haveStatV2 : Bool) (stream : Bytes) :
    Ends pull ⟨stream, haveStatV2, 0, [], [], false⟩
      (download paths machine pull copyAttrs haveStatV2 stream) := by
  have hnew : Contained pull ⟨stream, haveStatV2, 0, [], [], false⟩ :=
    fun c hc => absurd hc List.not_mem_nil
  rw [download]
  exact (ends_copyRemoteDirLocal paths machine copyAttrs (Nat.lt_succ_self _) hnew).final

end

section

variable (paths : PathFunctions) (machine : Machine) {s : Download} {entry : Dent} {rest : Bytes}

theorem execute_readFdExactly {bytes : Bytes} (h : s.incoming = bytes ++ rest) :
    execute (readFdExactly bytes.length) s = (.ok (some bytes), { s with incoming := rest }) := by
  rw [readFdExactly, execute_bind_of_ok (execute_get s), if_pos (by simp [h]),
    execute_bind_of_ok (execute_modify _ s), execute_pure, h, List.take_left, List.drop_left]

theorem wordOf_append (front : Bytes) (offset : Nat) (hfront : front.length = offset) {n : Nat}
    (hn : n < 2 ^ 32) (rest : Bytes) : wordOf (front ++ word n ++ rest) offset 4 = n := by
  have htake : (word n ++ rest).take 4 = word n := List.take_left' (length_word n)
  rw [wordOf, List.append_assoc, List.drop_left' hfront, htake]
  exact LittleEndian.decode_encode_of_lt hn

theorem execute_readDents_done (fuel : Nat) (h : s.incoming = dentDone ++ rest) :
    execute ((pulling paths machine).readDents (fuel + 1)) s =
      (.ok (some []), { s with incoming := rest }) := by
  have hread := execute_readFdExactly h
  rw [length_dentDone] at hread
  rw [SyncPull.readDents, execute_bind_of_ok hread]
  simp only [wordOf_dentDone, if_true]
  rfl

/-- The fields of an entry, which are sent in four bytes each. -/
def Sendable (entry : Dent) : Prop :=
  entry.name.length < 2 ^ 32 ∧ entry.mode < 2 ^ 32 ∧ entry.size < 2 ^ 32 ∧ entry.time < 2 ^ 32

theorem wordOf_dentHeader {entry : Dent} (h : Sendable entry) :
    wordOf (dentHeader entry) 0 4 = idDent ∧ wordOf (dentHeader entry) 4 4 = entry.mode ∧
      wordOf (dentHeader entry) 8 4 = entry.size ∧ wordOf (dentHeader entry) 12 4 = entry.time ∧
      wordOf (dentHeader entry) 16 4 = entry.name.length := by
  obtain ⟨hlength, hmode, hsize, htime⟩ := h
  refine ⟨?_, ?_, ?_, ?_, ?_⟩
  · simp only [dentHeader, List.append_assoc]
    exact wordOf_word idDent (by decide) _
  · have hword := wordOf_append (word idDent) 4 (length_word idDent) hmode
      (word entry.size ++ word entry.time ++ word entry.name.length)
    simpa only [dentHeader, List.append_assoc] using hword
  · have hword := wordOf_append (word idDent ++ word entry.mode) 8 (by simp [length_word]) hsize
      (word entry.time ++ word entry.name.length)
    simpa only [dentHeader, List.append_assoc] using hword
  · have hword := wordOf_append (word idDent ++ word entry.mode ++ word entry.size) 12
      (by simp [length_word]) htime (word entry.name.length)
    simpa only [dentHeader, List.append_assoc] using hword
  · have hword := wordOf_append
      (word idDent ++ word entry.mode ++ word entry.size ++ word entry.time) 16
      (by simp [length_word]) hlength []
    simpa only [dentHeader, List.append_assoc, List.append_nil] using hword

theorem execute_readDents_header (hs : s.incoming = dent entry ++ rest) :
    execute (readFdExactly dentSize) s =
      (.ok (some (dentHeader entry)), { s with incoming := entry.name ++ rest }) := by
  rw [← length_dentHeader entry]
  exact execute_readFdExactly (by simp [hs, dent, dentHeader])

/-- The device can list any entry. -/
theorem execute_readDents_entry (fuel : Nat) (hentry : Sendable entry)
    (hname : entry.name.length ≤ maxNameLength) (hs : s.incoming = dent entry ++ rest) :
    execute ((pulling paths machine).readDents (fuel + 1)) s =
      execute (do
        let found ← (pulling paths machine).readDents fuel
        pure (found.map ({ entry with name := cString entry.name } :: ·)))
        { s with incoming := rest, listed := s.listed ++ [cString entry.name] } := by
  obtain ⟨hid, hmode, hsize, htime, hlength⟩ := wordOf_dentHeader hentry
  have hdent : dentOf (dentHeader entry) entry.name =
      { entry with name := cString entry.name } := by
    rw [dentOf, hmode, hsize, htime]
  rw [SyncPull.readDents, execute_bind_of_ok (execute_readDents_header hs)]
  simp only [hid, hlength, Nat.not_lt.mpr hname, ne_eq, not_true_eq_false, if_false]
  rw [if_neg (by decide), execute_bind_of_ok (execute_readFdExactly rfl)]
  simp only [hdent]
  rfl

theorem execute_readDents_long (fuel : Nat) (hentry : Sendable entry)
    (hname : maxNameLength < entry.name.length) (hs : s.incoming = dent entry ++ rest) :
    execute ((pulling paths machine).readDents (fuel + 1)) s =
      (.ok none, { s with incoming := entry.name ++ rest }) := by
  obtain ⟨hid, -, -, -, hlength⟩ := wordOf_dentHeader hentry
  rw [SyncPull.readDents, execute_bind_of_ok (execute_readDents_header hs)]
  simp only [hid, hlength, hname, ne_eq, not_true_eq_false, if_false, if_true]
  rw [if_neg (by decide)]
  rfl

end

section

/-- A machine on which every call succeeds. -/
def obliging : Machine where
  sent _ := true
  madeDirs _ := true
  created _ := true
  written _ := true
  setTimeAndMode _ := true
  errnoFromWire _ := .other

/-- A regular file of that name, which is empty. -/
def offer (name : Bytes) : Dent := ⟨name, 8 * 2 ^ 12, 0, 0⟩

/-- The answers of a device that lists one file. -/
def offering (name : Bytes) : Bytes := dent (offer name) ++ (dentDone ++ header idDone 0)

/-- The name of a directory, too long to be listed. -/
def unlisted : Bytes := List.replicate (maxNameLength + 1) 97

def pullToUnlisted : Pull where
  rpath := ascii "/"
  lpath := ascii "/" ++ unlisted
  rpath_ne_nil := by decide
  lpath_ne_nil := by simp [ascii]

variable (paths : PathFunctions) {name : Bytes} {rest : Bytes} {s : Download}

theorem sIsDir_offer (name : Bytes) : sIsDir (offer name).mode = false := by
  simp [offer, sIsDir, fileType]

theorem sendable_offer (h : Deliverable name) : Sendable (offer name) :=
  ⟨h.1.trans_lt (by decide), by simp [offer], by simp [offer], by simp [offer]⟩

theorem execute_creat (path : Bytes) (s : Download) :
    execute (creat obliging path) s =
      (.ok true, { s with calls := s.calls + 1, changes := s.changes ++ [.creat path] }) := rfl

theorem execute_change (c : Change) (s : Download) :
    execute (change c) s = (.ok ⟨⟩, { s with changes := s.changes ++ [c] }) := rfl

theorem execute_rounds (s : Download) :
    execute rounds s = (.ok (s.incoming.length + 1), s) := rfl

theorem execute_sendRequest (id : Nat) (s : Download) {path : Bytes}
    (h : path.length ≤ maxPathLength) :
    execute ((pulling paths obliging).sendRequest id 0 path) s =
      (.ok true, { s with calls := s.calls + 1 }) := by
  have hle : (cString path).length ≤ maxPathLength :=
    (List.takeWhile_prefix _).length_le.trans h
  rw [Socket.sendRequest]
  simp only [if_neg (Nat.not_lt.mpr hle)]
  rfl

theorem execute_readDents_offer (fuel : Nat) (hname : Deliverable name)
    (h : s.incoming = dent (offer name) ++ (dentDone ++ rest)) :
    execute ((pulling paths obliging).readDents (fuel + 2)) s =
      (.ok (some [offer name]), { s with incoming := rest, listed := s.listed ++ [name] }) := by
  have hcString : cString (offer name).name = name := cString_of_not_mem hname.2
  rw [execute_readDents_entry paths obliging (fuel + 1) (sendable_offer hname) hname.1 h,
    hcString, execute_bind_of_ok (execute_readDents_done paths obliging fuel rfl)]
  rfl

theorem execute_syncRecv {rpath lpath : Bytes} (hrpath : rpath.length ≤ maxPathLength)
    (h : s.incoming = header idDone 0 ++ rest) :
    execute ((pulling paths obliging).syncRecv rpath lpath) s =
      (.ok true, { s with
        incoming := rest
        calls := s.calls + 2
        changes := s.changes ++ [.unlink lpath, .creat lpath] }) := by
  have hread : ∀ (s : Download), s.incoming = header idDone 0 ++ rest →
      execute ((pulling paths obliging).recvMessages lpath (s.incoming.length + 1)) s =
        (.ok true, { s with incoming := rest }) := by
    intro s h
    rw [SyncRecv.recvMessages]
    exact execute_bind_of_ok (execute_readFdExactly h) _
  rw [SyncRecv.syncRecv, execute_bind_of_ok (execute_sendRequest paths idRecv s hrpath), if_pos rfl,
    execute_bind_of_ok (execute_change _ _), execute_bind_of_ok (execute_creat _ _), if_pos rfl,
    execute_bind_of_ok (execute_rounds _)]
  rw [hread, List.append_assoc]
  · rfl
  · exact h

theorem execute_remoteBuildList (fuel : Nat) (hname : Deliverable name)
    (hfilter : isDotOrDotDot name = false) {rpath lpath : Bytes}
    (hrpath : rpath.length ≤ maxPathLength)
    (h : s.incoming = dent (offer name) ++ (dentDone ++ rest)) :
    execute (remoteBuildList (pulling paths obliging).lister (fuel + 1) rpath lpath) s =
      (.ok (some [selfEntry paths.dirname paths.basename rpath lpath,
          fileEntry rpath lpath (offer name)]),
        { s with incoming := rest, calls := s.calls + 1, listed := s.listed ++ [name] }) := by
  have hlist : execute ((pulling paths obliging).lister.syncLs rpath) s = (.ok (some [offer name]),
      { s with incoming := rest, calls := s.calls + 1, listed := s.listed ++ [name] }) := by
    have hfuel : s.incoming.length + 1 = (s.incoming.length - 1) + 2 := by
      have hlength : s.incoming.length = (dent (offer name)).length + (dentDone ++ rest).length :=
        (congrArg List.length h).trans List.length_append
      have hdone : dentSize ≤ (dentDone ++ rest).length := by
        rw [List.length_append, length_dentDone]
        exact Nat.le_add_right _ _
      simp only [dentSize] at hdone
      omega
    simp only [SyncPull.lister]
    rw [SyncPull.syncLs, execute_bind_of_ok (execute_sendRequest paths idList s hrpath),
      if_pos rfl, execute_bind_of_ok (execute_rounds _)]
    simp only [hfuel]
    exact execute_readDents_offer paths _ hname h
  have hkept : [offer name].filter (fun entry => !isDotOrDotDot entry.name) = [offer name] := by
    simp [offer, hfilter]
  have hdirs : [offer name].filter (fun entry => sIsDir entry.mode) = [] := by
    simp [sIsDir_offer]
  have hlinks : [offer name].filter (fun entry => sIsLnk entry.mode) = [] := by
    simp [offer, sIsLnk, fileType]
  have hfiles : [offer name].filter (fun entry => !sIsDir entry.mode && !sIsLnk entry.mode) =
      [offer name] := by
    simp [offer, sIsDir, sIsLnk, fileType]
  rw [remoteBuildList, execute_bind_of_ok hlist]
  simp only [hkept, hdirs, hlinks, hfiles, List.map_nil, List.map_cons, checkLinks]
  rw [execute_bind_of_ok (execute_pure _ _)]
  simp only [List.append_nil, List.reverse_nil, buildRemoteDirs]
  rw [execute_bind_of_ok (execute_pure _ _)]
  rfl

theorem execute_pullEntry_directory {ci : CopyInfo} (hskip : ci.skip = false)
    (hmode : sIsDir ci.mode = true) (s : Download) :
    execute ((pulling paths obliging).pullEntry false ci) s =
      (.ok true, { s with
        calls := s.calls + 1
        changes := s.changes ++ [.mkdirs ci.lpath] }) := by
  rw [SyncPull.pullEntry, hskip, if_neg (by decide), if_pos hmode]
  rfl

theorem execute_pullEntry_file (ci : CopyInfo) (hskip : ci.skip = false)
    (hmode : sIsDir ci.mode = false) (hrpath : ci.rpath.length ≤ maxPathLength)
    (h : s.incoming = header idDone 0 ++ rest) :
    execute ((pulling paths obliging).pullEntry false ci) s =
      (.ok true, { s with
        incoming := rest
        calls := s.calls + 2
        changes := s.changes ++ [.unlink ci.lpath, .creat ci.lpath] }) := by
  rw [SyncPull.pullEntry, hskip, if_neg (by decide), hmode, if_neg (by decide),
    SyncPull.pullFile, execute_bind_of_ok (execute_syncRecv paths hrpath h)]
  rfl

theorem selfEntry_made (dirname basename : Bytes → Bytes) (rpath lpath : Bytes) :
    (selfEntry dirname basename rpath lpath).skip = false ∧
      sIsDir (selfEntry dirname basename rpath lpath).mode = true := by
  have hmode : sIsDir directoryMode = true := by decide
  rw [selfEntry, copyInfo, if_pos hmode]
  exact ⟨rfl, hmode⟩

/-- The file that is made for a name from the device. -/
def offeredFile (name : Bytes) : CopyInfo :=
  fileEntry (withSeparator pullToUnlisted.rpath) (withSeparator pullToUnlisted.lpath) (offer name)

theorem resolve_offeredFile (name : Bytes) :
    resolve (offeredFile name).lpath = (resolve pullToUnlisted.lpath).walk (stepsOf name) := by
  rw [offeredFile, fileEntry, resolve_copyInfo (withSeparator_ne_nil _),
    resolve_withSeparator pullToUnlisted.lpath_ne_nil]
  rfl

theorem length_rpath_offeredFile (hname : Deliverable name) :
    (offeredFile name).rpath.length ≤ maxPathLength := by
  have hle := hname.1
  have hroot : withSeparator (withSeparator pullToUnlisted.rpath) = [47] := by decide
  have hrpath : (offeredFile name).rpath = 47 :: name := by
    rw [offeredFile, fileEntry, copyInfo, sIsDir_offer, if_neg (by decide), hroot]
    rfl
  rw [hrpath, List.length_cons]
  simp only [maxNameLength, maxPathLength] at hle ⊢
  omega

theorem offeredFile_made (name : Bytes) :
    (offeredFile name).skip = false ∧ sIsDir (offeredFile name).mode = false := by
  rw [offeredFile, fileEntry, copyInfo, sIsDir_offer, if_neg (by decide)]
  exact ⟨by simp [offer, shouldPullFile, sIsReg, fileType], sIsDir_offer name⟩

theorem download_offering (hname : Deliverable name)
    (hfilter : isDotOrDotDot name = false) :
    let s := download paths obliging pullToUnlisted false false (offering name)
    s.listed = [name] ∧ .creat (offeredFile name).lpath ∈ s.changes := by
  obtain ⟨hskip, hmode⟩ := selfEntry_made paths.dirname paths.basename (withSeparator pullToUnlisted.rpath)
    (withSeparator pullToUnlisted.lpath)
  obtain ⟨hskip', hmode'⟩ := offeredFile_made name
  have hdone : header idDone 0 = header idDone 0 ++ [] := (List.append_nil _).symm
  rw [download, SyncPull.copyRemoteDirLocal,
    execute_bind_of_ok (execute_remoteBuildList paths _ hname hfilter (by decide) rfl)]
  simp only [SyncPull.pullEntries]
  rw [execute_bind_of_ok (execute_pullEntry_directory paths hskip hmode _), if_pos rfl,
    ← offeredFile, execute_bind_of_ok (execute_pullEntry_file paths (offeredFile name) hskip'
      hmode' (length_rpath_offeredFile hname) hdone)]
  constructor
  · rfl
  · apply List.mem_append_right
    exact List.mem_cons_of_mem _ (List.mem_singleton_self _)

theorem length_le_intercalate {part sep : Bytes} {parts : List Bytes} (h : part ∈ parts) :
    part.length ≤ (sep.intercalate parts).length := by
  induction parts with
  | nil => exact absurd h List.not_mem_nil
  | cons first parts ih =>
      cases parts with
      | nil =>
          rw [List.mem_singleton.mp h]
          simp
      | cons second parts =>
          rw [List.intercalate_cons_cons, List.length_append, List.length_append]
          rcases List.mem_cons.mp h with rfl | h
          · omega
          · have hle := ih h
            omega

theorem length_le_of_mem_splitOn {text part : Bytes} {sep : UInt8} (h : part ∈ text.splitOn sep) :
    part.length ≤ text.length := by
  have hjoin : [sep].intercalate (text.splitOn sep) = text := List.intercalate_splitOn sep
  exact (length_le_intercalate h).trans_eq (congrArg List.length hjoin)

theorem unlisted_not_mem (hname : Deliverable name) : Step.down unlisted ∉ stepsOf name := by
  intro hmem
  obtain ⟨part, hpart, hstep⟩ := List.mem_map.mp hmem
  have hpart' : part = unlisted := by
    rw [stepOf] at hstep
    split at hstep
    · cases hstep
    split at hstep
    · cases hstep
    split at hstep
    · cases hstep
    · exact Step.down.inj hstep
  have hle := (length_le_of_mem_splitOn hpart).trans hname.1
  rw [hpart', unlisted, List.length_replicate] at hle
  omega

theorem stepOf_unlisted : stepOf unlisted = .down unlisted := by
  rw [stepOf, if_neg (by decide), if_neg (by decide), if_neg (by decide)]

theorem resolve_unlisted : resolve pullToUnlisted.lpath = ⟨true, 0, [unlisted]⟩ := by
  have hsteps : stepsOf unlisted = [.down unlisted] := by
    have hmem : (47 : UInt8) ∉ unlisted := by
      intro hmem
      exact absurd (List.eq_of_mem_replicate hmem) (by decide)
    rw [stepsOf, List.splitOn_eq_singleton hmem, List.map_singleton, stepOf_unlisted]
  have hlpath : stepsOf pullToUnlisted.lpath = stepsOf [] ++ stepsOf unlisted :=
    stepsOf_append [] unlisted
  rw [resolve, hlpath, hsteps]
  rfl

/-- A pull stays inside its destination, whatever the device does with a set of
names, exactly when none of these names climbs. -/
theorem pull_contained_iff (paths : PathFunctions) (Offered : Bytes → Prop) :
    (∀ machine pull copyAttrs haveStatV2 stream,
      (∀ name ∈ (download paths machine pull copyAttrs haveStatV2 stream).listed, Offered name) →
        Contained pull (download paths machine pull copyAttrs haveStatV2 stream)) ↔
      ∀ name, Deliverable name → Offered name → isDotOrDotDot name = true ∨ ¬ NameClimbs name := by
  constructor
  · intro hcontained name hname hoffered
    rcases hfilter : isDotOrDotDot name with hfalse | htrue
    · right
      intro hclimbs
      obtain ⟨hlisted, hchange⟩ := download_offering paths hname hfilter
      have hinside := hcontained obliging pullToUnlisted false false (offering name) (by
        rw [hlisted]
        intro other hother
        rwa [List.mem_singleton.mp hother]) _ hchange
      rw [Inside, Change.path, resolve_offeredFile, resolve_unlisted] at hinside
      exact not_under_of_climbs (unlisted_not_mem hname) hclimbs hinside
    · exact .inl rfl
  · intro hnames machine pull copyAttrs haveStatV2 stream hoffered
    have hends := ends_download paths machine pull copyAttrs haveStatV2 stream
    apply hends.contained
    intro name hname
    exact hnames name (hends.deliverable (by simp) name hname) (hoffered name hname)

/-- A device that lists `../evil` for a pull to `/tmp/dst`. -/
def pullToDst : Pull where
  rpath := ascii "/sdcard"
  lpath := ascii "/tmp/dst"
  rpath_ne_nil := by decide
  lpath_ne_nil := by decide

theorem dotdot_evil_escapes :
    ¬ Contained pullToDst
      (download posixPaths obliging pullToDst false false (offering (ascii "../evil"))) := by
  decide +kernel

end

end Adb.PullContainment
