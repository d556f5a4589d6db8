import Adb.DirectoryPush
import Adb.LocalListing
import Adb.TransferRules

/-!
What a directory push that reports success has done.  A file is missed when it
does not get on the list: `local_build_list` goes on after an `lstat` that fails
and after a directory below the source that cannot be opened.  A file is cut
short when the loop of `SendLargeFile` ends early and an `OKAY` is read then.
-/

namespace Adb.PushTruth

open Adb.DescriptorIo
open Adb.DirectoryPush
open Adb.Forests
open Adb.LocalListing
open Adb.StoppingPrograms
open Adb.SyncClient
open Adb.SyncMessages
open Adb.SyncTransfers
open Adb.TransferRules
open Adb.WirePackets

section Statement

variable (world : World)

/-- The contents of a file that is read to its end. -/
def fileChunks : List ReadResult → Option (List Bytes)
  | [] => some []
  | .data [] :: _ => some []
  | .data (b :: bs) :: reads =>
      (fileChunks reads).map fun chunks => (b :: bs).take syncDataMax :: chunks
  | _ :: _ => none

/-- The data that is sent for a path is all that is there: the target of a link,
or the contents of a file. -/
def Whole (lpath : Bytes) (mode : Nat) (chunks : List Bytes) : Prop :=
  if sIsLnk mode then
    ∃ n target, world.readlink n lpath = some target ∧
      chunks = [target.take (pathMax - 1) ++ [0]]
  else
    (∃ n data, world.readFileToString n lpath = some data ∧ chunks = [data]) ∨
      ∃ n, fileChunks (world.largeReads n) = some chunks

/-- The bytes of a transfer, from its `SEND` to its `DONE`. -/
def transfer (ci : CopyInfo) (chunks : List Bytes) : Bytes :=
  frame idSend (cString (pathAndMode ci.rpath ci.mode)) ++ chunks.flatMap (frame idData) ++
    header idDone (ci.time % 2 ^ 32)

/-- The events of a whole transfer that is answered by `OKAY` after its `DONE`. -/
def Transfers (ci : CopyInfo) (events : List Event) : Prop :=
  ∃ (pieces chunks : List Bytes) (status : Bytes), events = pieces.map .wrote ++ [.read status] ∧
    pieces.flatten = transfer ci chunks ∧ Whole world ci.lpath ci.mode chunks ∧
    headerId status = idOkay

def Delivered (trace : List Event) (ci : CopyInfo) : Prop :=
  ∃ earlier events later, trace = earlier ++ events ++ later ∧ Transfers world ci events

/-- The answer that belongs to the `lstat` request of the file says that it is
up to date. -/
def Skipped (haveStatV2 : Bool) (trace : List Event) (ci : CopyInfo) : Prop :=
  ∃ (list : List CopyInfo) (answers : List Bytes) (later : List Event),
    trace = list.map (fun ci => .wrote (frame (lstatId haveStatV2) (cString ci.rpath))) ++
      answers.map .read ++ later ∧
    ∃ msg answer, (ci, msg) ∈ list.zip answers ∧
      statAnswer world.errnoFromWire haveStatV2 msg = some answer ∧ answersUpToDate ci answer = true

/-- When the loop of `SendLargeFile` ends early, no `OKAY` is there to be read. -/
def Uncut (events : List Event) : Prop :=
  ∀ waiting, .left waiting ∈ events → headerId waiting ≠ idOkay

/-- When the directory can be read, these are the entries of it. -/
def ReadsAs (lroot : Bytes) (forest : LocalForest) (above : List Bytes) : Prop :=
  ∀ n names, world.readdir n (directoryPath lroot above) = some names →
    (names.filter fun name => !isDotOrDotDot name).Perm forest.names

/-- The forest is what lies in the directory: a call on the client's machine
fails, or says what is there. -/
def Describes (lroot : Bytes) : LocalForest → List Bytes → Prop
  | .nil, _ => True
  | .object name info rest, above =>
      (∀ n found, world.lstat n (directoryPath lroot above ++ name) = some found →
        found = info) ∧ sIsDir info.mode = false ∧ Describes lroot rest above
  | .directory name children rest, above =>
      (∀ n found, world.lstat n (directoryPath lroot above ++ name) = some found →
        sIsDir found.mode = true) ∧
        ReadsAs world lroot children (above ++ [name]) ∧
        Describes lroot children (above ++ [name]) ∧ Describes lroot rest above

/-- The calls that lead to an object do not fail: the `lstat` of the object, and
the `lstat` and the `opendir` of the directories below the source that it is in. -/
structure Reached (lroot : Bytes) (o : List Bytes × Bytes × FileInfo) : Prop where
  lstat : ∀ n, world.lstat n (directoryPath lroot o.1 ++ o.2.1) ≠ none
  directories : ∀ above name, above ++ [name] <+: o.1 →
    (∀ n, world.lstat n (directoryPath lroot above ++ name) ≠ none) ∧
      ∀ n, world.readdir n (directoryPath lroot (above ++ [name])) ≠ none

/-- A push that returns true has sent every file and every link, or left it alone
because it is up to date. -/
def Truthful (lroot rroot : Bytes) (forest : LocalForest) (haveStatV2 : Bool)
    (run : Except Unit Bool × Upload) : Prop :=
  run.1 = .ok true → ∀ o ∈ forest.objects [], shouldPushFile o.2.2.mode = true →
    Delivered world run.2.trace (entryOf lroot rroot o) ∨
      Skipped world haveStatV2 run.2.trace (entryOf lroot rroot o)

end Statement

variable {world : World} {lroot rroot : Bytes}

/-! ## The list -/

section Listing

theorem describes_here {forest : LocalForest} {above : List Bytes} {o : Bytes × FileInfo}
    (h : Describes world lroot forest above) (hmem : o ∈ forest.here) :
    (∀ n found, world.lstat n (directoryPath lroot above ++ o.1) = some found → found = o.2) ∧
      sIsDir o.2.mode = false := by
  induction forest with
  | nil => cases hmem
  | object name info rest ih =>
      rcases List.mem_cons.mp hmem with rfl | hmem
      · exact ⟨h.1, h.2.1⟩
      · exact ih h.2.2 hmem
  | directory name children rest _ ih => exact ih h.2.2.2 hmem

theorem describes_subdirectory {forest : LocalForest} {above : List Bytes}
    {d : Bytes × LocalForest} (h : Describes world lroot forest above)
    (hmem : d ∈ forest.subdirectories) :
    (∀ n found, world.lstat n (directoryPath lroot above ++ d.1) = some found →
        sIsDir found.mode = true) ∧
      ReadsAs world lroot d.2 (above ++ [d.1]) ∧ Describes world lroot d.2 (above ++ [d.1]) := by
  induction forest with
  | nil => cases hmem
  | object name info rest ih => exact ih h.2.2 hmem
  | directory name children rest _ ih =>
      rcases List.mem_cons.mp hmem with rfl | hmem
      · exact ⟨h.1, h.2.1, h.2.2.1⟩
      · exact ih h.2.2.2 hmem

/-- What a round over the names of a directory finds. -/
structure Sorted (world : World) (lpath rpath : Bytes) (names : List Bytes)
    (entries : List CopyInfo × List CopyInfo) : Prop where
  files : ∀ name ∈ names, ∀ info : FileInfo, (∀ n, world.lstat n (lpath ++ name) = some info) →
    sIsDir info.mode = false →
    { copyInfo lpath rpath name info.mode with
      skip := !shouldPushFile info.mode
      time := info.mtime
      size := info.size } ∈ entries.1
  directories : ∀ name ∈ names,
    (∀ n, ∃ info, world.lstat n (lpath ++ name) = some info ∧ sIsDir info.mode = true) →
    ∃ mode, sIsDir mode = true ∧ copyInfo lpath rpath name mode ∈ entries.2

theorem execute_ask {α : Type} (answer : Nat → α) (u : Upload) :
    execute (ask answer) u = (.ok (answer u.calls), { u with calls := u.calls + 1 }) := rfl

theorem lstatEach_sorted (lpath rpath : Bytes) (names : List Bytes) (s : Upload) :
    Ensures (lstatEach (pushing world).toLocalMachine lpath rpath names) s
      (fun entries _ => Sorted world lpath rpath names entries) (fun _ => True) := by
  induction names generalizing s with
  | nil =>
      refine ensures_pure ⟨?_, ?_⟩
      · intro name hname
        cases hname
      · intro name hname
        cases hname
  | cons name names ih =>
      rw [lstatEach]
      refine ensures_bind_of_ok (execute_ask (fun n => world.lstat n (lpath ++ name)) s) ?_
      refine (ih _).bind ?_
      intro rest s' hrest
      cases hlstat : world.lstat s.calls (lpath ++ name) with
      | none =>
          refine ensures_pure ⟨?_, ?_⟩
          · intro other hother info hinfo hdir
            rcases List.mem_cons.mp hother with rfl | hother
            · rw [hinfo] at hlstat
              cases hlstat
            · exact hrest.files other hother info hinfo hdir
          · intro other hother hinfo
            rcases List.mem_cons.mp hother with rfl | hother
            · obtain ⟨info, hinfo, _⟩ := hinfo s.calls
              rw [hinfo] at hlstat
              cases hlstat
            · exact hrest.directories other hother hinfo
      | some found =>
          cases hfound : sIsDir found.mode with
          | true =>
              simp only [hfound, if_true]
              refine ensures_pure ⟨?_, ?_⟩
              · intro other hother info hinfo hdir
                rcases List.mem_cons.mp hother with rfl | hother
                · rw [hinfo] at hlstat
                  obtain rfl := Option.some.inj hlstat
                  rw [hfound] at hdir
                  cases hdir
                · exact hrest.files other hother info hinfo hdir
              · intro other hother hinfo
                rcases List.mem_cons.mp hother with rfl | hother
                · exact ⟨found.mode, hfound, List.mem_cons_self⟩
                · obtain ⟨mode, hmode, hmem⟩ := hrest.directories other hother hinfo
                  exact ⟨mode, hmode, List.mem_cons_of_mem _ hmem⟩
          | false =>
              simp only [hfound, Bool.false_eq_true, if_false]
              refine ensures_pure ⟨?_, ?_⟩
              · intro other hother info hinfo hdir
                rcases List.mem_cons.mp hother with rfl | hother
                · rw [hinfo] at hlstat
                  obtain rfl := Option.some.inj hlstat
                  exact List.mem_cons_self
                · exact List.mem_cons_of_mem _ (hrest.files other hother info hinfo hdir)
              · intro other hother hinfo
                rcases List.mem_cons.mp hother with rfl | hother
                · obtain ⟨info, hinfo, hdir⟩ := hinfo s.calls
                  rw [hinfo] at hlstat
                  obtain rfl := Option.some.inj hlstat
                  rw [hfound] at hdir
                  cases hdir
                · exact hrest.directories other hother hinfo

theorem buildLocalDirs_includes {build : Bytes → Bytes → Pusher (Option (List CopyInfo))}
    {good : CopyInfo → Option (List CopyInfo) → Prop} {dirs : List CopyInfo}
    (hbuild : ∀ ci ∈ dirs, ∀ s, Ensures (build ci.lpath ci.rpath) s
      (fun list _ => good ci list) (fun _ => True)) (s : Upload) :
    Ensures (buildLocalDirs build dirs) s
      (fun found _ => ∀ ci ∈ dirs, ∃ list, good ci list ∧ list.getD [] ⊆ found)
      (fun _ => True) := by
  induction dirs generalizing s with
  | nil =>
      refine ensures_pure ?_
      intro ci hci
      cases hci
  | cons dir dirs ih =>
      rw [buildLocalDirs]
      refine (hbuild dir List.mem_cons_self s).bind ?_
      intro list s₁ hlist
      refine (ih (fun ci hci => hbuild ci (List.mem_cons_of_mem _ hci)) s₁).bind ?_
      intro rest s₂ hrest
      refine ensures_pure ?_
      intro ci hci
      rcases List.mem_cons.mp hci with rfl | hci
      · exact ⟨list, hlist, List.subset_append_left _ _⟩
      · obtain ⟨other, hother, hsubset⟩ := hrest ci hci
        exact ⟨other, hother, List.Subset.trans hsubset (List.subset_append_right _ _)⟩

/-- The list of a directory has every object that is reached. -/
def Listed (world : World) (lroot rroot : Bytes) (forest : LocalForest) (above : List Bytes)
    (list : Option (List CopyInfo)) : Prop :=
  (list = none ∧ ∃ n, world.readdir n (directoryPath lroot above) = none) ∨
    ∃ found, list = some found ∧ ∀ o ∈ forest.objects above, Reached world lroot o →
      entryOf lroot rroot o ∈ found

/-- The listing of one of the directories that were found. -/
def DirectoryListed (world : World) (lroot rroot : Bytes) (forest : LocalForest)
    (above : List Bytes) (ci : CopyInfo) (list : Option (List CopyInfo)) : Prop :=
  ∀ d ∈ forest.subdirectories, ci.lpath = directoryPath lroot (above ++ [d.1]) →
    ci.rpath = directoryPath rroot (above ++ [d.1]) →
    Listed world lroot rroot d.2 (above ++ [d.1]) list

theorem entry_mem_files (hl : lroot.getLast? = some 47) (hr : rroot.getLast? = some 47)
    {forest : LocalForest} {above names : List Bytes} {entries : List CopyInfo × List CopyInfo}
    (hdescribes : Describes world lroot forest above) (hsubset : forest.names ⊆ names)
    (hsorted : Sorted world (directoryPath lroot above) (directoryPath rroot above) names entries)
    {o : Bytes × FileInfo} (ho : o ∈ forest.here) (hreached : Reached world lroot (above, o)) :
    entryOf lroot rroot (above, o) ∈ entries.1 := by
  obtain ⟨hlstat, hfile⟩ := describes_here hdescribes ho
  have hanswers : ∀ n, world.lstat n (directoryPath lroot above ++ o.1) = some o.2 := by
    intro n
    obtain ⟨found, hfound⟩ := Option.ne_none_iff_exists'.mp (hreached.lstat n)
    rw [← hlstat n found hfound]
    exact hfound
  have hmem := hsorted.files o.1 (hsubset (Forest.mem_names_of_mem_here ho)) o.2 hanswers hfile
  rwa [copyInfo_object hl hr above o.1 hfile] at hmem

theorem entry_mem_rest (hl : lroot.getLast? = some 47) (hr : rroot.getLast? = some 47)
    {forest : LocalForest} {above names : List Bytes} {entries : List CopyInfo × List CopyInfo}
    {rest : List CopyInfo} (hnames : forest.EachName FileName)
    (hdescribes : Describes world lroot forest above) (hsubset : forest.names ⊆ names)
    (hsorted : Sorted world (directoryPath lroot above) (directoryPath rroot above) names entries)
    (hrest : ∀ ci ∈ entries.2, ∃ list,
      DirectoryListed world lroot rroot forest above ci list ∧ list.getD [] ⊆ rest)
    {d : Bytes × LocalForest} (hd : d ∈ forest.subdirectories)
    {o : List Bytes × Bytes × FileInfo} (ho : o ∈ d.2.objects (above ++ [d.1]))
    (hreached : Reached world lroot o) : entryOf lroot rroot o ∈ rest := by
  obtain ⟨hdirectory, _, _⟩ := describes_subdirectory hdescribes hd
  obtain ⟨hlstat, hreaddir⟩ := hreached.directories above d.1 (Forest.above_prefix_of_mem ho)
  have hname := Forest.mem_names_of_mem_subdirectories hd
  obtain ⟨mode, hmode, hmem⟩ := hsorted.directories d.1 (hsubset hname) fun n => by
    obtain ⟨found, hfound⟩ := Option.ne_none_iff_exists'.mp (hlstat n)
    exact ⟨found, hfound, hdirectory n found hfound⟩
  obtain ⟨hlpath, hrpath⟩ := copyInfo_directory hl hr above (hnames.name_of_mem hname) hmode
  obtain ⟨list, hlist, hincluded⟩ := hrest _ hmem
  rcases hlist d hd hlpath hrpath with ⟨_, n, hnone⟩ | ⟨found, rfl, hfound⟩
  · exact absurd hnone (hreaddir n)
  · exact hincluded (hfound o ho hreached)

theorem localBuildList_listed (hl : lroot.getLast? = some 47) (hr : rroot.getLast? = some 47)
    (depth : Nat) {forest : LocalForest} {above : List Bytes}
    (hnames : forest.EachName FileName) (hreads : ReadsAs world lroot forest above)
    (hdescribes : Describes world lroot forest above) (s : Upload) :
    Ensures (localBuildList (pushing world).toLocalMachine depth (directoryPath lroot above)
        (directoryPath rroot above)) s
      (fun list _ => Listed world lroot rroot forest above list) (fun _ => True) := by
  induction depth generalizing forest above s with
  | zero => exact ensures_throw trivial
  | succ depth ih =>
      rw [localBuildList]
      refine ensures_bind_of_ok
        (execute_ask (fun n => world.readdir n (directoryPath lroot above)) s) ?_
      cases hreaddir : world.readdir s.calls (directoryPath lroot above) with
      | none => exact ensures_pure (.inl ⟨rfl, s.calls, hreaddir⟩)
      | some names =>
          have hperm := hreads s.calls names hreaddir
          simp only
          split
          · next hempty =>
              refine ensures_pure (.inr ⟨_, rfl, ?_⟩)
              rw [hempty] at hperm
              intro o ho
              cases forest with
              | nil => cases ho
              | object => exact absurd hperm.length_eq (by simp [Forest.names])
              | directory => exact absurd hperm.length_eq (by simp [Forest.names])
          · refine (lstatEach_sorted _ _ _ _).bind ?_
            intro entries s₁ hsorted
            have hbuild : ∀ ci ∈ entries.2, ∀ s, Ensures
                (localBuildList (pushing world).toLocalMachine depth ci.lpath ci.rpath)
                s (fun list _ => DirectoryListed world lroot rroot forest above ci list)
                (fun _ => True) := by
              intro ci _ s
              refine ensures_forall fun d => ensures_forall fun hd => ensures_forall fun hlpath =>
                ensures_forall fun hrpath => ?_
              obtain ⟨_, hreads', hdescribes'⟩ := describes_subdirectory hdescribes hd
              rw [hlpath, hrpath]
              exact ih (hnames.of_mem hd) hreads' hdescribes' s
            refine (buildLocalDirs_includes hbuild s₁).bind ?_
            intro rest s₂ hrest
            refine ensures_pure (.inr ⟨_, rfl, ?_⟩)
            intro o ho hreached
            rw [List.mem_append]
            rcases Forest.mem_objects.mp ho with ⟨rfl, hhere⟩ | ⟨d, hd, hbelow⟩
            · exact .inl (entry_mem_files hl hr hdescribes hperm.symm.subset hsorted hhere hreached)
            · exact .inr (entry_mem_rest hl hr hnames hdescribes hperm.symm.subset hsorted hrest hd
                hbelow hreached)

end Listing

/-! ## What goes over the socket -/

section Socket

variable {α β : Type} {u : Upload}

/-- A program that returns has added these events to the trace. -/
def Logs (program : Pusher α) (u : Upload) (post : α → List Event → Upload → Prop) : Prop :=
  Ensures program u
    (fun a u' => ∃ events, u'.trace = u.trace ++ events ∧ u'.haveStatV2 = u.haveStatV2 ∧
      post a events u')
    (fun _ => True)

theorem logs_pure {a : α} {post : α → List Event → Upload → Prop} (h : post a [] u) :
    Logs (pure a) u post :=
  ensures_pure ⟨[], (List.append_nil _).symm, rfl, h⟩

theorem logs_throw {post : α → List Event → Upload → Prop} : Logs (throw ()) u post :=
  ensures_throw trivial

theorem Logs.imp {program : Pusher α} {post post' : α → List Event → Upload → Prop}
    (h : Logs program u post) (himp : ∀ a events u', post a events u' → post' a events u') :
    Logs program u post' := by
  refine Ensures.imp h ?_ fun _ => id
  rintro a u' ⟨events, htrace, hversion, hpost⟩
  exact ⟨events, htrace, hversion, himp a events u' hpost⟩

theorem Logs.bind {program : Pusher α} {next : α → Pusher β}
    {middle : α → List Event → Upload → Prop} {post : β → List Event → Upload → Prop}
    (h : Logs program u middle)
    (hnext : ∀ a events u', u'.haveStatV2 = u.haveStatV2 → middle a events u' →
      Logs (next a) u' fun b events' u'' => post b (events ++ events') u'') :
    Logs (program >>= next) u post := by
  refine Ensures.bind h ?_
  rintro a u' ⟨events, htrace, hversion, hmiddle⟩
  refine Ensures.imp (hnext a events u' hversion hmiddle) ?_ fun _ => id
  rintro b u'' ⟨events', htrace', hversion', hpost⟩
  refine ⟨events ++ events', ?_, hversion'.trans hversion, hpost⟩
  rw [htrace', htrace, List.append_assoc]

theorem logs_get : Logs get u fun a events u' => a = u ∧ events = [] ∧ u' = u :=
  ensures_of_ok (execute_get u) ⟨[], (List.append_nil _).symm, rfl, rfl, rfl, rfl⟩

theorem logs_modify {f : Upload → Upload} {events : List Event}
    (htrace : (f u).trace = u.trace ++ events) (hversion : (f u).haveStatV2 = u.haveStatV2) :
    Logs (modify f) u fun _ logged u' => logged = events ∧ u' = f u :=
  ensures_of_ok (execute_modify f u) ⟨events, htrace, hversion, rfl, rfl⟩

theorem logs_ask (answer : Nat → α) :
    Logs (ask answer) u fun a events u' =>
      (∃ n, a = answer n) ∧ events = [] ∧ u'.incoming = u.incoming := by
  rw [ask]
  refine logs_get.bind ?_
  rintro _ _ _ _ ⟨rfl, rfl, rfl⟩
  refine (logs_modify (List.append_nil _).symm rfl).bind ?_
  rintro _ _ _ _ ⟨rfl, rfl⟩
  exact logs_pure ⟨⟨_, rfl⟩, rfl, rfl⟩

theorem logs_note (event : Event) :
    Logs (note event) u fun _ events u' => events = [event] ∧ u'.incoming = u.incoming := by
  refine (logs_modify rfl rfl).imp ?_
  rintro _ _ _ ⟨rfl, rfl⟩
  exact ⟨rfl, rfl⟩

theorem logs_setExpectDone (expected : Bool) :
    Logs (setExpectDone expected) u fun _ events u' =>
      events = [] ∧ u'.incoming = u.incoming := by
  refine (logs_modify (List.append_nil _).symm rfl).imp ?_
  rintro _ _ _ ⟨rfl, rfl⟩
  exact ⟨rfl, rfl⟩

theorem logs_haveStatV2 :
    Logs haveStatV2 u fun v2 events u' => v2 = u.haveStatV2 ∧ events = [] ∧ u' = u :=
  ensures_of_ok rfl ⟨[], (List.append_nil _).symm, rfl, rfl, rfl, rfl⟩

theorem logs_expectDone : Logs expectDone u fun _ events _ => events = [] :=
  ensures_of_ok rfl ⟨[], (List.append_nil _).symm, rfl, rfl⟩

theorem logs_writeFdExactly (bytes : Bytes) :
    Logs (writeFdExactly world bytes) u fun ok events u' =>
      u'.incoming = u.incoming ∧ (ok = true → events = [.wrote bytes]) := by
  refine (logs_ask world.sent).bind ?_
  rintro ok events u₁ _ ⟨_, rfl, hincoming⟩
  cases ok with
  | false => exact logs_pure ⟨hincoming, fun h => absurd h (by decide)⟩
  | true =>
      refine (logs_note _).bind ?_
      rintro _ events u₂ _ ⟨rfl, hincoming'⟩
      exact logs_pure ⟨hincoming'.trans hincoming, fun _ => rfl⟩

theorem logs_writeOrDie (bytes : Bytes) :
    Logs ((pushing world).writeOrDie bytes) u fun _ events u' =>
      events = [.wrote bytes] ∧ u'.incoming = u.incoming := by
  refine (logs_writeFdExactly bytes).bind ?_
  rintro ok events u₁ _ ⟨hincoming, hwrote⟩
  cases ok with
  | false => exact logs_throw
  | true =>
      refine logs_pure ⟨?_, hincoming⟩
      rw [hwrote rfl, List.append_nil]

theorem logs_readFdExactly (n : Nat) :
    Logs (readFdExactly n) u fun result events _ =>
      ∀ msg, result = some msg → events = [.read msg] ∧ msg = u.incoming.take n := by
  rw [readFdExactly]
  refine logs_get.bind ?_
  rintro _ _ _ _ ⟨rfl, rfl, rfl⟩
  split
  · refine (logs_modify (List.append_nil _).symm rfl).bind ?_
    rintro _ _ _ _ ⟨rfl, rfl⟩
    refine (logs_note _).bind ?_
    rintro _ _ _ _ ⟨rfl, _⟩
    refine logs_pure ?_
    rintro msg ⟨⟩
    exact ⟨rfl, rfl⟩
  · refine (logs_modify (List.append_nil _).symm rfl).bind ?_
    rintro _ _ _ _ ⟨rfl, rfl⟩
    refine logs_pure ?_
    rintro msg ⟨⟩

theorem logs_sendRequest (id earlier : Nat) (path : Bytes) :
    Logs ((pushing world).sendRequest id earlier path) u fun ok events u' =>
      u'.incoming = u.incoming ∧ (ok = true → events = [.wrote (frame id (cString path))]) := by
  rw [Socket.sendRequest]
  split
  · exact logs_pure ⟨rfl, fun h => absurd h (by decide)⟩
  · exact logs_writeFdExactly _

theorem logs_sendSmallFile (pathAndMode : Bytes) (mtime : Nat) (data : Bytes) :
    Logs ((pushing world).sendSmallFile pathAndMode mtime data) u fun ok events _ =>
      ok = true → events =
        [.wrote (frame idSend (cString pathAndMode) ++ frame idData data ++ header idDone mtime)] := by
  rw [SyncPush.sendSmallFile]
  split
  · exact logs_pure fun h => absurd h (by decide)
  · refine (logs_writeFdExactly _).bind ?_
    rintro ok events u₁ _ ⟨_, hwrote⟩
    cases ok with
    | false => exact logs_throw
    | true =>
        obtain rfl := hwrote rfl
        refine (logs_setExpectDone true).bind ?_
        rintro _ _ u₂ _ ⟨rfl, _⟩
        exact logs_pure fun _ => rfl

theorem logs_receivedError :
    Logs (receivedError world) u fun failed events u' =>
      u'.incoming = u.incoming ∧
        (failed = false → events = []) ∧
        (failed = true → events = [.left (u.incoming.take headerSize)]) := by
  rw [receivedError]
  refine (logs_ask world.polled).bind ?_
  rintro answer _ u₁ _ ⟨_, rfl, hincoming⟩
  have hleft : Logs (do
      let u ← get
      note (.left (u.incoming.take headerSize))
      pure true) u₁ fun failed events u' =>
        u'.incoming = u.incoming ∧ (failed = false → [] ++ events = []) ∧
        (failed = true → [] ++ events = [.left (u.incoming.take headerSize)]) := by
    refine logs_get.bind ?_
    rintro _ _ _ _ ⟨rfl, rfl, rfl⟩
    refine (logs_note _).bind ?_
    rintro _ _ u₂ _ ⟨rfl, hincoming'⟩
    refine logs_pure ⟨hincoming'.trans hincoming, fun h => absurd h (by decide), ?_⟩
    intro _
    rw [hincoming]
    rfl
  cases answer with
  | quiet => exact logs_pure ⟨hincoming, fun _ => rfl, fun h => absurd h (by decide)⟩
  | failed => exact hleft
  | seen => exact hleft

/-- The loop of `SendLargeFile` sends the file up to its end, or leaves something
to be read. -/
theorem logs_sendChunks (reads : List ReadResult) :
    Logs ((pushing world).sendChunks reads) u fun ok events u' =>
      u'.incoming = u.incoming ∧ (ok = true →
        (∃ chunks, fileChunks reads = some chunks ∧
          events = (chunks.map (frame idData)).map .wrote) ∨
        .left (u.incoming.take headerSize) ∈ events) := by
  induction reads generalizing u with
  | nil => exact logs_pure ⟨rfl, fun _ => .inl ⟨[], rfl, rfl⟩⟩
  | cons read reads ih =>
      rcases read with (_ | ⟨b, bs⟩) | _ | _
      · exact logs_pure ⟨rfl, fun _ => .inl ⟨[], rfl, rfl⟩⟩
      · rw [SyncPush.sendChunks]
        refine (logs_writeOrDie _).bind ?_
        rintro _ _ u₁ _ ⟨rfl, hincoming₁⟩
        refine logs_receivedError.bind ?_
        rintro failed events u₂ _ ⟨hincoming₂, hquiet, hfailed⟩
        have hincoming := hincoming₂.trans hincoming₁
        cases failed with
        | true =>
            refine logs_pure ⟨hincoming, fun _ => .inr ?_⟩
            rw [hfailed rfl, hincoming₁]
            simp
        | false =>
            refine ih.imp ?_
            rintro ok events' u₃ ⟨hincoming₃, hloop⟩
            rw [hquiet rfl]
            refine ⟨hincoming₃.trans hincoming, fun hok => ?_⟩
            rcases hloop hok with ⟨chunks, hchunks, rfl⟩ | hleft
            · refine .inl ⟨(b :: bs).take syncDataMax :: chunks, ?_, rfl⟩
              rw [fileChunks, hchunks]
              rfl
            · rw [hincoming] at hleft
              exact .inr (List.mem_append_right _ hleft)
      · exact logs_pure ⟨rfl, fun h => absurd h (by decide)⟩
      · exact logs_pure ⟨rfl, fun h => absurd h (by decide)⟩

theorem logs_sendLargeFile (lpath pathAndMode : Bytes) (mtime : Nat) :
    Logs ((pushing world).sendLargeFile lpath pathAndMode mtime) u fun ok events u' => ok = true →
      (∃ (pieces chunks : List Bytes) (n : Nat), fileChunks (world.largeReads n) = some chunks ∧
        events = pieces.map .wrote ∧
        pieces.flatten = frame idSend (cString pathAndMode) ++ chunks.flatMap (frame idData) ++
          header idDone mtime) ∨
      .left (u'.incoming.take headerSize) ∈ events := by
  rw [SyncPush.sendLargeFile]
  refine (logs_sendRequest idSend 0 pathAndMode).bind ?_
  rintro ok events u₁ _ ⟨_, hrequest⟩
  cases ok with
  | false => exact logs_pure fun h => absurd h (by decide)
  | true =>
      obtain rfl := hrequest rfl
      refine (logs_ask fun n => world.largeStat n lpath).bind ?_
      rintro st _ u₂ _ ⟨_, rfl, _⟩
      cases st with
      | error => exact logs_pure fun h => absurd h (by decide)
      | ok =>
          refine (logs_ask world.largeOpened).bind ?_
          rintro opened _ u₃ _ ⟨_, rfl, _⟩
          cases opened with
          | false => exact logs_pure fun h => absurd h (by decide)
          | true =>
              refine (logs_ask world.largeReads).bind ?_
              rintro reads _ u₄ _ ⟨⟨n, rfl⟩, rfl, _⟩
              refine (logs_sendChunks _).bind ?_
              rintro done events u₅ _ ⟨hincoming₅, hloop⟩
              cases done with
              | false => exact logs_pure fun h => absurd h (by decide)
              | true =>
                  refine (logs_setExpectDone true).bind ?_
                  rintro _ _ u₆ _ ⟨rfl, hincoming₆⟩
                  refine (logs_writeOrDie _).bind ?_
                  rintro _ _ u₇ _ ⟨rfl, hincoming₇⟩
                  refine logs_pure fun _ => ?_
                  rcases hloop rfl with ⟨chunks, hchunks, rfl⟩ | hleft
                  · refine .inl ⟨frame idSend (cString pathAndMode) :: (chunks.map (frame idData) ++
                      [header idDone mtime]), chunks, n, hchunks, ?_, ?_⟩
                    · simp
                    · simp [List.flatMap_def]
                  · rw [hincoming₇, hincoming₆, hincoming₅]
                    refine .inr ?_
                    simp [hleft]

theorem logs_copyDone :
    Logs (pushing world).copyDone u fun ok events _ => ok = true →
      events = [.read (u.incoming.take headerSize)] ∧
        headerId (u.incoming.take headerSize) = idOkay := by
  refine (logs_readFdExactly headerSize).bind ?_
  rintro result events u₁ _ hread
  cases result with
  | none => exact logs_pure fun h => absurd h (by decide)
  | some msg =>
      obtain ⟨rfl, hmsg⟩ := hread msg rfl
      simp only
      split
      · next hokay =>
          rw [← hmsg]
          refine logs_expectDone.bind ?_
          rintro expected _ u₂ _ rfl
          split
          · refine (logs_setExpectDone false).bind ?_
            rintro _ _ u₃ _ ⟨rfl, _⟩
            exact logs_pure fun _ => ⟨rfl, hokay⟩
          · exact logs_pure fun _ => ⟨rfl, hokay⟩
      · split
        · exact logs_pure fun h => absurd h (by decide)
        · have hreport : Logs ((pushing world).reportCopyFailure msg) u₁ fun _ _ _ => True :=
            (logs_readFdExactly _).bind fun _ _ _ _ _ => logs_pure trivial
          exact hreport.bind fun _ _ _ _ _ => logs_pure fun h => absurd h (by decide)

theorem logs_sendSmallFile_copyDone {ci : CopyInfo} {data : Bytes}
    (hwhole : Whole world ci.lpath ci.mode [data]) :
    Logs (do
      let ok ← (pushing world).sendSmallFile (pathAndMode ci.rpath ci.mode) (ci.time % 2 ^ 32) data
      if ok then (pushing world).copyDone else pure false) u fun ok events _ =>
        ok = true → Transfers world ci events := by
  refine (logs_sendSmallFile _ _ _).bind ?_
  rintro ok events u₁ _ hsent
  cases ok with
  | false => exact logs_pure fun h => absurd h (by decide)
  | true =>
      obtain rfl := hsent rfl
      refine logs_copyDone.imp ?_
      rintro ok events u₂ hdone hok
      obtain ⟨rfl, hokay⟩ := hdone hok
      refine ⟨[transfer ci [data]], [data], _, ?_, List.append_nil _, hwhole, hokay⟩
      simp [transfer]

theorem logs_sendLargeFile_copyDone {ci : CopyInfo} (hmode : sIsLnk ci.mode = false) :
    Logs (do
      let ok ← (pushing world).sendLargeFile ci.lpath (pathAndMode ci.rpath ci.mode) (ci.time % 2 ^ 32)
      if ok then (pushing world).copyDone else pure false) u fun ok events _ =>
        ok = true → Uncut events → Transfers world ci events := by
  refine (logs_sendLargeFile _ _ _).bind ?_
  rintro ok events u₁ _ hsent
  cases ok with
  | false => exact logs_pure fun h => absurd h (by decide)
  | true =>
      refine logs_copyDone.imp ?_
      rintro ok events' u₂ hdone hok huncut
      obtain ⟨rfl, hokay⟩ := hdone hok
      rcases hsent rfl with ⟨pieces, chunks, n, hchunks, rfl, hpieces⟩ | hleft
      · refine ⟨pieces, chunks, _, rfl, hpieces, ?_, hokay⟩
        rw [Whole, hmode]
        exact .inr ⟨n, hchunks⟩
      · exact absurd hokay (huncut _ (List.mem_append_left _ hleft))

theorem logs_syncSend (ci : CopyInfo) :
    Logs ((pushing world).syncSend ci.lpath ci.rpath (ci.time % 2 ^ 32) ci.mode false) u
      fun ok events _ => ok = true → Uncut events → Transfers world ci events := by
  rw [SyncPush.syncSend, if_neg (by decide), SyncPush.syncSendFile]
  cases hmode : sIsLnk ci.mode with
  | true =>
      rw [if_pos rfl]
      refine (logs_ask fun n => world.readlink n ci.lpath).bind ?_
      rintro target _ u₁ _ ⟨⟨n, hn⟩, rfl, _⟩
      cases target with
      | none => exact logs_pure fun h => absurd h (by decide)
      | some target =>
          refine (logs_sendSmallFile_copyDone ?_).imp fun _ _ _ h hok _ => h hok
          rw [Whole, hmode]
          exact ⟨n, target, hn.symm, rfl⟩
  | false =>
      rw [if_neg (by decide)]
      refine (logs_ask fun n => world.stat n ci.lpath).bind ?_
      rintro st _ u₁ _ ⟨_, rfl, _⟩
      cases st with
      | error => exact logs_pure fun h => absurd h (by decide)
      | ok info =>
          simp only
          split
          · refine (logs_ask fun n => world.readFileToString n ci.lpath).bind ?_
            rintro data _ u₂ _ ⟨⟨n, hn⟩, rfl, _⟩
            cases data with
            | none => exact logs_pure fun h => absurd h (by decide)
            | some data =>
                refine (logs_sendSmallFile_copyDone ?_).imp fun _ _ _ h hok _ => h hok
                rw [Whole, hmode]
                exact .inl ⟨n, data, hn.symm, rfl⟩
          · exact logs_sendLargeFile_copyDone hmode

theorem Uncut.of_append {first second : List Event} (h : Uncut (first ++ second)) :
    Uncut first ∧ Uncut second :=
  ⟨fun waiting hmem => h waiting (List.mem_append_left _ hmem),
    fun waiting hmem => h waiting (List.mem_append_right _ hmem)⟩

theorem Delivered.later {trace : List Event} {ci : CopyInfo} (h : Delivered world trace ci)
    (earlier : List Event) : Delivered world (earlier ++ trace) ci := by
  obtain ⟨first, events, last, rfl, htransfers⟩ := h
  exact ⟨earlier ++ first, events, last, by simp only [List.append_assoc], htransfers⟩

/-- A round that returns true has sent every entry that is not to be skipped. -/
theorem logs_sendEach (list : List CopyInfo) :
    Logs (sendEach (pushing world) false list) u fun ok events _ => ok = true → Uncut events →
      ∀ ci ∈ list, ci.skip = false → Delivered world events ci := by
  induction list generalizing u with
  | nil =>
      refine logs_pure ?_
      intro _ _ ci hci
      cases hci
  | cons ci list ih =>
      rw [sendEach]
      cases hskip : ci.skip with
      | true =>
          refine ih.imp ?_
          intro ok events u₁ hrest hok huncut other hother hother'
          rcases List.mem_cons.mp hother with rfl | hother
          · rw [hskip] at hother'
            cases hother'
          · exact hrest hok huncut other hother hother'
      | false =>
          refine (logs_syncSend ci).bind ?_
          rintro ok events u₁ _ hsent
          cases ok with
          | false => exact logs_pure fun h => absurd h (by decide)
          | true =>
              refine ih.imp ?_
              intro ok events' u₂ hrest hok huncut other hother hskip'
              obtain ⟨hfirst, hlater⟩ := huncut.of_append
              rcases List.mem_cons.mp hother with rfl | hother
              · exact ⟨[], events, events', rfl, hsent rfl hfirst⟩
              · exact (hrest hok hlater other hother hskip').later events

theorem logs_lstatBatch (earlier : Nat) (list : List CopyInfo) :
    Logs (lstatBatch (pushing world) earlier list) u fun ok events _ => ok = true →
      events = list.map fun ci => .wrote (frame (lstatId u.haveStatV2) (cString ci.rpath)) := by
  induction list generalizing earlier u with
  | nil => exact logs_pure fun _ => rfl
  | cons ci list ih =>
      rw [lstatBatch]
      have hlstat : Logs ((pushing world).sendLstat earlier ci.rpath) u fun ok events _ =>
          ok = true → events = [.wrote (frame (lstatId u.haveStatV2) (cString ci.rpath))] := by
        refine logs_haveStatV2.bind ?_
        rintro _ _ _ _ ⟨rfl, rfl, rfl⟩
        exact (logs_sendRequest _ earlier _).imp fun _ _ _ h => h.2
      refine hlstat.bind ?_
      rintro ok events u₁ hversion hsent
      cases ok with
      | false => exact logs_pure fun h => absurd h (by decide)
      | true =>
          refine (ih (earlier + 1)).imp ?_
          intro ok events' u₂ hrest hok
          rw [hsent rfl, hrest hok, hversion]
          rfl

theorem logs_finishStat :
    Logs (pushing world).finishStat u fun answer events _ =>
      ∃ msg, events = [.read msg] ∧ statAnswer world.errnoFromWire u.haveStatV2 msg = some answer := by
  refine logs_haveStatV2.bind ?_
  rintro _ _ v _ ⟨rfl, rfl, rfl⟩
  refine (logs_readFdExactly _).bind ?_
  rintro result events u₁ _ hread
  cases result with
  | none => exact logs_throw
  | some msg =>
      obtain ⟨rfl, _⟩ := hread msg rfl
      simp only [Option.bind_some]
      cases hanswer : statAnswer world.errnoFromWire v.haveStatV2 msg with
      | none => exact logs_throw
      | some answer => exact logs_pure ⟨msg, rfl, hanswer⟩

theorem logs_finishBatch (list : List CopyInfo) :
    Logs (finishBatch (pushing world) list) u fun marked events _ =>
      ∃ answers : List Bytes, events = answers.map .read ∧ ∀ ci ∈ list, ci ∈ marked ∨
        ∃ msg answer, (ci, msg) ∈ list.zip answers ∧
          statAnswer world.errnoFromWire u.haveStatV2 msg = some answer ∧ answersUpToDate ci answer = true := by
  induction list generalizing u with
  | nil =>
      refine logs_pure ⟨[], rfl, ?_⟩
      intro ci hci
      cases hci
  | cons ci list ih =>
      rw [finishBatch]
      refine logs_finishStat.bind ?_
      rintro st _ u₁ hversion ⟨msg, rfl, hmsg⟩
      refine ih.bind ?_
      rintro rest _ u₂ _ ⟨answers, rfl, hrest⟩
      rw [hversion] at hrest
      have hlater : ∀ head : CopyInfo, ∀ other ∈ list, other ∈ head :: rest ∨
          ∃ msg' answer, (other, msg') ∈ (ci :: list).zip (msg :: answers) ∧
            statAnswer world.errnoFromWire u.haveStatV2 msg' = some answer ∧
            answersUpToDate other answer = true := by
        intro head other hother
        rcases hrest other hother with hmem | ⟨msg', answer, hzip, hanswer, hdate⟩
        · exact .inl (List.mem_cons_of_mem _ hmem)
        · exact .inr ⟨msg', answer, List.mem_cons_of_mem _ hzip, hanswer, hdate⟩
      have hevents : [.read msg] ++ (answers.map .read ++ []) = (msg :: answers).map Event.read := by
        simp
      split
      · next hdate =>
          refine logs_pure ⟨msg :: answers, hevents, ?_⟩
          intro other hother
          rcases List.mem_cons.mp hother with rfl | hother
          · exact .inr ⟨msg, st, List.mem_cons_self, hmsg, hdate⟩
          · exact hlater _ other hother
      · refine logs_pure ⟨msg :: answers, hevents, ?_⟩
        intro other hother
        rcases List.mem_cons.mp hother with rfl | hother
        · exact .inl List.mem_cons_self
        · exact hlater _ other hother

/-- The calls on the machine add nothing to the trace. -/
theorem keeps_trace (world : World) (u : Upload) :
    Keeps (pushing world).toLocalMachine
      (fun u' => u'.trace = u.trace ∧ u'.haveStatV2 = u.haveStatV2) (fun _ => True) where
  ask answer s hs := ensures_of_ok (execute_ask answer s) hs
  outOfDepth _ _ := ensures_throw trivial

theorem logs_localBuildList (hl : lroot.getLast? = some 47) (hr : rroot.getLast? = some 47)
    (depth : Nat) {forest : LocalForest} (hnames : forest.EachName FileName)
    (hreads : ReadsAs world lroot forest []) (hdescribes : Describes world lroot forest []) :
    Logs (localBuildList (pushing world).toLocalMachine depth lroot rroot) u fun list events _ =>
      events = [] ∧ Listed world lroot rroot forest [] list := by
  have hlist := localBuildList_listed hl hr depth hnames hreads hdescribes u
  rw [directoryPath_nil, directoryPath_nil] at hlist
  have htrace := (keeps_trace world u).localBuildList depth ⟨rfl, rfl⟩ lroot rroot
  refine (htrace.and hlist).imp ?_ fun _ _ => trivial
  rintro list u' ⟨⟨htrace, hversion⟩, hlisted⟩
  exact ⟨[], by rw [htrace, List.append_nil], hversion, rfl, hlisted⟩

theorem getLast_withSeparator (path : Bytes) : (withSeparator path).getLast? = some 47 := by
  rw [withSeparator]
  split
  · next h => exact h
  · exact List.getLast?_concat

theorem skip_entryOf {o : List Bytes × Bytes × FileInfo}
    (h : shouldPushFile o.2.2.mode = true) : (entryOf lroot rroot o).skip = false := by
  rw [entryOf, h]
  rfl

theorem logs_copyLocalDirRemote (depth : Nat) (lpath rpath : Bytes) (checkTimestamps : Bool)
    {forest : LocalForest} (hnames : forest.EachName FileName)
    (hreads : ReadsAs world (withSeparator lpath) forest [])
    (hdescribes : Describes world (withSeparator lpath) forest []) :
    Logs (copyLocalDirRemote (pushing world) depth lpath rpath checkTimestamps false) u
      fun ok events _ => ok = true → Uncut events → ∀ o ∈ forest.objects [],
        shouldPushFile o.2.2.mode = true → Reached world (withSeparator lpath) o →
        Delivered world events (entryOf (withSeparator lpath) (withSeparator rpath) o) ∨
          Skipped world u.haveStatV2 events
            (entryOf (withSeparator lpath) (withSeparator rpath) o) := by
  rw [copyLocalDirRemote]
  refine (logs_localBuildList (getLast_withSeparator lpath) (getLast_withSeparator rpath) depth hnames
    hreads hdescribes).bind ?_
  rintro list _ u₁ hversion ⟨rfl, hlist⟩
  rcases hlist with ⟨rfl, _⟩ | ⟨found, rfl, hfound⟩
  · exact logs_pure fun h => absurd h (by decide)
  · cases checkTimestamps with
    | false =>
        refine (logs_sendEach found).imp ?_
        intro ok events u₂ hsent hok huncut o ho hpush hreached
        exact .inl (hsent hok huncut _ (hfound o ho hreached) (skip_entryOf hpush))
    | true =>
        refine (logs_lstatBatch 0 found).bind ?_
        intro ok requests u₂ hversion₂ hrequests
        cases ok with
        | false => exact logs_pure fun h => absurd h (by decide)
        | true =>
            refine (logs_finishBatch found).bind ?_
            rintro marked _ u₃ _ ⟨answers, rfl, hanswers⟩
            refine (logs_sendEach marked).imp ?_
            intro ok events u₄ hsent hok huncut o ho hpush hreached
            obtain ⟨_, hlater⟩ := huncut.of_append
            obtain ⟨_, hlater⟩ := hlater.of_append
            obtain ⟨_, hlater⟩ := hlater.of_append
            rcases hanswers _ (hfound o ho hreached) with hmem | hskipped
            · have hdelivered := hsent hok hlater _ hmem (skip_entryOf hpush)
              exact .inl ((hdelivered.later _).later requests)
            · refine .inr ⟨found, answers, events, ?_, ?_⟩
              · rw [hrequests rfl, hversion, List.nil_append, List.append_assoc]
              · rwa [hversion₂, hversion] at hskipped

end Socket

/-- For every local tree, every pattern of local errors and every stream of
replies: when the calls that lead to each file and each link do not fail, and the
loop of `SendLargeFile` does not end early with an `OKAY` to be read, a push that
returns true has sent every file and every link, or left it alone because it is
up to date. -/
theorem push_status_truthful (world : World) (depth : Nat) (lpath rpath : Bytes)
    (checkTimestamps haveStatV2 : Bool) (stream : Bytes) (forest : LocalForest)
    (hnames : forest.EachName FileName)
    (hreads : ReadsAs world (withSeparator lpath) forest [])
    (hdescribes : Describes world (withSeparator lpath) forest [])
    (hreached : ∀ o ∈ forest.objects [], shouldPushFile o.2.2.mode = true →
      Reached world (withSeparator lpath) o)
    (huncut : Uncut (push world depth lpath rpath checkTimestamps false haveStatV2 stream).2.trace) :
    Truthful world (withSeparator lpath) (withSeparator rpath) forest haveStatV2
      (push world depth lpath rpath checkTimestamps false haveStatV2 stream) := by
  have hlogs := logs_copyLocalDirRemote depth lpath rpath checkTimestamps hnames hreads hdescribes
    (u := ⟨stream, haveStatV2, false, 0, []⟩)
  rw [Logs, Ensures] at hlogs
  rw [push] at huncut ⊢
  revert hlogs huncut
  cases execute (copyLocalDirRemote (pushing world) depth lpath rpath checkTimestamps false)
      ⟨stream, haveStatV2, false, 0, []⟩ with
  | mk result u' =>
      rintro huncut hlogs ⟨⟩ o ho hpush
      obtain ⟨events, htrace, _, hevents⟩ := hlogs
      rw [List.nil_append] at htrace
      rw [htrace] at huncut ⊢
      exact hevents rfl huncut o ho hpush (hreached o ho hpush)

/-- A directory with a directory in it, in which there is a file. -/
def nestedForest : LocalForest :=
  .directory (ascii "d") (.object (ascii "f") ⟨0o100644, 2, 7⟩ .nil) .nil

/-- The machine with these directories, on which the inner one may be closed to
the client. -/
def nestedWorld (opens : Bool) : World :=
  { sampleWorld with
    lstat := fun _ path =>
      if path = ascii "top/d" then some ⟨0o040755, 4096, 1⟩
      else if path = ascii "top/d/f" then some ⟨0o100644, 2, 7⟩
      else none
    readdir := fun _ path =>
      if path = ascii "top/" then some [ascii "..", ascii "d", ascii "."]
      else if path = ascii "top/d/" && opens then some [ascii ".", ascii "..", ascii "f"]
      else none
    stat := fun _ _ => .ok ⟨0o100644, 2, 7⟩
    readFileToString := fun _ _ => some (ascii "hi")
    sent := fun _ => true }

theorem names_nestedForest : nestedForest.EachName FileName :=
  ⟨⟨by decide, by decide⟩, ⟨⟨by decide, by decide⟩, trivial⟩, trivial⟩

theorem readsAs_nestedWorld (opens : Bool) :
    ReadsAs (nestedWorld opens) (ascii "top/") nestedForest [] := by
  rintro n names ⟨⟩
  decide

theorem describes_nestedWorld (opens : Bool) :
    Describes (nestedWorld opens) (ascii "top/") nestedForest [] := by
  refine ⟨?_, ?_, ⟨?_, by decide, trivial⟩, trivial⟩
  · rintro n found ⟨⟩
    decide
  · intro n names hnames
    cases opens with
    | false => cases hnames
    | true =>
        obtain rfl := Option.some.inj hnames
        decide
  · rintro n found ⟨⟩
    rfl

/-- The file in a directory that cannot be opened is not sent, and the push
returns true. -/
theorem push_misses_unreadable_directory :
    nestedForest.EachName FileName ∧ ReadsAs (nestedWorld false) (ascii "top/") nestedForest [] ∧
      Describes (nestedWorld false) (ascii "top/") nestedForest [] ∧
      ¬ Truthful (nestedWorld false) (ascii "top/") (ascii "/sdcard/") nestedForest true
        (push (nestedWorld false) 3 (ascii "top") (ascii "/sdcard") false false true []) := by
  refine ⟨names_nestedForest, readsAs_nestedWorld false, describes_nestedWorld false, ?_⟩
  intro htruthful
  have hrun : push (nestedWorld false) 3 (ascii "top") (ascii "/sdcard") false false true [] =
      (.ok true, ⟨[], true, false, 3, []⟩) := by decide +kernel
  rw [hrun] at htruthful
  rcases htruthful rfl ([ascii "d"], ascii "f", ⟨0o100644, 2, 7⟩) (by simp [nestedForest,
    Forest.objects]) (by decide) with hdelivered | hskipped
  · obtain ⟨_, _, _, htrace, _, _, _, rfl, _⟩ := hdelivered
    simp at htrace
  · obtain ⟨list, answers, _, htrace, _, _, hzip, _⟩ := hskipped
    simp at htrace
    simp [htrace] at hzip

theorem push_status_truthful_nested :
    (push (nestedWorld true) 3 (ascii "top") (ascii "/sdcard") false false true
        (header idOkay 0)).1 = .ok true ∧
      Truthful (nestedWorld true) (ascii "top/") (ascii "/sdcard/") nestedForest true
        (push (nestedWorld true) 3 (ascii "top") (ascii "/sdcard") false false true
          (header idOkay 0)) := by
  refine ⟨by decide +kernel, ?_⟩
  refine push_status_truthful (nestedWorld true) 3 (ascii "top") (ascii "/sdcard") false true
    (header idOkay 0) nestedForest names_nestedForest (readsAs_nestedWorld true)
    (describes_nestedWorld true) ?_ ?_
  · intro o ho _
    obtain rfl : o = ([ascii "d"], ascii "f", ⟨0o100644, 2, 7⟩) := by
      simpa [nestedForest, Forest.objects] using ho
    refine ⟨fun n => Option.ne_none_iff_exists'.mpr ⟨_, rfl⟩, ?_⟩
    intro above name hprefixed
    have hlen := hprefixed.length_le
    cases above with
    | nil =>
        obtain rfl : name = ascii "d" := by simpa using hprefixed
        exact ⟨fun n => Option.ne_none_iff_exists'.mpr ⟨_, rfl⟩,
          fun n => Option.ne_none_iff_exists'.mpr ⟨_, rfl⟩⟩
    | cons => simp at hlen
  · have htrace : (push (nestedWorld true) 3 (ascii "top") (ascii "/sdcard") false false true
        (header idOkay 0)).2.trace =
        [.wrote (transfer (entryOf (ascii "top/") (ascii "/sdcard/")
          ([ascii "d"], ascii "f", ⟨0o100644, 2, 7⟩)) [ascii "hi"]),
          .read (header idOkay 0)] := by decide +kernel
    intro waiting hmem
    rw [htrace] at hmem
    simp at hmem

end Adb.PushTruth
