import Adb.ProtocolStrings

/-!
The name of the shell service: how the client writes the arguments of a shell
into it and how adbd reads them back.  Neither side quotes the value of `TERM`.
-/

namespace Adb.ShellServices

open Adb.DescriptorIo
open Adb.ProtocolStrings
open Adb.WirePackets

/-- A string of C: an environment variable, a property, a command line. -/
structure CText where
  text : Bytes
  nulFree : 0 ∉ text
  deriving DecidableEq

inductive SubprocessType where
  | pty
  | raw
  deriving DecidableEq, Repr

inductive SubprocessProtocol where
  | none
  | shell
  deriving DecidableEq, Repr

/-- The arguments of `StartSubprocess`. -/
structure Subprocess where
  command : Bytes
  terminalType : Bytes
  type : SubprocessType
  protocol : SubprocessProtocol
  deriving DecidableEq, Repr

def shellServiceArgRaw : Bytes := ascii "raw"

def shellServiceArgPty : Bytes := ascii "pty"

def shellServiceArgShellProtocol : Bytes := ascii "v2"

/-- The arguments that `ShellServiceString` collects; `terminalType` is what
`getenv("TERM")` returns. -/
def shellServiceArgs (terminalType : Option CText) (useShellProtocol : Bool)
    (typeArg : Bytes) : List Bytes :=
  let args :=
    if useShellProtocol then
      shellServiceArgShellProtocol ::
        (terminalType.map fun term => ascii "TERM=" ++ term.text).toList
    else []
  if typeArg = [] then args else args ++ [typeArg]

def shellServiceString (terminalType : Option CText) (useShellProtocol : Bool)
    (typeArg command : Bytes) : Bytes :=
  let args := shellServiceArgs terminalType useShellProtocol typeArg
  ascii "shell" ++ (if args = [] then [] else ascii ",") ++
    cString ([44].intercalate args) ++ ascii ":" ++ cString command

/-- One argument in the loop of `ShellService`. -/
def readArg (process : Subprocess) (arg : Bytes) : Subprocess :=
  if arg = shellServiceArgRaw then { process with type := .raw }
  else if arg = shellServiceArgPty then { process with type := .pty }
  else if arg = shellServiceArgShellProtocol then { process with protocol := .shell }
  else if (ascii "TERM=").isPrefixOf arg then { process with terminalType := arg.drop 5 }
  else process

def defaultType (command : Bytes) : SubprocessType := if command = [] then .pty else .raw

/-- `ShellService`: what it starts, if it finds a colon. -/
def shellService (args : Bytes) : Option Subprocess :=
  if 58 ∈ args then
    let delimiterIndex := args.idxOf 58
    let serviceArgs := args.take delimiterIndex
    let command := args.drop (delimiterIndex + 1)
    let process := (serviceArgs.splitOn 44).foldl readArg
      ⟨command, ascii "dumb", defaultType command, .none⟩
    some { process with
      command := cString process.command
      terminalType := cString process.terminalType }
  else none

/-- The type arguments that the client uses. -/
inductive TypeArg where
  | default
  | raw
  | pty
  deriving DecidableEq, Repr

namespace TypeArg

def text : TypeArg → Bytes
  | default => []
  | raw => shellServiceArgRaw
  | pty => shellServiceArgPty

def requested : TypeArg → Bytes → SubprocessType
  | default, command => defaultType command
  | raw, _ => .raw
  | pty, _ => .pty

end TypeArg

/-- adbd starts what the client asks for. -/
structure Agrees (terminalType : Option CText) (useShellProtocol : Bool) (typeArg : TypeArg)
    (command : CText) (process : Subprocess) : Prop where
  sameCommand : process.command = command.text
  protocol : process.protocol = if useShellProtocol then .shell else .none
  type : process.type = typeArg.requested command.text
  terminal : useShellProtocol = true → ∀ term, terminalType = some term →
    process.terminalType = term.text

/-- The part of a service name that holds the arguments. -/
def argsText (args : List Bytes) : Bytes := args.flatMap (44 :: ·)

theorem cons_intercalate (arg : Bytes) (args : List Bytes) :
    44 :: [44].intercalate (arg :: args) = argsText (arg :: args) := by
  induction args generalizing arg with
  | nil => simp [argsText]
  | cons next args ih =>
      rw [List.intercalate_cons_cons, argsText, List.flatMap_cons, ← argsText, ← ih next]
      simp

theorem splitOn_append_argsText (front : Bytes) (args : List Bytes) :
    (front ++ argsText args).splitOn 44 = front.splitOn 44 ++ args.flatMap (·.splitOn 44) := by
  induction args generalizing front with
  | nil => simp [argsText]
  | cons arg args ih =>
      rw [argsText, List.flatMap_cons, ← argsText, List.cons_append,
        List.splitOn_append_cons_self, ih, List.flatMap_cons]

theorem splitOn_argsText (args : List Bytes) :
    (argsText args).splitOn 44 = [] :: args.flatMap (·.splitOn 44) :=
  splitOn_append_argsText [] args

theorem mem_argsText {b : UInt8} {args : List Bytes} :
    b ∈ argsText args ↔ ∃ arg ∈ args, b = 44 ∨ b ∈ arg := by
  simp [argsText]

theorem argsText_append (front back : List Bytes) :
    argsText (front ++ back) = argsText front ++ argsText back :=
  List.flatMap_append

section

variable {terminalType : Option CText} {useShellProtocol : Bool} {typeArg : TypeArg}
  {command : CText}

theorem mem_shellServiceArgs {arg : Bytes}
    (h : arg ∈ shellServiceArgs terminalType useShellProtocol typeArg.text) :
    arg = shellServiceArgShellProtocol ∨
      (∃ term, terminalType = some term ∧ useShellProtocol = true ∧
        arg = ascii "TERM=" ++ term.text) ∨
      arg = typeArg.text := by
  simp only [shellServiceArgs] at h
  cases useShellProtocol with
  | false =>
      split at h
      · cases h
      · exact .inr (.inr (List.mem_singleton.mp h))
  | true =>
      have hmem : arg ∈ shellServiceArgShellProtocol ::
            (terminalType.map fun term => ascii "TERM=" ++ term.text).toList ∨
          arg = typeArg.text := by
        split at h
        · exact .inl h
        · exact (List.mem_append.mp h).imp id List.mem_singleton.mp
      rcases hmem with hmem | rfl
      · rcases List.mem_cons.mp hmem with rfl | hterm
        · exact .inl rfl
        · rw [Option.mem_toList, Option.map_eq_some_iff] at hterm
          obtain ⟨term, hterm, rfl⟩ := hterm
          exact .inr (.inl ⟨term, hterm, rfl, rfl⟩)
      · exact .inr (.inr rfl)

theorem not_mem_argsText {b : UInt8}
    (hfixed : ∀ text ∈ [ascii ",", shellServiceArgShellProtocol, ascii "TERM=",
      shellServiceArgRaw, shellServiceArgPty], b ∉ text)
    (hterm : useShellProtocol = true → ∀ term, terminalType = some term → b ∉ term.text) :
    b ∉ argsText (shellServiceArgs terminalType useShellProtocol typeArg.text) := by
  rw [mem_argsText]
  rintro ⟨arg, harg, rfl | hmem⟩
  · exact hfixed _ List.mem_cons_self (by decide)
  · rcases mem_shellServiceArgs harg with rfl | ⟨term, hsome, hshell, rfl⟩ | rfl
    · exact hfixed _ (by simp) hmem
    · rcases List.mem_append.mp hmem with hmem | hmem
      · exact hfixed _ (by simp) hmem
      · exact hterm hshell term hsome hmem
    · cases typeArg with
      | default => cases hmem
      | raw => exact hfixed shellServiceArgRaw (by simp) hmem
      | pty => exact hfixed shellServiceArgPty (by simp) hmem

theorem shellServiceString_eq :
    shellServiceString terminalType useShellProtocol typeArg.text command.text =
      ascii "shell" ++ argsText (shellServiceArgs terminalType useShellProtocol typeArg.text) ++
        58 :: command.text := by
  have hfree : 0 ∉ argsText (shellServiceArgs terminalType useShellProtocol typeArg.text) :=
    not_mem_argsText (by decide) fun _ term _ => term.nulFree
  rw [shellServiceString, cString_of_not_mem command.nulFree]
  cases hargs : shellServiceArgs terminalType useShellProtocol typeArg.text with
  | nil => rfl
  | cons arg args =>
      rw [hargs, ← cons_intercalate, List.mem_cons, not_or] at hfree
      rw [cString_of_not_mem hfree.2, ← cons_intercalate]
      simp [show ascii "," = [44] by decide, show ascii ":" = [58] by decide]

@[simp] theorem readArg_command (process : Subprocess) (arg : Bytes) :
    (readArg process arg).command = process.command := by
  rw [readArg]
  split_ifs <;> rfl

@[simp] theorem foldl_readArg_command (args : List Bytes) (process : Subprocess) :
    (args.foldl readArg process).command = process.command := by
  induction args generalizing process with
  | nil => rfl
  | cons arg args ih => rw [List.foldl_cons, ih, readArg_command]

theorem not_mem_foldl_readArg {b : UInt8} {args : List Bytes} {process : Subprocess}
    (hargs : ∀ arg ∈ args, b ∉ arg) (h : b ∉ process.terminalType) :
    b ∉ (args.foldl readArg process).terminalType := by
  induction args generalizing process with
  | nil => exact h
  | cons arg args ih =>
      rw [List.foldl_cons]
      apply ih fun arg' harg' => hargs arg' (List.mem_cons_of_mem arg harg')
      rw [readArg]
      split_ifs
      · exact h
      · exact h
      · exact h
      · exact fun hmem => hargs arg List.mem_cons_self (List.mem_of_mem_drop hmem)
      · exact h

theorem not_mem_of_mem_splitOn {b : UInt8} {text piece : Bytes}
    (h : piece ∈ text.splitOn b) : b ∉ piece := by
  induction text generalizing piece with
  | nil =>
      obtain rfl : piece = [] := by simpa using h
      exact List.not_mem_nil
  | cons x text ih =>
      rw [List.splitOn_cons_eq_if_modifyHead] at h
      split at h
      · rcases List.mem_cons.mp h with rfl | h
        · exact List.not_mem_nil
        · exact ih h
      · rename_i hx
        cases hsplit : text.splitOn b with
        | nil => exact absurd hsplit (List.splitOn_ne_nil b text)
        | cons first rest =>
            rw [hsplit] at h ih
            rcases List.mem_cons.mp h with rfl | h
            · have hne : b ≠ x := by
                rintro rfl
                simp at hx
              rw [List.mem_cons, not_or]
              exact ⟨hne, ih List.mem_cons_self⟩
            · exact ih (List.mem_cons_of_mem first h)

theorem shellService_append {front : Bytes} (hfront : 58 ∉ front) (command : Bytes) :
    shellService (front ++ 58 :: command) =
      let process := (front.splitOn 44).foldl readArg
        ⟨command, ascii "dumb", defaultType command, .none⟩
      some { process with
        command := cString process.command
        terminalType := cString process.terminalType } := by
  have hindex : (front ++ 58 :: command).idxOf 58 = front.length := by
    rw [List.idxOf_append_of_notMem hfront, List.idxOf_cons_self, Nat.add_zero]
  have hcommand : (front ++ 58 :: command).drop (front.length + 1) = command := by
    rw [← List.drop_drop, List.drop_left]
    rfl
  rw [shellService, if_pos (by simp)]
  simp only [hindex, List.take_left, hcommand]

/-- The process that adbd starts for a client: the name of the service without
`shell`. -/
def startedProcess (terminalType : Option CText) (useShellProtocol : Bool) (typeArg : TypeArg)
    (command : CText) : Option Subprocess :=
  shellService
    ((shellServiceString terminalType useShellProtocol typeArg.text command.text).drop 5)

theorem startedProcess_eq :
    startedProcess terminalType useShellProtocol typeArg command =
      shellService (argsText (shellServiceArgs terminalType useShellProtocol typeArg.text) ++
        58 :: command.text) := by
  rw [startedProcess, shellServiceString_eq, List.append_assoc]
  rfl

/-- No part of `TERM` is taken for another field. -/
def TermFits (terminalType : Option CText) (useShellProtocol : Bool) : Prop :=
  useShellProtocol = true → ∀ term, terminalType = some term → 44 ∉ term.text ∧ 58 ∉ term.text

theorem splitOn_shellServiceArgs (h : TermFits terminalType useShellProtocol) :
    (shellServiceArgs terminalType useShellProtocol typeArg.text).flatMap (·.splitOn 44) =
      shellServiceArgs terminalType useShellProtocol typeArg.text := by
  have hone : ∀ arg ∈ shellServiceArgs terminalType useShellProtocol typeArg.text,
      arg.splitOn 44 = [arg] := by
    intro arg harg
    apply List.splitOn_eq_singleton
    rcases mem_shellServiceArgs harg with rfl | ⟨term, hsome, hshell, rfl⟩ | rfl
    · decide
    · rw [List.mem_append, not_or]
      exact ⟨by decide, (h hshell term hsome).1⟩
    · cases typeArg <;> decide
  rw [List.flatMap_congr hone]
  simp

theorem readArg_term (process : Subprocess) (term : Bytes) :
    readArg process (ascii "TERM=" ++ term) = { process with terminalType := term } := by
  have hne : ∀ text : Bytes, text.head? ≠ some 84 → ascii "TERM=" ++ term ≠ text := by
    rintro text hhead rfl
    exact hhead rfl
  rw [readArg, if_neg (hne _ (by decide)), if_neg (hne _ (by decide)), if_neg (hne _ (by decide)),
    if_pos (by simp)]
  rfl

theorem readArg_typeArg (process : Subprocess) (command : Bytes)
    (h : process.type = defaultType command) :
    readArg process typeArg.text = { process with type := typeArg.requested command } := by
  cases typeArg with
  | default => rw [TypeArg.requested, ← h]; rfl
  | raw => rfl
  | pty => rfl

theorem readArg_nil (process : Subprocess) : readArg process [] = process := rfl

theorem foldl_shellServiceArgs (process : Subprocess) (command : Bytes)
    (htype : process.type = defaultType command) :
    (shellServiceArgs terminalType useShellProtocol typeArg.text).foldl readArg process =
      { process with
        terminalType :=
          if useShellProtocol then (terminalType.map CText.text).getD process.terminalType
          else process.terminalType
        protocol := if useShellProtocol then .shell else process.protocol
        type := typeArg.requested command } := by
  have hlast : ∀ args : List Bytes,
      (if typeArg.text = [] then args else args ++ [typeArg.text]).foldl readArg process =
        readArg (args.foldl readArg process) typeArg.text := by
    intro args
    split
    · rename_i hnil
      rw [hnil, readArg_nil]
    · rw [List.foldl_append, List.foldl_cons, List.foldl_nil]
  rw [shellServiceArgs, hlast]
  cases useShellProtocol with
  | false => exact readArg_typeArg process command htype
  | true =>
      cases terminalType with
      | none => exact readArg_typeArg { process with protocol := .shell } command htype
      | some term =>
          simp only [if_true, Option.map_some, Option.toList_some, List.foldl_cons,
            List.foldl_nil, readArg_term, Option.getD_some]
          exact readArg_typeArg ⟨process.command, term.text, process.type, .shell⟩ command htype

theorem startedProcess_of_fits (h : TermFits terminalType useShellProtocol) :
    startedProcess terminalType useShellProtocol typeArg command =
      some ⟨command.text,
        if useShellProtocol then (terminalType.map CText.text).getD (ascii "dumb")
        else ascii "dumb",
        typeArg.requested command.text, if useShellProtocol then .shell else .none⟩ := by
  have hcolon : 58 ∉ argsText (shellServiceArgs terminalType useShellProtocol typeArg.text) :=
    not_mem_argsText (by decide) fun hshell term hsome => (h hshell term hsome).2
  have hterm : 0 ∉ if useShellProtocol then (terminalType.map CText.text).getD (ascii "dumb")
      else ascii "dumb" := by
    split
    · cases terminalType with
      | none => decide
      | some term => exact term.nulFree
    · decide
  rw [startedProcess_eq, shellService_append hcolon, splitOn_argsText,
    splitOn_shellServiceArgs h, List.foldl_cons, readArg_nil,
    foldl_shellServiceArgs _ command.text rfl]
  simp only [cString_of_not_mem command.nulFree, cString_of_not_mem hterm]

theorem shellServiceArgs_some (term : CText) (typeArg : Bytes) :
    shellServiceArgs (some term) true typeArg =
      [shellServiceArgShellProtocol, ascii "TERM=" ++ term.text] ++
        if typeArg = [] then [] else [typeArg] := by
  simp only [shellServiceArgs, if_true, Option.map_some, Option.toList_some]
  split
  · rfl
  · rfl

/-- A colon in `TERM` ends the arguments too early, and the command gets longer. -/
theorem command_ne_of_colon {term : CText} (hcolon : 58 ∈ term.text) {process : Subprocess}
    (h : startedProcess (some term) true typeArg command = some process) :
    process.command ≠ command.text := by
  obtain ⟨front, back, hterm, hfront⟩ := List.eq_append_cons_of_mem hcolon
  have hfree : 0 ∉ argsText (shellServiceArgs (some term) true typeArg.text) ++
      58 :: command.text := by
    rw [List.mem_append, List.mem_cons, not_or, not_or]
    exact ⟨not_mem_argsText (by decide) fun _ term _ => term.nulFree, by decide,
      command.nulFree⟩
  obtain ⟨rest, hname⟩ : ∃ rest,
      argsText (shellServiceArgs (some term) true typeArg.text) ++ 58 :: command.text =
        argsText [shellServiceArgShellProtocol, ascii "TERM=" ++ front] ++
          58 :: (back ++ rest ++ 58 :: command.text) := by
    refine ⟨argsText (if typeArg.text = [] then [] else [typeArg.text]), ?_⟩
    rw [shellServiceArgs_some, argsText_append]
    simp [argsText, hterm]
  have hfront' : 58 ∉ argsText [shellServiceArgShellProtocol, ascii "TERM=" ++ front] := by
    rw [mem_argsText]
    rintro ⟨arg, harg, heq | hmem⟩
    · exact absurd heq (by decide)
    · rcases List.mem_pair.mp harg with rfl | rfl
      · exact absurd hmem (by decide)
      · rcases List.mem_append.mp hmem with hmem | hmem
        · exact absurd hmem (by decide)
        · exact hfront hmem
  rw [hname, List.mem_append, List.mem_cons, not_or, not_or] at hfree
  rw [startedProcess_eq, hname, shellService_append hfront'] at h
  obtain rfl := Option.some.inj h
  rw [foldl_readArg_command, cString_of_not_mem hfree.2.2]
  intro heq
  have hlength := congrArg List.length heq
  simp only [List.length_append, List.length_cons] at hlength
  omega

theorem comma_not_mem_terminalType {args : Bytes} {process : Subprocess}
    (h : shellService args = some process) : 44 ∉ process.terminalType := by
  simp only [shellService] at h
  split at h
  · obtain rfl := Option.some.inj h
    intro hmem
    have hdumb : 44 ∉ ascii "dumb" := by decide
    exact not_mem_foldl_readArg (fun arg harg => not_mem_of_mem_splitOn harg) hdumb
      ((List.takeWhile_prefix _).subset hmem)
  · cases h

/-- adbd starts what the client asks for exactly when `TERM` does not travel or
holds neither a comma nor a colon. -/
theorem shellService_agrees_iff (terminalType : Option CText) (useShellProtocol : Bool)
    (typeArg : TypeArg) (command : CText) :
    (∃ process,
        startedProcess terminalType useShellProtocol typeArg command = some process ∧
        Agrees terminalType useShellProtocol typeArg command process) ↔
      (useShellProtocol = true → ∀ term, terminalType = some term →
        44 ∉ term.text ∧ 58 ∉ term.text) := by
  constructor
  · rintro ⟨process, hstarted, hagrees⟩ rfl term rfl
    constructor
    · rw [← hagrees.terminal rfl term rfl]
      exact comma_not_mem_terminalType hstarted
    · intro hcolon
      exact command_ne_of_colon hcolon hstarted hagrees.sameCommand
  · intro hfits
    refine ⟨_, startedProcess_of_fits hfits, rfl, rfl, rfl, ?_⟩
    rintro rfl term rfl
    rfl

/-- With `TERM` set to `a:b` adbd is asked for `ls` and starts `b,raw:ls`. -/
theorem shellService_not_agrees :
    ¬ ∃ process,
      startedProcess (some ⟨ascii "a:b", by decide⟩) true .raw ⟨ascii "ls", by decide⟩ =
        some process ∧
      Agrees (some ⟨ascii "a:b", by decide⟩) true .raw ⟨ascii "ls", by decide⟩ process := by
  rintro ⟨process, hstarted, hagrees⟩
  have hcolon : 58 ∈ (⟨ascii "a:b", by decide⟩ : CText).text := by decide
  exact command_ne_of_colon hcolon hstarted hagrees.sameCommand

end

end Adb.ShellServices
