import Hal9000.CommonLib.Tokens
import Hal9000.CommonLib.StringCompare
import Mathlib.Data.List.Nodup

set_option autoImplicit false

namespace Hal9000.Kernel

open Lib (Bytes Access)

def cmdMaxArgs : Nat := 10

inductive CommandFunction where
  | cmdResetSystem | cmdShutdownSystem | cmdLogSetState | cmdSetLogLevel | cmdSetLogComponents
  | cmdClearScreen | cmdPrintVolumeInformation | cmdReadFile | cmdWriteFile | cmdStatFile
  | cmdMakeDirectory | cmdMakeFile | cmdListDirectory | cmdSwap | cmdListCpus
  | cmdListCpuInterrupts | cmdYield | cmdTestTimer | cmdListThreads | cmdRunTest
  | cmdListProcesses | cmdProcessDump | cmdStartProcess | cmdTestProcess | cmdDisplaySysInfo
  | cmdGetIdle | cmdSetIdle | cmdRdmsr | cmdWrmsr | cmdCheckAd
  | cmdSpawnThreads | cmdCpuid | cmdSendIpi | cmdListNetworks | cmdNetRecv
  | cmdNetSend | cmdChangeDevStatus | cmdRunAllFunctionalTests | cmdRunAllPerformanceTests | cmdInfiniteRecursion
  | cmdRtcFail | cmdRangeFail | cmdBiteCookie | cmdPrintHelp
  deriving DecidableEq, Repr

structure CommandDefinition where
  commandName : CString
  commandFunction : CommandFunction
  minParameters : Nat
  maxParameters : Nat
  deriving DecidableEq

abbrev word (letters : List Char)
    (all : (letters.map (fun c => UInt8.ofNat c.toNat)).all (· != 0) = true := by decide) : CString :=
  CString.of (letters.map (fun c => UInt8.ofNat c.toNat)) all

def cmdExit : CString := word ['e', 'x', 'i', 't']

def commands : List CommandDefinition := [
  ⟨word ['r', 'e', 's', 'e', 't'], .cmdResetSystem, 0, 0⟩,
  ⟨word ['s', 'h', 'u', 't', 'd', 'o', 'w', 'n'], .cmdShutdownSystem, 0, 0⟩,
  ⟨word ['l', 'o', 'g'], .cmdLogSetState, 1, 1⟩,
  ⟨word ['l', 'o', 'g', 'l', 'e', 'v', 'e', 'l'], .cmdSetLogLevel, 1, 1⟩,
  ⟨word ['l', 'o', 'g', 'c', 'o', 'm', 'p'], .cmdSetLogComponents, 1, 1⟩,
  ⟨word ['c', 'l', 's'], .cmdClearScreen, 0, 0⟩,
  ⟨word ['v', 'o', 'l'], .cmdPrintVolumeInformation, 0, 0⟩,
  ⟨word ['l', 'e', 's', 's'], .cmdReadFile, 1, 2⟩,
  ⟨word ['f', 'w', 'r', 'i', 't', 'e'], .cmdWriteFile, 1, 4⟩,
  ⟨word ['s', 't', 'a', 't'], .cmdStatFile, 1, 1⟩,
  ⟨word ['m', 'k', 'd', 'i', 'r'], .cmdMakeDirectory, 1, 1⟩,
  ⟨word ['t', 'o', 'u', 'c', 'h'], .cmdMakeFile, 1, 1⟩,
  ⟨word ['l', 's'], .cmdListDirectory, 1, 2⟩,
  ⟨word ['s', 'w', 'a', 'p'], .cmdSwap, 1, 2⟩,
  ⟨word ['c', 'p', 'u'], .cmdListCpus, 0, 0⟩,
  ⟨word ['i', 'n', 't'], .cmdListCpuInterrupts, 0, 0⟩,
  ⟨word ['y', 'i', 'e', 'l', 'd'], .cmdYield, 0, 0⟩,
  ⟨word ['t', 'i', 'm', 'e', 'r'], .cmdTestTimer, 1, 3⟩,
  ⟨word ['t', 'h', 'r', 'e', 'a', 'd', 's'], .cmdListThreads, 0, 0⟩,
  ⟨word ['r', 'u', 'n'], .cmdRunTest, 1, 2⟩,
  ⟨word ['p', 'r', 'o', 'c', 'e', 's', 's', 'e', 's'], .cmdListProcesses, 0, 0⟩,
  ⟨word ['p', 'r', 'o', 'c', 's', 't', 'a', 't'], .cmdProcessDump, 1, 1⟩,
  ⟨word ['p', 'r', 'o', 'c', 's', 't', 'a', 'r', 't'], .cmdStartProcess, 1, 1⟩,
  ⟨word ['p', 'r', 'o', 'c', 't', 'e', 's', 't'], .cmdTestProcess, 1, 1⟩,
  ⟨word ['s', 'y', 's', 'i', 'n', 'f', 'o'], .cmdDisplaySysInfo, 0, 0⟩,
  ⟨word ['g', 'e', 't', 'i', 'd', 'l', 'e'], .cmdGetIdle, 0, 0⟩,
  ⟨word ['s', 'e', 't', 'i', 'd', 'l', 'e'], .cmdSetIdle, 1, 1⟩,
  ⟨word ['r', 'd', 'm', 's', 'r'], .cmdRdmsr, 1, 1⟩,
  ⟨word ['w', 'r', 'm', 's', 'r'], .cmdWrmsr, 2, 2⟩,
  ⟨word ['c', 'h', 'k', 'a', 'd'], .cmdCheckAd, 0, 0⟩,
  ⟨word ['s', 'p', 'a', 'w', 'n'], .cmdSpawnThreads, 2, 2⟩,
  ⟨word ['c', 'p', 'u', 'i', 'd'], .cmdCpuid, 0, 2⟩,
  ⟨word ['i', 'p', 'i'], .cmdSendIpi, 1, 3⟩,
  ⟨word ['n', 'e', 't', 'w', 'o', 'r', 'k', 's'], .cmdListNetworks, 0, 0⟩,
  ⟨word ['n', 'e', 't', 'r', 'e', 'c', 'v'], .cmdNetRecv, 0, 1⟩,
  ⟨word ['n', 'e', 't', 's', 'e', 'n', 'd'], .cmdNetSend, 0, 0⟩,
  ⟨word ['n', 'e', 't', 's', 't', 'a', 't', 'u', 's'], .cmdChangeDevStatus, 3, 3⟩,
  ⟨word ['t', 'e', 's', 't', 's'], .cmdRunAllFunctionalTests, 0, 0⟩,
  ⟨word ['p', 'e', 'r', 'f'], .cmdRunAllPerformanceTests, 0, 0⟩,
  ⟨word ['r', 'e', 'c', 'u', 'r', 's', 'i', 'o', 'n'], .cmdInfiniteRecursion, 0, 0⟩,
  ⟨word ['r', 't', 'c', 'f', 'a', 'i', 'l'], .cmdRtcFail, 0, 0⟩,
  ⟨word ['r', 'a', 'n', 'g', 'e', 'f', 'a', 'i', 'l'], .cmdRangeFail, 0, 0⟩,
  ⟨word ['b', 'i', 't', 'e', 'c', 'o', 'o', 'k', 'i', 'e'], .cmdBiteCookie, 0, 0⟩,
  ⟨word ['h', 'e', 'l', 'p'], .cmdPrintHelp, 0, 0⟩]

inductive CommandEvent where
  | warned
  | printed (text : CString)
  | called (commandFunction : CommandFunction) (noOfParameters : Nat) (parameters : List Nat)
  | refused (commandFunction : CommandFunction) (noOfParameters : Nat)
  | helped
  deriving DecidableEq

def stricmp (fuel : Nat) (str1 str2 : CString) : Access Int :=
  match clStricmp fuel (some str1) (some str2) with
  | none => .error .unfinished
  | some order => .ok order

def execFrom (fuel : Nat) (pCommand : CString) (noOfParameters : Nat) (argv : List Nat) :
    List CommandDefinition -> Access (Bool × List CommandEvent)
  | [] => pure (false, [])
  | command :: rest => do
    let order <- stricmp fuel pCommand command.commandName
    if order = 0 then
      if command.minParameters ≤ noOfParameters ∧ noOfParameters ≤ command.maxParameters then
        pure (true, [.called command.commandFunction noOfParameters ((argv.drop 1).take 9)])
      else do
        let (_, events) <- execFrom fuel pCommand noOfParameters argv rest
        pure (true, .refused command.commandFunction noOfParameters :: events)
    else execFrom fuel pCommand noOfParameters argv rest

def execCmd (fuel : Nat) (memory : Bytes) (argc : Nat) (argv : List Nat) : Access (Bool × List CommandEvent) := do
  Access.assert (decide (1 ≤ argc ∧ argc ≤ cmdMaxArgs)) "1 <= argc && argc <= CMD_MAX_ARGS"
  let pCommand := argv.getD 0 0
  Access.assert (0 != pCommand) "NULL != pCommand"
  let pCommand <- readString memory fuel pCommand
  let order <- stricmp fuel pCommand cmdExit
  if 0 = order then pure (true, [])
  else do
    let (bFoundCommand, events) <- execFrom fuel pCommand (argc - 1) argv commands
    if bFoundCommand then pure (false, events) else pure (false, events ++ [.helped])

-- The calls of strtok_s, with argIndex and pCmdArgs.
def cmdArguments (limit strToken delimiters : Nat) :
    (fuel : Nat) -> (context : Option Nat) -> (argIndex : Nat) -> (pCmdArgs : List Nat) -> Bytes ->
      Access (Nat × List Nat × Bytes)
  | 0, _, _, _, _ => .error .unfinished
  | fuel + 1, context, argIndex, pCmdArgs, memory => do
    let (pCurArg, context, memory) <- clStrtokS limit memory strToken delimiters context
    if 0 = pCurArg then pure (argIndex, pCmdArgs, memory)
    else do
      Access.assert (decide (argIndex < cmdMaxArgs)) "argIndex < CMD_MAX_ARGS"
      cmdArguments limit strToken delimiters fuel context (dword (argIndex + 1)) (pCmdArgs.set argIndex pCurArg) memory

def cmdExecLine (fuel : Nat) (memory : Bytes) (commandLine length delimiters : Nat) :
    Access (Bool × List CommandEvent × Bytes) := do
  let first <- memory.load commandLine
  if first = 0x2F then
    if length ≤ 1 then pure (false, [.warned], memory)
    else do
      let pCmdArgs := List.replicate cmdMaxArgs 0
      let (argIndex, pCmdArgs, memory) <-
        cmdArguments fuel (commandLine + 1) delimiters fuel (some 0) 0 pCmdArgs memory
      let (bExit, events) <- execCmd fuel memory argIndex pCmdArgs
      pure (bExit, events, memory)
  else do
    let text <- readString memory fuel commandLine
    pure (false, [.printed text], memory)

def space : CString := single 0x20 (by decide)

def CommandEvent.call : CommandEvent -> Option (CommandFunction × Nat × List Nat)
  | .called commandFunction noOfParameters parameters => some (commandFunction, noOfParameters, parameters)
  | _ => none

def behind (line : CString) : CString :=
  ⟨line.chars.drop 1, fun c member => line.nonZero c (List.mem_of_mem_drop member)⟩

-- The pieces between spaces as strtok_s returns them, which may be empty.
def lineTokens (line : CString) : List (List UInt8) := tokensOf (segments space (behind line))

def lineWords (line : CString) : List (List UInt8) :=
  if line.at_ 0 = 0x2F then (segments space (behind line)).filter (fun word => word ≠ []) else []

def CommandDefinition.Accepts (command : CommandDefinition) (words : List (List UInt8)) : Prop :=
  words.head?.map (List.map caseless) = some command.commandName.chars ∧
    command.minParameters ≤ words.length - 1 ∧ words.length - 1 ≤ command.maxParameters

instance (command : CommandDefinition) (words : List (List UInt8)) : Decidable (command.Accepts words) :=
  inferInstanceAs (Decidable (_ ∧ _))

def Accepted (words : List (List UInt8)) : Prop := ∃ command, command ∈ commands ∧ command.Accepts words

instance (words : List (List UInt8)) : Decidable (Accepted words) :=
  decidable_of_iff (commands.any (fun command => command.Accepts words) = true)
    (by simp only [List.any_eq_true, decide_eq_true_eq, Accepted])

structure Dispatched (words : List (List UInt8)) (events : List CommandEvent) (after : Bytes) : Prop where
  called : forall command, command ∈ commands -> command.Accepts words ->
    ∃ parameters, events.filterMap CommandEvent.call = [(command.commandFunction, words.length - 1, parameters)] ∧
      List.Forall₂ (fun pointer argument => after.Holds pointer (argument ++ [0]))
        (parameters.take (words.length - 1)) words.tail
  idle : ¬ Accepted words -> events.filterMap CommandEvent.call = []

def LineExecuted (commandLine length delimiters : Nat) (line : CString) : Prop :=
  ∃ bExit events after,
    Access.Returns (fun fuel => cmdExecLine fuel (texts commandLine delimiters line space) commandLine length delimiters)
      (bExit, events, after) ∧
    Dispatched (lineWords line) events after ∧
    forall place, ¬ (commandLine ≤ place ∧ place < commandLine + line.length) ->
      after place = texts commandLine delimiters line space place

-- One to ten tokens and none of them empty; or neither the tokens nor the words call for a command.
def Executable (line : CString) (length : Nat) : Prop :=
  line.at_ 0 ≠ 0x2F ∨
    length ≤ 1 ∧ ¬ Accepted (lineWords line) ∨
    1 < length ∧ Tokenisable space (behind line) ∧ 1 ≤ (lineTokens line).length ∧ (lineTokens line).length ≤ cmdMaxArgs ∧
      ([] ∉ lineTokens line ∨ ¬ Accepted (lineTokens line) ∧ ¬ Accepted (lineWords line))

section Names

def Letters (chars : List UInt8) : Prop := forall c, c ∈ chars -> 0x61 ≤ c ∧ c ≤ 0x7A

instance (chars : List UInt8) : Decidable (Letters chars) := List.decidableBAll (fun c => 0x61 ≤ c ∧ c ≤ 0x7A) chars

theorem tolower_small (c : UInt8) :
    (0x61 ≤ c ∧ c ≤ 0x7A -> tolower c = c) ∧ (0x61 ≤ tolower c ∧ tolower c ≤ 0x7A -> caseless c = tolower c) := by
  have all : forall n : Fin 256,
      (0x61 ≤ UInt8.ofFin n ∧ UInt8.ofFin n ≤ 0x7A -> tolower (UInt8.ofFin n) = UInt8.ofFin n) ∧
        (0x61 ≤ tolower (UInt8.ofFin n) ∧ tolower (UInt8.ofFin n) ≤ 0x7A ->
          caseless (UInt8.ofFin n) = tolower (UInt8.ofFin n)) := by
    decide +kernel
  exact all c.toFin

theorem tolower_letter (c letter : UInt8) (small : 0x61 ≤ letter ∧ letter ≤ 0x7A) :
    tolower c = tolower letter ↔ caseless c = letter := by
  have same := (tolower_small letter).1 small
  constructor
  next =>
    intro folded
    rw [same] at folded
    rw [← folded] at small ⊢
    exact (tolower_small c).2 small
  next =>
    intro folded
    rw [← folded, tolower_caseless]

theorem map_tolower_letters {chars letters : List UInt8} (small : Letters letters) :
    chars.map tolower = letters.map tolower ↔ chars.map caseless = letters := by
  induction chars generalizing letters with
  | nil => cases letters <;> simp
  | cons c chars ih =>
    cases letters with
    | nil => simp
    | cons letter letters =>
      obtain ⟨first, rest⟩ := List.forall_mem_cons.mp small
      simp only [List.map_cons, List.cons.injEq, tolower_letter c letter first, ih rest]

attribute [local simp] stricmp in
theorem stricmp_zero (str name : CString) (short : name.length < 2 ^ 32) (small : Letters name.chars) :
    ∃ order, (forall fuel, 2 ^ 32 ≤ fuel -> stricmp fuel str name = .ok order) ∧
      (order = 0 ↔ str.chars.map caseless = name.chars) := by
  have ends : ¬ Endless tolower str name := fun endless => by
    have long := endless.2.1
    omega
  refine ⟨sign tolower str name, fun fuel enough => ?_, ?_⟩
  next =>
    rcases compareFrom_eq ends fuel 0 (Nat.two_pow_pos 32) rfl with found | ⟨_, less⟩
    next =>
      rw [stricmp, clStricmp, compareWhole, found]
      rfl
    next => omega
  next => rw [sign_eq_zero, map_tolower_letters small]

theorem commands_named : forall command, command ∈ commands ->
    command.commandName.length < 100 ∧ Letters command.commandName.chars := by
  decide

theorem commands_nodup : (commands.map (fun command => command.commandName.chars)).Nodup := by decide

theorem exit_named : cmdExit.length < 100 ∧ Letters cmdExit.chars := by decide

theorem exit_no_command : forall command, command ∈ commands -> command.commandName.chars ≠ cmdExit.chars := by
  decide

theorem accepts_unique {one other : CommandDefinition} (member : one ∈ commands) (mem : other ∈ commands)
    {words : List (List UInt8)} (first : one.Accepts words) (second : other.Accepts words) : one = other := by
  refine List.inj_on_of_nodup_map commands_nodup member mem ?_
  exact Option.some.inj (first.1.symm.trans second.1)

end Names

section Dispatch

attribute [local simp] CommandEvent.call in
attribute [local simp] execFrom in
theorem execFrom_eq (pCommand : CString) (arguments : List (List UInt8)) (argv : List Nat)
    (list : List CommandDefinition) (named : forall command, command ∈ list ->
      command.commandName.length < 100 ∧ Letters command.commandName.chars) :
    ∃ found events,
      (forall fuel, 2 ^ 32 ≤ fuel -> execFrom fuel pCommand arguments.length argv list = .ok (found, events)) ∧
      events.filterMap CommandEvent.call =
        (list.find? (fun command => command.Accepts (pCommand.chars :: arguments))).toList.map
          (fun command => (command.commandFunction, arguments.length, (argv.drop 1).take 9)) := by
  induction list with
  | nil => exact ⟨false, [], fun _ _ => rfl, rfl⟩
  | cons command rest ih =>
    obtain ⟨⟨short, small⟩, others⟩ := List.forall_mem_cons.mp named
    obtain ⟨found, events, run, calls⟩ := ih others
    obtain ⟨order, compared, zero⟩ := stricmp_zero pCommand command.commandName (by omega) small
    have accepts : command.Accepts (pCommand.chars :: arguments) ↔ order = 0 ∧
        command.minParameters ≤ arguments.length ∧ arguments.length ≤ command.maxParameters := by
      rw [zero, CommandDefinition.Accepts, List.head?_cons, Option.map_some, Option.some.injEq, List.length_cons,
        Nat.add_sub_cancel]
    rw [List.find?_cons]
    by_cases same : order = 0
    next =>
      by_cases within : command.minParameters ≤ arguments.length ∧ arguments.length ≤ command.maxParameters
      next =>
        rw [decide_eq_true (accepts.mpr ⟨same, within⟩)]
        refine ⟨true, [.called command.commandFunction arguments.length ((argv.drop 1).take 9)], fun fuel enough => ?_, rfl⟩
        rw [execFrom, compared fuel enough, Access.ok_bind, if_pos same, if_pos within]
        rfl
      next =>
        rw [decide_eq_false (fun both => within (accepts.mp both).2)]
        refine ⟨true, .refused command.commandFunction arguments.length :: events, fun fuel enough => ?_, calls⟩
        rw [execFrom, compared fuel enough, Access.ok_bind, if_pos same, if_neg within, run fuel enough]
        rfl
    next =>
      rw [decide_eq_false (fun both => same (accepts.mp both).1)]
      refine ⟨found, events, fun fuel enough => ?_, calls⟩
      rw [execFrom, compared fuel enough, Access.ok_bind, if_neg same, run fuel enough]

theorem execCmd_eq {memory : Bytes} {argc : Nat} {argv : List Nat} (few : argc ≤ cmdMaxArgs)
    {pCommand : CString} {pointer : Nat} (first : argv.getD 0 0 = pointer) (nonNull : pointer ≠ 0)
    (holds : memory.Holds pointer pCommand.bytes) {arguments : List (List UInt8)} (count : argc = arguments.length + 1) :
    ∃ bExit events,
      (forall fuel, 2 ^ 32 + pCommand.length < fuel -> execCmd fuel memory argc argv = .ok (bExit, events)) ∧
      events.filterMap CommandEvent.call =
        (commands.find? (fun command => command.Accepts (pCommand.chars :: arguments))).toList.map
          (fun command => (command.commandFunction, arguments.length, (argv.drop 1).take 9)) := by
  have exitShort : cmdExit.length < 2 ^ 32 := Nat.lt_trans exit_named.1 (by decide)
  obtain ⟨order, compared, zero⟩ := stricmp_zero pCommand cmdExit exitShort exit_named.2
  obtain ⟨found, events, run, calls⟩ := execFrom_eq pCommand arguments argv commands commands_named
  have number : argc - 1 = arguments.length := by omega
  have bounds : decide (1 ≤ argc ∧ argc ≤ cmdMaxArgs) = true := decide_eq_true ⟨by omega, few⟩
  have start : forall fuel, 2 ^ 32 + pCommand.length < fuel -> execCmd fuel memory argc argv =
      if 0 = order then .ok (true, []) else if found then .ok (false, events) else .ok (false, events ++ [.helped]) := by
    intro fuel enough
    have text := @readString_eq memory fuel pointer pCommand holds (by omega)
    simp only [execCmd, bounds, Access.assert_true, Access.ok_bind, first, bne_iff_ne.mpr (Ne.symm nonNull), text,
      compared fuel (by omega), number, run fuel (by omega)]
    rfl
  by_cases exit : 0 = order
  next =>
    refine ⟨true, [], fun fuel enough => by rw [start fuel enough, if_pos exit], ?_⟩
    have none_ : commands.find? (fun command => command.Accepts (pCommand.chars :: arguments)) = none := by
      rw [List.find?_eq_none]
      intro command member accepts
      have here := (of_decide_eq_true accepts).1
      rw [List.head?_cons, Option.map_some, Option.some.injEq, zero.mp exit.symm] at here
      exact exit_no_command command member here.symm
    rw [none_]
    rfl
  next =>
    cases found with
    | true => exact ⟨false, events, fun fuel enough => by rw [start fuel enough, if_neg exit, if_pos rfl], calls⟩
    | false =>
      refine ⟨false, events ++ [.helped], fun fuel enough => by rw [start fuel enough, if_neg exit]; rfl, ?_⟩
      rw [List.filterMap_append, calls]
      exact List.append_nil _

end Dispatch

section Arguments

variable {limit strToken place : Nat}

def argvOf (pointers : List Nat) : List Nat := pointers ++ List.replicate (cmdMaxArgs - pointers.length) 0

theorem argvOf_set (front : List Nat) (pointer : Nat) (room : front.length < cmdMaxArgs) :
    (argvOf front).set front.length pointer = argvOf (front ++ [pointer]) := by
  obtain ⟨more, rest⟩ := Nat.exists_eq_add_of_lt room
  have left : cmdMaxArgs - front.length = more + 1 := by omega
  have next : cmdMaxArgs - (front ++ [pointer]).length = more := by
    rw [List.length_append, List.length_singleton]
    omega
  rw [argvOf, argvOf, left, next, List.replicate_succ, List.set_append_right _ _ (Nat.le_refl _), Nat.sub_self,
    List.set_cons_zero, List.append_assoc]
  rfl

attribute [local simp] cmdArguments in
theorem cmdArguments_eq (fuel : Nat) {context : Option Nat} {memory after : Bytes} {pointers : List Nat}
    (front : List Nat) (run : tokenize limit strToken place fuel context memory = .ok (pointers, after))
    (few : front.length + pointers.length ≤ cmdMaxArgs) :
    cmdArguments limit strToken place fuel context front.length (argvOf front) memory =
      .ok (front.length + pointers.length, argvOf (front ++ pointers), after) := by
  induction fuel generalizing context memory after pointers front with
  | zero => cases run
  | succ fuel ih =>
    rw [tokenize] at run
    obtain ⟨⟨token, next, between⟩, first, run⟩ := Access.bind_eq_ok.mp run
    dsimp only at run
    simp only [cmdArguments, first, Access.ok_bind]
    split_ifs at run ⊢ with last
    next =>
      cases run
      rw [List.append_nil]
      rfl
    next =>
      obtain ⟨⟨others, final⟩, more, run⟩ := Access.bind_eq_ok.mp run
      cases run
      simp only [List.length_cons] at few
      have room : front.length < cmdMaxArgs := by omega
      have small : cmdMaxArgs = 10 := rfl
      have later := ih (front ++ [token]) more (by rw [List.length_append, List.length_singleton]; omega)
      rw [List.length_append, List.length_singleton, List.append_assoc, List.singleton_append] at later
      rw [decide_eq_true room, Access.assert_true, Access.ok_bind, dword_of_lt (by omega), argvOf_set front token room, later,
        List.length_cons, Nat.add_assoc, Nat.add_comm 1]

theorem cmdArguments_ok (fuel : Nat) {context : Option Nat} {memory after : Bytes} {argIndex argc : Nat}
    {pCmdArgs argv : List Nat} (small : argIndex ≤ cmdMaxArgs)
    (run : cmdArguments limit strToken place fuel context argIndex pCmdArgs memory = .ok (argc, argv, after)) :
    ∃ pointers, tokenize limit strToken place fuel context memory = .ok (pointers, after) ∧
      argc = argIndex + pointers.length ∧ argc ≤ cmdMaxArgs := by
  induction fuel generalizing context memory argIndex pCmdArgs with
  | zero => cases run
  | succ fuel ih =>
    rw [cmdArguments] at run
    obtain ⟨⟨token, next, between⟩, first, run⟩ := Access.bind_eq_ok.mp run
    dsimp only at run
    simp only [tokenize, first, Access.ok_bind]
    split_ifs at run ⊢ with last
    next =>
      cases run
      exact ⟨[], rfl, rfl, small⟩
    next =>
      obtain ⟨_, room, run⟩ := Access.bind_eq_ok.mp run
      have room : argIndex < cmdMaxArgs := by
        by_contra full
        rw [decide_eq_false full, Access.assert_false] at room
        cases room
      have bound : cmdMaxArgs = 10 := rfl
      rw [dword_of_lt (by omega)] at run
      obtain ⟨pointers, more, count, few⟩ := ih room run
      refine ⟨token :: pointers, ?_, ?_, few⟩
      next =>
        rw [more]
        rfl
      next =>
        rw [List.length_cons]
        omega

end Arguments

section Words

theorem mem_of_splitOnP {p : UInt8 -> Bool} {chars segment : List UInt8} (member : segment ∈ chars.splitOnP p) {c : UInt8}
    (inside : c ∈ segment) : c ∈ chars := by
  induction chars generalizing segment with
  | nil =>
    rw [List.splitOnP_nil, List.mem_singleton] at member
    rwa [member] at inside
  | cons d chars ih =>
    rw [List.splitOnP_cons_eq_if_modifyHead] at member
    split_ifs at member
    next =>
      rcases List.mem_cons.mp member with rfl | later
      next => cases inside
      next => exact List.mem_cons_of_mem d (ih later inside)
    next =>
      obtain ⟨head, tail, whole⟩ := List.exists_cons_of_ne_nil (List.splitOnP_ne_nil p chars)
      rw [whole, List.modifyHead_cons] at member
      rcases List.mem_cons.mp member with rfl | later
      next =>
        rcases List.mem_cons.mp inside with rfl | inside
        next => exact List.mem_cons_self
        next => exact List.mem_cons_of_mem d (ih (whole ▸ List.mem_cons_self) inside)
      next => exact List.mem_cons_of_mem d (ih (whole ▸ List.mem_cons_of_mem head later) inside)

theorem mem_tokensOf {list : List (List UInt8)} {token : List UInt8} (member : token ∈ tokensOf list) : token ∈ list := by
  rw [tokensOf] at member
  split_ifs at member
  next => exact List.dropLast_subset _ member
  next => exact member

theorem filter_tokensOf (list : List (List UInt8)) :
    (tokensOf list).filter (fun word => word ≠ []) = list.filter (fun word => word ≠ []) := by
  rw [tokensOf]
  split_ifs with empty
  next =>
    obtain ⟨front, whole⟩ := List.getLast?_eq_some_iff.mp empty
    rw [whole, List.dropLast_concat, List.filter_append]
    exact (List.append_nil _).symm
  next => rfl

variable {line : CString}

theorem lineTokens_nonZero {token : List UInt8} (member : token ∈ lineTokens line) (c : UInt8) (inside : c ∈ token) :
    c ≠ 0 := (behind line).nonZero c (mem_of_splitOnP (mem_tokensOf member) inside)

theorem lineWords_eq (slash : line.at_ 0 = 0x2F) :
    lineWords line = (lineTokens line).filter (fun word => word ≠ []) := by
  rw [lineWords, if_pos slash, lineTokens, filter_tokensOf]

theorem lineWords_of_full (slash : line.at_ 0 = 0x2F) (full : [] ∉ lineTokens line) : lineWords line = lineTokens line := by
  rw [lineWords_eq slash, List.filter_eq_self]
  intro token member
  exact decide_eq_true (fun empty => full (empty ▸ member))

theorem lineWords_fewer (slash : line.at_ 0 = 0x2F) (empty : [] ∈ lineTokens line) :
    (lineWords line).length < (lineTokens line).length := by
  rw [lineWords_eq slash, List.length_filter_lt_length_iff_exists]
  exact ⟨[], empty, by simp⟩

end Words

section Line

variable {commandLine delimiters length : Nat} {line : CString}

theorem line_slash (slash : line.at_ 0 = 0x2F) : line.chars = 0x2F :: (behind line).chars ∧ line.length = (behind line).length + 1 := by
  have inside : 0 < line.length := by
    by_contra empty
    rw [CString.at_eq_zero.mpr (Nat.le_of_not_lt empty)] at slash
    cases slash
  have whole := (drop_at inside).2
  rw [List.drop_zero, slash, Nat.zero_add] at whole
  refine ⟨whole, ?_⟩
  rw [CString.length, whole, List.length_cons]
  rfl

theorem behind_holds {memory : Bytes} (slash : line.at_ 0 = 0x2F) (holds : memory.Holds commandLine line.bytes) :
    memory.Holds (commandLine + 1) (behind line).bytes := by
  rw [CString.bytes, (line_slash slash).1, List.cons_append, ← List.singleton_append, Bytes.Holds.append] at holds
  exact holds.2

theorem space_length : space.length = 1 := rfl

theorem behind_apart (slash : line.at_ 0 = 0x2F) (apart : Apart commandLine delimiters line space) (i j : Nat)
    (inside : i < (behind line).length) (under : j ≤ space.length) : commandLine + 1 + i ≠ delimiters + j := by
  have length := (line_slash slash).2
  have different := apart_ne apart (1 + i) j (by omega) under
  omega

theorem first_char : (texts commandLine delimiters line space).load commandLine = .ok (line.at_ 0) :=
  load_string texts_string (Nat.zero_le _)

theorem cmdExecLine_plain (plain : line.at_ 0 ≠ 0x2F) {fuel : Nat} (enough : line.length < fuel) :
    cmdExecLine fuel (texts commandLine delimiters line space) commandLine length delimiters =
      .ok (false, [.printed line], texts commandLine delimiters line space) := by
  rw [cmdExecLine, first_char, Access.ok_bind, if_neg plain, readString_eq texts_string enough]
  rfl

theorem cmdExecLine_short (slash : line.at_ 0 = 0x2F) (short : length ≤ 1) (fuel : Nat) :
    cmdExecLine fuel (texts commandLine delimiters line space) commandLine length delimiters =
      .ok (false, [.warned], texts commandLine delimiters line space) := by
  rw [cmdExecLine, first_char, Access.ok_bind, if_pos slash, if_pos short]
  rfl

theorem lineTokens_tokenize (other : delimiters ≠ 0) (slash : line.at_ 0 = 0x2F)
    (apart : Apart commandLine delimiters line space) (fine : Tokenisable space (behind line)) {fuel : Nat}
    (enough : line.length < fuel) :
    tokenize fuel (commandLine + 1) delimiters fuel (some 0) (texts commandLine delimiters line space) =
        .ok (starts (commandLine + 1) (lineTokens line),
          terminated (texts commandLine delimiters line space) (commandLine + 1) (lineTokens line)) ∧
      Yields (texts commandLine delimiters line space)
        (terminated (texts commandLine delimiters line space) (commandLine + 1) (lineTokens line)) (commandLine + 1)
        (behind line) (lineTokens line) (starts (commandLine + 1) (lineTokens line)) := by
  have length := (line_slash slash).2
  exact tokenize_eq other fine (behind_holds slash texts_string) (texts_delimiters apart) (Nat.succ_ne_zero _)
    (behind_apart slash apart) (if_pos rfl) (by rw [space_length]; omega) (by omega) fuel (by omega)

theorem cmdExecLine_tokens (other : delimiters ≠ 0) (slash : line.at_ 0 = 0x2F)
    (apart : Apart commandLine delimiters line space) (long : 1 < length) (fine : Tokenisable space (behind line))
    (least : 1 ≤ (lineTokens line).length) (few : (lineTokens line).length ≤ cmdMaxArgs) :
    ∃ bExit events after,
      Access.Returns (fun fuel => cmdExecLine fuel (texts commandLine delimiters line space) commandLine length delimiters)
        (bExit, events, after) ∧
      events.filterMap CommandEvent.call =
        (commands.find? (fun command => command.Accepts (lineTokens line))).toList.map
          (fun command => (command.commandFunction, (lineTokens line).length - 1,
            ((argvOf (starts (commandLine + 1) (lineTokens line))).drop 1).take 9)) ∧
      Yields (texts commandLine delimiters line space) after (commandLine + 1) (behind line) (lineTokens line)
        (starts (commandLine + 1) (lineTokens line)) := by
  obtain ⟨token, arguments, whole⟩ := List.exists_cons_of_length_pos least
  have yields := (@lineTokens_tokenize commandLine delimiters line other slash apart fine _ (Nat.lt_succ_self _)).2
  have nonZero := @lineTokens_nonZero line token (whole ▸ List.mem_cons_self)
  have holds : (terminated (texts commandLine delimiters line space) (commandLine + 1) (lineTokens line)).Holds
      (commandLine + 1) (CString.bytes ⟨token, nonZero⟩) := by
    have tokens := yields.tokens
    rw [whole] at tokens ⊢
    exact (List.forall₂_cons.mp tokens).1
  have first : (argvOf (starts (commandLine + 1) (lineTokens line))).getD 0 0 = commandLine + 1 := by
    rw [whole]
    rfl
  have count : (lineTokens line).length = arguments.length + 1 := by rw [whole, List.length_cons]
  obtain ⟨bExit, events, dispatch, calls⟩ := execCmd_eq few first (Nat.succ_ne_zero _) holds count
  rw [← Nat.add_sub_cancel (n := arguments.length) (m := 1), ← count] at calls
  refine ⟨bExit, events, _, ⟨2 ^ 32 + line.length + token.length + 1, fun fuel enough => ?_⟩, ?_, yields⟩
  next =>
    have run := (@lineTokens_tokenize commandLine delimiters line other slash apart fine fuel (by omega)).1
    have small := starts_length (commandLine + 1) (lineTokens line)
    have stored := cmdArguments_eq fuel [] run (by rw [List.length_nil, small]; omega)
    rw [List.length_nil, Nat.zero_add, List.nil_append, small] at stored
    have zeros : argvOf [] = List.replicate cmdMaxArgs 0 := rfl
    have called := dispatch fuel (by
      have length : (⟨token, nonZero⟩ : CString).length = token.length := rfl
      omega)
    simp only [cmdExecLine, first_char, Access.ok_bind, if_pos slash, if_neg (Nat.not_le.mpr long), ← zeros, stored, called]
    rfl
  next =>
    rw [whole] at calls ⊢
    exact calls

theorem tokens_of_run (other : delimiters ≠ 0) (slash : line.at_ 0 = 0x2F)
    (apart : Apart commandLine delimiters line space) (long : 1 < length) {fuel : Nat} (enough : line.length < fuel)
    {result : Bool × List CommandEvent × Bytes}
    (run : cmdExecLine fuel (texts commandLine delimiters line space) commandLine length delimiters = .ok result) :
    Tokenisable space (behind line) ∧ 1 ≤ (lineTokens line).length ∧ (lineTokens line).length ≤ cmdMaxArgs := by
  have size := (line_slash slash).2
  rw [cmdExecLine, first_char, Access.ok_bind, if_pos slash, if_neg (Nat.not_le.mpr long)] at run
  obtain ⟨⟨argc, argv, after⟩, stored, run⟩ := Access.bind_eq_ok.mp run
  obtain ⟨pointers, tokens, count, few⟩ := cmdArguments_ok fuel (Nat.zero_le _) stored
  have fine := tokenisable_of_run other (behind_holds slash texts_string) (texts_delimiters apart) (Nat.succ_ne_zero _)
    (behind_apart slash apart) (if_pos rfl) (by rw [space_length]; omega) (by omega) fuel tokens
  have same := (lineTokens_tokenize other slash apart fine enough).1
  obtain ⟨rfl, rfl⟩ := Prod.mk.inj (Except.ok.inj (tokens.symm.trans same))
  rw [starts_length, Nat.zero_add] at count
  obtain ⟨_, called, _⟩ := Access.bind_eq_ok.mp run
  rw [execCmd] at called
  obtain ⟨_, bounds, _⟩ := Access.bind_eq_ok.mp called
  have within : 1 ≤ argc ∧ argc ≤ cmdMaxArgs := by
    by_contra outside
    rw [decide_eq_false outside, Access.assert_false] at bounds
    cases bounds
  rw [← count]
  exact ⟨fine, within⟩

theorem find?_accepts {words : List (List UInt8)} {command : CommandDefinition} (member : command ∈ commands)
    (accepts : command.Accepts words) : commands.find? (fun other => other.Accepts words) = some command := by
  have found : (commands.find? (fun other => other.Accepts words)).isSome :=
    List.find?_isSome.mpr ⟨command, member, decide_eq_true accepts⟩
  obtain ⟨other, here⟩ := Option.isSome_iff_exists.mp found
  have accepted : other.Accepts words := by simpa using List.find?_some here
  rw [here, accepts_unique (List.mem_of_find?_eq_some here) member accepted accepts]

theorem find?_none {words : List (List UInt8)} (none_ : ¬ Accepted words) :
    commands.find? (fun other => other.Accepts words) = none := by
  rw [List.find?_eq_none]
  intro command member accepts
  exact none_ ⟨command, member, of_decide_eq_true accepts⟩

theorem parameters_hold {after : Bytes} {pointers : List Nat} {tokens : List (List UInt8)}
    (yields : List.Forall₂ (fun pointer token => after.Holds pointer (token ++ [0])) pointers tokens)
    (few : tokens.length ≤ cmdMaxArgs) :
    List.Forall₂ (fun pointer argument => after.Holds pointer (argument ++ [0]))
      ((((argvOf pointers).drop 1).take 9).take (tokens.length - 1)) tokens.tail := by
  cases yields with
  | nil => exact .nil
  | @cons pointer token pointers arguments _ rest =>
    have same := rest.length_eq
    have small : arguments.length ≤ 9 := by
      rw [List.length_cons, cmdMaxArgs] at few
      omega
    have taken : (((argvOf (pointer :: pointers)).drop 1).take 9).take ((token :: arguments).length - 1) = pointers := by
      rw [List.length_cons, Nat.add_sub_cancel, List.take_take, Nat.min_eq_left small, argvOf, List.cons_append,
        List.drop_succ_cons, List.drop_zero, ← same, List.take_left]
    rw [taken]
    exact rest

theorem Dispatched.accepted_iff {words : List (List UInt8)} {events : List CommandEvent} {after : Bytes}
    (dispatched : Dispatched words events after) : Accepted words ↔ events.filterMap CommandEvent.call ≠ [] := by
  constructor
  next =>
    rintro ⟨command, member, accepts⟩
    obtain ⟨parameters, single, _⟩ := dispatched.called command member accepts
    rw [single]
    exact List.cons_ne_nil _ _
  next =>
    intro some_
    by_contra none_
    exact some_ (dispatched.idle none_)

theorem words_pos {words : List (List UInt8)} {command : CommandDefinition} (accepts : command.Accepts words) :
    0 < words.length := by
  cases words with
  | nil => cases accepts.1
  | cons word words => exact Nat.succ_pos _

theorem executable_of_executed (other : delimiters ≠ 0) (apart : Apart commandLine delimiters line space)
    (slash : line.at_ 0 = 0x2F) (long : 1 < length) (executed : LineExecuted commandLine length delimiters line) :
    Executable line length := by
  obtain ⟨bExit, events, after, returns, dispatched, _⟩ := executed
  have run := returns.choose_spec (max returns.choose (line.length + 1)) (Nat.le_max_left ..)
  obtain ⟨fine, least, few⟩ := tokens_of_run other slash apart long (Nat.lt_of_lt_of_le (Nat.lt_succ_self _) (Nat.le_max_right ..)) run
  refine .inr (.inr ⟨long, fine, least, few, ?_⟩)
  obtain ⟨_, events', after', returns', calls, _⟩ := cmdExecLine_tokens other slash apart long fine least few
  have same := returns.unique returns'.choose_spec
  have same : events = events' := (Prod.mk.inj (Prod.mk.inj same).2).1
  rw [← same] at calls
  by_cases empty : [] ∈ lineTokens line
  next =>
    have fewer := lineWords_fewer slash empty
    have idle : ¬ Accepted (lineWords line) := by
      rintro ⟨command, member, accepts⟩
      obtain ⟨parameters, single, _⟩ := dispatched.called command member accepts
      have positive := words_pos accepts
      rw [single] at calls
      cases found : commands.find? (fun command => command.Accepts (lineTokens line)) with
      | none =>
        rw [found] at calls
        cases calls
      | some other =>
        rw [found] at calls
        have count := (Prod.mk.inj (Prod.mk.inj (List.cons.inj calls).1).2).1
        omega
    refine .inr ⟨?_, idle⟩
    rintro ⟨command, member, accepts⟩
    rw [find?_accepts member accepts, dispatched.idle idle] at calls
    cases calls
  next => exact .inl empty

theorem executed_of_tokens (other : delimiters ≠ 0) (apart : Apart commandLine delimiters line space)
    (slash : line.at_ 0 = 0x2F) (long : 1 < length) (fine : Tokenisable space (behind line))
    (least : 1 ≤ (lineTokens line).length) (few : (lineTokens line).length ≤ cmdMaxArgs)
    (full : [] ∉ lineTokens line ∨ ¬ Accepted (lineTokens line) ∧ ¬ Accepted (lineWords line)) :
    LineExecuted commandLine length delimiters line := by
  obtain ⟨bExit, events, after, returns, calls, yields⟩ := cmdExecLine_tokens other slash apart long fine least few
  refine ⟨bExit, events, after, returns, ?_, fun place outside => yields.frame place ?_⟩
  next =>
    rcases full with full | ⟨noTokens, noWords⟩
    next =>
      rw [lineWords_of_full slash full]
      refine ⟨fun command member accepts => ?_, fun none_ => ?_⟩
      next =>
        rw [find?_accepts member accepts] at calls
        exact ⟨_, calls, parameters_hold yields.tokens few⟩
      next =>
        rw [find?_none none_] at calls
        exact calls
    next =>
      rw [find?_none noTokens] at calls
      exact ⟨fun command member accepts => absurd ⟨command, member, accepts⟩ noWords, fun _ => calls⟩
  next =>
    have size := (line_slash slash).2
    omega

theorem executed_of_event {event : CommandEvent} (silent : event.call = none) (none_ : ¬ Accepted (lineWords line))
    {enough : Nat} (run : forall fuel, enough ≤ fuel ->
      cmdExecLine fuel (texts commandLine delimiters line space) commandLine length delimiters =
        .ok (false, [event], texts commandLine delimiters line space)) :
    LineExecuted commandLine length delimiters line := by
  have calls : [event].filterMap CommandEvent.call = [] := by
    rw [List.filterMap_cons_none silent, List.filterMap_nil]
  exact ⟨false, [event], _, ⟨enough, run⟩,
    ⟨fun command member accepts => absurd ⟨command, member, accepts⟩ none_, fun _ => calls⟩, fun _ _ => rfl⟩

theorem lineExecuted_iff (other : delimiters ≠ 0) (apart : Apart commandLine delimiters line space) :
    LineExecuted commandLine length delimiters line ↔ Executable line length := by
  by_cases slash : line.at_ 0 = 0x2F
  next =>
    rcases Nat.lt_or_ge 1 length with long | short
    next =>
      refine ⟨executable_of_executed other apart slash long, ?_⟩
      rintro (plain | ⟨short, _⟩ | ⟨_, fine, least, few, full⟩)
      next => exact absurd slash plain
      next => omega
      next => exact executed_of_tokens other apart slash long fine least few full
    next =>
      constructor
      next =>
        rintro ⟨bExit, events, after, returns, dispatched, _⟩
        have same := returns.unique (fun fuel (_ : 0 ≤ fuel) => cmdExecLine_short slash short fuel)
        obtain ⟨rfl, rfl⟩ := Prod.mk.inj (Prod.mk.inj same).2
        exact .inr (.inl ⟨short, fun accepted => dispatched.accepted_iff.mp accepted rfl⟩)
      next =>
        rintro (plain | ⟨_, none_⟩ | ⟨long, _⟩)
        next => exact absurd slash plain
        next => exact @executed_of_event _ _ _ _ .warned rfl none_ 0 (fun fuel _ => cmdExecLine_short slash short fuel)
        next => omega
  next =>
    have none_ : ¬ Accepted (lineWords line) := by
      rintro ⟨command, _, accepts⟩
      rw [lineWords, if_neg slash] at accepts
      cases accepts.1
    refine iff_of_true ?_ (.inl slash)
    exact @executed_of_event _ _ _ _ (.printed line) rfl none_ (line.length + 1)
      (fun fuel enough => cmdExecLine_plain slash enough)

end Line

theorem command_line_iff (line : CString) (length : Nat) {commandLine delimiters : Nat} (other : delimiters ≠ 0)
    (apart : Apart commandLine delimiters line space) :
    LineExecuted commandLine length delimiters line ↔ Executable line length := lineExecuted_iff other apart

def lessLine : CString := word ['/', 'l', 'e', 's', 's', ' ', 'a']

theorem command_line_less : LineExecuted 0x1000 7 0x2000 lessLine := by
  have pieces : segments space (behind lessLine) = [[0x6C, 0x65, 0x73, 0x73], [0x61]] := by decide
  have fine : Tokenisable space (behind lessLine) := by
    refine tokenisable_single.mpr ?_
    change forall segment, segment ∈ segments space (behind lessLine) -> segment.length < 2 ^ 32
    rw [pieces]
    decide
  refine (command_line_iff lessLine 7 (by decide) (.inl (by decide))).mpr (.inr (.inr ⟨by decide, fine, ?_⟩))
  rw [lineTokens, pieces]
  exact ⟨by decide, by decide, .inl (by decide)⟩

def longLine : CString :=
  word ['/', '1', ' ', '2', ' ', '3', ' ', '4', ' ', '5', ' ', '6', ' ', '7', ' ', '8', ' ', '9', ' ', '0', ' ', 'a']

theorem command_line_asserts :
    cmdExecLine 100 (texts 0x1000 0x2000 longLine space) 0x1000 longLine.length 0x2000 =
        .error (.assertion "argIndex < CMD_MAX_ARGS") ∧
      ¬ forall line commandLine delimiters, delimiters ≠ 0 -> Apart commandLine delimiters line space ->
        LineExecuted commandLine line.length delimiters line := by
  refine ⟨rfl, fun claimed => ?_⟩
  have executed := claimed longLine 0x1000 0x2000 (by decide) (.inl (by decide))
  have many : (lineTokens longLine).length = 11 := by decide
  rcases (lineExecuted_iff (by decide) (.inl (by decide))).mp executed with plain | ⟨short, _⟩ | ⟨_, _, _, few, _⟩
  next => exact plain (by decide)
  next => exact absurd short (by decide)
  next =>
    rw [many] at few
    exact absurd few (by decide)

end Hal9000.Kernel
