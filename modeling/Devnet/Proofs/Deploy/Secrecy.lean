import Devnet.Proofs.Execution.Exit
import Devnet.Wallet.Script
import Mathlib.Data.List.Basic

set_option autoImplicit false

namespace Devnet

open CommandLine

namespace Command

def withLast (command : Command) (text : String) : Command :=
  { command with arguments := command.arguments ++ [text] }

theorem text_with_last (command : Command) (text : String) :
    (command.withLast text).text = command.text ++ " " ++ text := by
  apply String.ext
  simp [Command.text, withLast, String.toList_join]

theorem nul_in_last (command : Command) (text : String) (plain : '\x00' ∉ text.toList) :
    (command.withLast text).hasNul = command.hasNul := by
  have clean : text.toList.contains '\x00' = false := by simpa using plain
  simp only [hasNul, withLast, List.any_cons, List.any_append, clean, List.any_nil, Bool.or_false]

theorem run_alike (a b : Command) (machine : Machine) (programs : a.program = b.program)
    (nuls : a.hasNul = b.hasNul) (answers : machine a = machine b) : a.run machine = b.run machine := by
  have spawned : a.spawn machine = b.spawn machine := by rw [spawn, spawn, nuls, answers]
  have announced : a.spawning = b.spawning := by rw [spawning, spawning, programs]
  rw [run, run, spawned, announced, programs]

end Command

-- What comes of starting the program is the same for all the arguments among these.
def Machine.IgnoresArguments (machine : Machine) (program : String) (among : List String → Prop) : Prop :=
  ∀ first second, among first → among second → machine ⟨program, first⟩ = machine ⟨program, second⟩

namespace Script

structure IsMute (script : Script) (program : String) : Prop where
  scripted : script.echoArguments = false
  unnamed : program ≠ "echo"
  unreached : Files.target program ≠ .program "echo"

theorem system_exit_mute (name : String) (mute : name ≠ "echo") (first second : List String) :
    systemExit name first = systemExit name second := by
  simp only [systemExit, if_neg mute]

theorem started_alike (program : String) (first second : List String) (exit other : Exit)
    (alike : fits first = fits second) (same : exit = other) :
    started ⟨program, first⟩ exit = started ⟨program, second⟩ other := by
  rw [started, started, alike, same]

theorem machine_ignores_arguments (script : Script) (program : String) (mute : script.IsMute program) (verdict : Bool) :
    script.machine.IgnoresArguments program fun arguments => fits arguments = verdict := by
  intro first second firstFits secondFits
  have alike := firstFits.trans secondFits.symm
  have scripted : script.exit first = script.exit second := by simp only [exit, mute.scripted, Bool.false_eq_true, if_false]
  have start (exits : List String → Exit) (same : exits first = exits second) :=
    started_alike program first second _ _ alike same
  rw [machine, target, target]
  by_cases slashed : program.toList.contains '/' = true
  · rw [if_pos slashed, if_pos slashed]
    cases reached : Files.target program with
    | program name =>
        have other : name ≠ "echo" := fun same => mute.unreached (reached.trans (congrArg _ same))
        exact start (systemExit name) (system_exit_mute name other first second)
    | _ => rfl
  · rw [if_neg slashed, if_neg slashed]
    by_cases listed : program ∈ names
    · rw [if_pos listed, if_pos listed]
      exact start script.exit scripted
    · rw [if_neg listed, if_neg listed]
      by_cases system : program ∈ Files.systemPrograms
      · rw [if_pos system, if_pos system]
        exact start (systemExit program) (system_exit_mute program mute.unnamed first second)
      · rw [if_neg system, if_neg system]

end Script

namespace Deploy

theorem printed_line (text : String) : (line text).printed = Utf8.encode (text ++ "\n") := rfl

def PrintsText (effects : List Effect) : Prop := ∃ text, effects.flatMap Effect.printed = Utf8.encode text

theorem prints_nothing : PrintsText [] := ⟨"", rfl⟩

theorem prints_line (text : String) (effects : List Effect) (rest : PrintsText effects) :
    PrintsText (line text :: effects) := by
  obtain ⟨more, printed⟩ := rest
  refine ⟨text ++ "\n" ++ more, ?_⟩
  rw [List.flatMap_cons, printed_line, printed, Utf8.encode_append _ more]

theorem prints_silent (effect : Effect) (effects : List Effect) (silent : effect.printed = [])
    (rest : PrintsText effects) : PrintsText (effect :: effects) := by
  obtain ⟨more, printed⟩ := rest
  refine ⟨more, ?_⟩
  rw [List.flatMap_cons, silent, printed, List.nil_append]

theorem after_wallet_prints (arguments : Arguments) (output : WalletOutput) :
    PrintsText (afterWallet arguments output) := by
  have hints : PrintsText ([line "", line checkHint] ++ if arguments.deploysToken then [line vaultHint] else []) := by
    apply prints_line
    apply prints_line
    by_cases token : arguments.deploysToken = true
    · rw [if_pos token]
      exact prints_line _ _ prints_nothing
    · rw [if_neg token]
      exact prints_nothing
  apply prints_line
  apply prints_line
  apply prints_silent _ _ rfl
  rw [addressReport]
  cases arguments.deployment.expectedAddress with
  | ok address => exact prints_line _ _ hints
  | error e => exact prints_silent _ _ rfl hints

def ending (arguments : Arguments) : Except SpawnError WalletOutput → List Effect
  | .ok output => afterWallet arguments output
  | .error e => [.complain (spawnComplaint e)]

theorem ending_prints (arguments : Arguments) (result : Except SpawnError WalletOutput) :
    PrintsText (ending arguments result) := by
  cases result with
  | ok output => exact after_wallet_prints arguments output
  | error e => exact prints_silent _ _ rfl prints_nothing

def Arguments.keyless (arguments : Arguments) : Command :=
  let call := ["invoke", deployerAddress, deployEntrypoint] ++ arguments.deployment.calldata ++
    ["--rpc", arguments.rpcUrl.text, "--account", arguments.accountAddress, "--private-key"]
  match arguments.effectiveLauncher with
  | some launcher => ⟨launcher, arguments.walletPath :: call⟩
  | none => ⟨arguments.walletPath, call⟩

theorem command_keyed (arguments : Arguments) :
    arguments.command = arguments.keyless.withLast arguments.privateKey := by
  rw [Arguments.keyless, Arguments.command, Wallet.command]
  cases arguments.effectiveLauncher <;> simp [Invoke.arguments, Deployment.invoke, Command.withLast]

def Arguments.announcement (arguments : Arguments) : String :=
  "Deploying " ++ arguments.targetName ++ "...\nRunning: " ++ arguments.command.text ++ "\n"

def Arguments.beforeKey (arguments : Arguments) : String :=
  "Deploying " ++ arguments.targetName ++ "...\nRunning: " ++ arguments.keyless.text ++ " "

section Run

variable (machine : Machine) (arguments : Arguments)

theorem run_parts :
    run machine arguments =
      [line s!"Deploying {arguments.targetName}...", line s!"Running: {arguments.command.text}",
        .start arguments.command] ++
        (arguments.command.run machine).2.map Effect.log ++
        ending arguments (arguments.command.run machine).1 := by
  rw [run]
  cases ran : arguments.command.run machine with
  | mk result events => cases result <;> rfl

theorem command_shown : arguments.command.text = arguments.keyless.text ++ " " ++ arguments.privateKey := by
  rw [command_keyed, Command.text_with_last]

theorem printed_announced :
    (run machine arguments).flatMap Effect.printed =
      Utf8.encode arguments.announcement ++ (ending arguments (arguments.command.run machine).1).flatMap Effect.printed := by
  have lines : [line s!"Deploying {arguments.targetName}...", line s!"Running: {arguments.command.text}",
      .start arguments.command].flatMap Effect.printed =
        Utf8.encode ("Deploying " ++ arguments.targetName ++ "..." ++ "\n" ++
          ("Running: " ++ arguments.command.text ++ "\n")) := by
    rw [Utf8.encode_append _ ("Running: " ++ arguments.command.text ++ "\n")]
    exact congrArg (_ ++ ·) (List.append_nil _)
  have joined : "Deploying " ++ arguments.targetName ++ "..." ++ "\n" ++ ("Running: " ++ arguments.command.text ++ "\n") =
      arguments.announcement := by
    apply String.ext
    rw [Arguments.announcement]
    simp
  rw [run_parts, List.flatMap_append, List.flatMap_append, Effect.printed_of_logs, List.append_nil, lines, joined]

theorem printed_run :
    (run machine arguments).flatMap Effect.printed =
      Utf8.encode (arguments.beforeKey ++ arguments.privateKey ++ "\n") ++
        (ending arguments (arguments.command.run machine).1).flatMap Effect.printed := by
  have keyed : arguments.announcement = arguments.beforeKey ++ arguments.privateKey ++ "\n" := by
    apply String.ext
    rw [Arguments.announcement, command_shown, Arguments.beforeKey]
    simp
  rw [printed_announced, keyed]

theorem logged_run (filter : Log.Filter) :
    (run machine arguments).flatMap (Effect.errorLines filter) =
      Effect.logLines filter (arguments.command.run machine).2 ++
        (ending arguments (arguments.command.run machine).1).flatMap (Effect.errorLines filter) := by
  rw [run_parts, List.flatMap_append, List.flatMap_append, Effect.error_lines_of_logs]
  rfl

end Run

section Pair

variable (machine : Machine) (a b : Arguments) (same : { a with privateKey := b.privateKey } = b)
include same

theorem keyless_same : b.keyless = a.keyless := by
  rw [← same]
  rfl

theorem before_key_same : b.beforeKey = a.beforeKey := by
  rw [← same]
  rfl

theorem ending_same (result : Except SpawnError WalletOutput) : ending b result = ending a result := by
  rw [← same]
  cases result <;> rfl

theorem programs_same : b.command.program = a.command.program := by
  rw [command_keyed, command_keyed, keyless_same a b same]
  rfl

theorem run_same (plain : '\x00' ∉ a.privateKey.toList) (otherPlain : '\x00' ∉ b.privateKey.toList)
    (answers : machine a.command = machine b.command) : b.command.run machine = a.command.run machine := by
  apply Command.run_alike b.command a.command machine (programs_same a b same)
  · rw [command_keyed, command_keyed, keyless_same a b same, Command.nul_in_last _ _ plain,
      Command.nul_in_last _ _ otherPlain]
  · exact answers.symm

-- Keys that can be handed over leave the arguments as they are: either all of them fit or some other one does not.
theorem fits_same (fits : a.privateKey.utf8ByteSize + 1 ≤ Script.argumentBound)
    (otherFits : b.privateKey.utf8ByteSize + 1 ≤ Script.argumentBound) :
    Script.fits b.command.arguments = Script.fits a.command.arguments := by
  rw [command_keyed, command_keyed, keyless_same a b same]
  simp only [Script.fits, Command.withLast, List.all_append, List.all_cons, List.all_nil, fits, otherFits]

theorem script_ignores_key (script : Script) (mute : script.IsMute a.command.program)
    (fits : a.privateKey.utf8ByteSize + 1 ≤ Script.argumentBound)
    (otherFits : b.privateKey.utf8ByteSize + 1 ≤ Script.argumentBound) :
    ∃ among, script.machine.IgnoresArguments a.command.program among ∧ among a.command.arguments ∧
      among b.command.arguments :=
  ⟨_, script.machine_ignores_arguments a.command.program mute (Script.fits a.command.arguments), rfl,
    fits_same a b same fits otherFits⟩

end Pair

-- The wallet, or the launcher, takes no notice of its arguments, those of the two commands among them.
theorem key_stays_in_command (machine : Machine) (environment other : Environment) (words otherWords : List String)
    (a b : Arguments) (accepted : Arguments.parse environment words = .ok a)
    (otherAccepted : Arguments.parse other otherWords = .ok b) (same : { a with privateKey := b.privateKey } = b)
    (filters : environment Variable.logFilter = other Variable.logFilter)
    (plain : '\x00' ∉ a.privateKey.toList) (otherPlain : '\x00' ∉ b.privateKey.toList)
    (among : List String → Prop) (ignores : machine.IgnoresArguments a.command.program among)
    (first : among a.command.arguments) (second : among b.command.arguments) :
    (execute machine environment words).code = (execute machine other otherWords).code ∧
    (execute machine environment words).stderr = (execute machine other otherWords).stderr ∧
    ∃ before after : String,
      (execute machine environment words).stdout = (before ++ a.privateKey ++ after).toUTF8.data.toList ∧
      (execute machine other otherWords).stdout = (before ++ b.privateKey ++ after).toUTF8.data.toList := by
  have answers : machine a.command = machine b.command := by
    rw [show b.command = ⟨a.command.program, b.command.arguments⟩ by rw [← programs_same a b same]]
    exact ignores _ _ first second
  have ran := run_same machine a b same plain otherPlain answers
  have verbosities : (program machine).verbosity b = (program machine).verbosity a := by
    rw [← same]
    rfl
  have executed := (program machine).execute_accepted environment words a accepted
  have otherExecuted := (program machine).execute_accepted other otherWords b otherAccepted
  obtain ⟨after, ends⟩ := ending_prints a (a.command.run machine).1
  have behind (front : String) : front ++ "\n" ++ after = front ++ ("\n" ++ after) := String.append_assoc
  rw [execute, executed, otherExecuted]
  refine ⟨?_, ?_, a.beforeKey, "\n" ++ after, ?_, ?_⟩
  · exact (if_neg (run_ends machine a)).trans (if_neg (run_ends machine b)).symm
  · change (run machine a).flatMap _ = (run machine b).flatMap _
    rw [logged_run, logged_run, ran, ending_same a b same, filters, verbosities]
  · change (run machine a).flatMap _ = _
    rw [printed_run, ends, ← Utf8.encode_append, behind, Utf8.encode_standard]
  · change (run machine b).flatMap _ = _
    rw [printed_run, ran, ending_same a b same, before_key_same a b same, ends, ← Utf8.encode_append, behind,
      Utf8.encode_standard]

def tracing (key : Option String) : Environment := fun name =>
  if name = Variable.logFilter then some "trace" else if name = Variable.privateKey then key else none

def keyed (key : String) : Arguments :=
  ⟨⟨"http", some ⟨"", "", .ipv4 2130706433, some 5060⟩, "/", none, none⟩, Default.accountAddress, key, "fakewallet",
    none, false, .mockBtc, some "x", "0x0", none, .upTo .error⟩

def failing : Script := ⟨false, [0x6F, 0xFF], [0x65], 2, 7⟩

theorem key_stays_in_command_failing :
    let first := execute failing.machine (tracing none) ["--class-hash=x", "--wallet-path=fakewallet", "--private-key=0x1"]
    let second := execute failing.machine (tracing (some "a b")) ["--class-hash=x", "--wallet-path=fakewallet"]
    first.code = second.code ∧ first.stderr = second.stderr ∧
      ∃ before after : String,
        first.stdout = (before ++ "0x1" ++ after).toUTF8.data.toList ∧
        second.stdout = (before ++ "a b" ++ after).toUTF8.data.toList := by
  have first : Arguments.parse (tracing none)
      ["--class-hash=x", "--wallet-path=fakewallet", "--private-key=0x1"] = .ok (keyed "0x1") := by decide +kernel
  have second : Arguments.parse (tracing (some "a b"))
      ["--class-hash=x", "--wallet-path=fakewallet"] = .ok (keyed "a b") := by decide +kernel
  have filters : tracing none Variable.logFilter = tracing (some "a b") Variable.logFilter := by decide
  have mute : failing.IsMute (keyed "0x1").command.program := ⟨rfl, by decide +kernel, by decide +kernel⟩
  obtain ⟨among, ignores, firstAmong, secondAmong⟩ :=
    script_ignores_key (keyed "0x1") (keyed "a b") rfl failing mute (by decide) (by decide)
  exact key_stays_in_command _ _ _ _ _ (keyed "0x1") (keyed "a b") first second rfl filters (by decide) (by decide)
    among ignores firstAmong secondAmong

end Deploy

end Devnet
