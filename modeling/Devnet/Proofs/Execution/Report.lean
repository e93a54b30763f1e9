import Devnet.Proofs.Deploy.Secrecy
import Devnet.Proofs.Deployment.Address
import Devnet.Proofs.Execution.Exit
import Devnet.Proofs.Execution.Logging
import Devnet.Proofs.Log.Lines

set_option autoImplicit false

namespace Devnet.Command

theorem run_events_cases (command : Command) (machine : Machine) (event : Log.Event)
    (logged : event ∈ (command.run machine).2) : event = command.spawning ∨ ∃ status, event = exited status := by
  cases spawned : command.spawn machine with
  | error reason =>
      rw [command.run_of_failure machine reason spawned] at logged
      exact .inl (List.mem_singleton.mp logged)
  | ok exit =>
      rw [command.run_of_exit machine exit spawned] at logged
      rcases List.mem_cons.mp logged with first | second
      · exact .inl first
      · exact .inr ⟨exit.status, List.mem_singleton.mp second⟩

end Devnet.Command

namespace Devnet.Deploy

open CommandLine
open Deployment (BlamesFirst)
open Felt (PrintedDigits)

-- The reason is told twice: as a part of the error, and then as its cause.
def spawnLine (program : String) (reason : SpawnFailure) : String :=
  "Error: Failed to run the wallet: failed to spawn `" ++ program ++ "`: " ++ reason.message ++ ": " ++ reason.message

def exitLine (status : Nat) : String :=
  if status = 0 then "INFO deploy_udc: Wallet exited. status=exit status: 0"
  else "WARN deploy_udc: Wallet exited with a failure status. status=exit status: " ++ Numeral.decimal status

def faultLine (e : Deployment.InvalidFelt) : String :=
  "WARN deploy_udc: Cannot compute the expected contract address. e=`" ++ e.value ++
    "` is not a valid field element (" ++ e.part.name ++ ")"

-- What is told about the address of a deployment: a text on standard output, or records in the log.
inductive AddressTold (deployment : Deployment) : String → List String → Prop
  | known (address : Felt) (digits : List Char) (computed : deployment.expectedAddress = .ok address)
      (printed : PrintedDigits address digits) :
      AddressTold deployment ("Expected contract address: 0x" ++ String.ofList digits ++ "\n") []
  | unknown (e : Deployment.InvalidFelt) (failed : deployment.expectedAddress = .error e)
      (first : BlamesFirst deployment.texts e) : AddressTold deployment "" [faultLine e]

def closing (arguments : Arguments) : String :=
  "\n" ++ checkHint ++ "\n" ++
    if arguments.classHash = none ∧ arguments.preset = .mockBtc then vaultHint ++ "\n" else ""

structure Unstarted (arguments : Arguments) (reason : SpawnFailure) (execution : Execution) : Prop where
  stdout : execution.stdout = Utf8.encode arguments.announcement
  stderr : execution.stderr = Line.split (spawnLine arguments.command.program reason)
  single : '\n' ∉ arguments.command.program.toList →
    execution.stderr = [spawnLine arguments.command.program reason]

-- The report of a run whose wallet ended. The address is that of the deployment that was sent.
structure Reported (arguments : Arguments) (exit : Exit) (execution : Execution) : Prop where
  started : execution.started = [arguments.command]
  sent : ∃ before after, arguments.command.arguments =
    before ++ ["invoke", deployerAddress, deployEntrypoint] ++ arguments.deployment.calldata ++ "--rpc" :: after
  shown : ∃ addressText faults, AddressTold arguments.deployment addressText faults ∧
    execution.stdout = Utf8.encode (arguments.announcement ++ Utf8.decodeLossy exit.stdout ++ "\n" ++
      Utf8.decodeLossy exit.stderr ++ "\n" ++ addressText ++ closing arguments) ∧
    execution.stderr = (exitLine exit.status :: faults).flatMap Line.split ∧
    ((∀ text ∈ arguments.deployment.texts, '\n' ∉ text.2.toList) →
      execution.stderr = exitLine exit.status :: faults)

section Filter

theorem own_lines (event : Log.Event) (own : event.target = programName) (level : event.level.rank ≤ Log.Level.info.rank) :
    (Effect.log event).errorLines (Log.terseFilter logTargets) = Line.split event.text :=
  if_pos (Log.program_event_admitted logs event own level)

theorem wallet_unlogged (command : Command) (machine : Machine) :
    Effect.logLines (Log.terseFilter logTargets) (command.run machine).2 = [] := by
  have under : Log.libraryName.toList <+: Command.logTarget.toList := by decide
  apply Effect.log_lines_omitted
  intro event logged
  rcases command.run_events_cases machine event logged with rfl | ⟨status, rfl⟩
  · exact Log.library_event_omitted logs _ under (show (3 : Nat) < 4 by decide)
  · exact Log.library_event_omitted logs _ under (show (3 : Nat) < 5 by decide)

end Filter

section Texts

theorem spawn_text (program : String) (reason : SpawnFailure) :
    "Error: " ++ spawnComplaint ⟨program, reason⟩ = spawnLine program reason := by
  have complaint : spawnComplaint ⟨program, reason⟩ =
      "Failed to run the wallet: " ++ ("failed to spawn `" ++ program ++ "`: " ++ reason.message) ++ ": " ++ reason.message :=
    rfl
  unfold spawnLine
  apply String.ext
  simp [complaint]

theorem exit_text (output : WalletOutput) : (exitEvent output).text = exitLine output.status := by
  unfold exitEvent exitLine
  by_cases zero : output.status = 0
  · have success : output.success = true := by rw [WalletOutput.success, zero]; rfl
    rw [if_pos zero, if_pos success, zero]
    decide +kernel
  · have failure : ¬ output.success = true := by simpa [WalletOutput.success] using zero
    rw [if_neg zero, if_neg failure]
    apply String.ext
    simp [Log.Event.text, Log.Field.text, programName, Log.Level.name, String.join, statusText]

def faultEvent (e : Deployment.InvalidFelt) : Log.Event :=
  ⟨.warn, programName, "Cannot compute the expected contract address.", [⟨"e", e.message⟩]⟩

theorem fault_text (e : Deployment.InvalidFelt) : (faultEvent e).text = faultLine e := by
  have message : e.message = "`" ++ e.value ++ "` is not a valid field element (" ++ e.part.name ++ ")" := rfl
  unfold faultLine
  apply String.ext
  simp [faultEvent, message, Log.Event.text, Log.Field.text, programName, Log.Level.name, String.join]

theorem spawn_single (program : String) (reason : SpawnFailure) (whole : '\n' ∉ program.toList) :
    Line.split (spawnLine program reason) = [spawnLine program reason] := by
  have message : Unbroken reason.message := by cases reason <;> decide
  have behind : Unbroken ("`: " ++ reason.message ++ (": " ++ reason.message)) :=
    unbroken_append _ _ (unbroken_append _ _ (by decide) message) (unbroken_append _ _ (by decide) message)
  have parts : spawnLine program reason = "Error: Failed to run the wallet: failed to spawn `" ++ program ++
      ("`: " ++ reason.message ++ (": " ++ reason.message)) := by
    unfold spawnLine
    simp only [String.append_assoc]
  rw [parts]
  exact Line.split_between _ program _ (by decide) behind (by simp) whole

theorem exit_single (status : Nat) : Line.split (exitLine status) = [exitLine status] := by
  apply Line.split_unbroken
  unfold exitLine
  by_cases zero : status = 0
  · rw [if_pos zero]
    decide
  · rw [if_neg zero]
    exact unbroken_append _ _ (by decide) (decimal_unbroken status)

theorem fault_single (e : Deployment.InvalidFelt) (whole : '\n' ∉ e.value.toList) :
    Line.split (faultLine e) = [faultLine e] := by
  have part : Unbroken e.part.name := by cases e.part <;> decide
  have behind : Unbroken ("` is not a valid field element (" ++ e.part.name ++ ")") :=
    unbroken_append _ _ (unbroken_append _ _ (by decide) part) (by decide)
  have parts : faultLine e = "WARN deploy_udc: Cannot compute the expected contract address. e=`" ++ e.value ++
      ("` is not a valid field element (" ++ e.part.name ++ ")") := by
    unfold faultLine
    simp only [String.append_assoc]
  rw [parts]
  exact Line.split_between _ e.value _ (by decide) behind (by simp) whole

end Texts

section Run

variable (machine : Machine) (arguments : Arguments)

theorem calldata_sent : ∃ before after, arguments.command.arguments =
    before ++ ["invoke", deployerAddress, deployEntrypoint] ++ arguments.deployment.calldata ++ "--rpc" :: after := by
  rw [Arguments.command, Wallet.command]
  cases arguments.effectiveLauncher with
  | none => exact ⟨[], _, rfl⟩
  | some launcher => exact ⟨[arguments.walletPath], _, rfl⟩

theorem address_told : ∃ addressText faults, AddressTold arguments.deployment addressText faults ∧
    (addressReport arguments.deployment).printed = Utf8.encode addressText ∧
    (addressReport arguments.deployment).errorLines (Log.terseFilter logTargets) = faults.flatMap Line.split := by
  rw [addressReport]
  cases computed : arguments.deployment.expectedAddress with
  | ok address =>
      obtain ⟨digits, text, printed⟩ := Felt.text_digits address
      have same : "Expected contract address: " ++ address.text ++ "\n" =
          "Expected contract address: 0x" ++ String.ofList digits ++ "\n" := by
        apply String.ext
        simp [text]
      exact ⟨_, _, .known address digits computed printed, congrArg Utf8.encode same, rfl⟩
  | error e =>
      have logged := own_lines (faultEvent e) rfl (show (2 : Nat) ≤ 3 by decide)
      rw [fault_text, ← List.flatMap_singleton Line.split] at logged
      exact ⟨_, _, .unknown e computed (arguments.deployment.error_blames e computed), rfl, logged⟩

theorem token_iff : arguments.deploysToken = true ↔ arguments.classHash = none ∧ arguments.preset = .mockBtc := by
  simp [Arguments.deploysToken]

section Wallet

variable (output : WalletOutput) (addressText : String) (faults : List String)

theorem after_wallet_printed (told : (addressReport arguments.deployment).printed = Utf8.encode addressText) :
    (afterWallet arguments output).flatMap Effect.printed =
      Utf8.encode (output.stdout ++ "\n" ++ output.stderr ++ "\n" ++ addressText ++ closing arguments) := by
  have unlogged : (Effect.log (exitEvent output)).printed = [] := rfl
  have hint : (if arguments.deploysToken then [line vaultHint] else []).flatMap Effect.printed =
      Utf8.encode (if arguments.classHash = none ∧ arguments.preset = .mockBtc then vaultHint ++ "\n" else "") := by
    by_cases token : arguments.deploysToken = true
    · rw [if_pos token, if_pos ((token_iff arguments).mp token), List.flatMap_singleton, printed_line]
    · rw [if_neg token, if_neg fun both => token ((token_iff arguments).mpr both)]
      rfl
  rw [afterWallet, List.flatMap_append, hint]
  simp only [List.flatMap_cons, List.flatMap_nil, List.append_nil, printed_line, told, unlogged, List.nil_append,
    ← Utf8.encode_append]
  congr 1
  unfold closing
  simp only [String.append_assoc, String.empty_append]

theorem after_wallet_logged
    (told : (addressReport arguments.deployment).errorLines (Log.terseFilter logTargets) = faults.flatMap Line.split) :
    (afterWallet arguments output).flatMap (Effect.errorLines (Log.terseFilter logTargets)) =
      (exitLine output.status :: faults).flatMap Line.split := by
  have own : (exitEvent output).target = programName ∧ (exitEvent output).level.rank ≤ Log.Level.info.rank := by
    rw [exitEvent]
    cases output.success with
    | true => exact ⟨rfl, Nat.le_refl _⟩
    | false => exact ⟨rfl, show (2 : Nat) ≤ 3 by decide⟩
  have exited := own_lines (exitEvent output) own.1 own.2
  rw [exit_text] at exited
  have hint : (if arguments.deploysToken then [line vaultHint] else []).flatMap
      (Effect.errorLines (Log.terseFilter logTargets)) = [] := by
    cases arguments.deploysToken <;> rfl
  have unlogged (text : String) : (line text).errorLines (Log.terseFilter logTargets) = [] := rfl
  rw [afterWallet, List.flatMap_append, hint, List.append_nil]
  simp only [List.flatMap_cons, List.flatMap_nil, List.append_nil, unlogged, told, exited, List.nil_append]

end Wallet

theorem terse_stdout :
    (Execution.ofEffects (Log.terseFilter logTargets) (run machine arguments)).stdout =
      Utf8.encode arguments.announcement ++ (ending arguments (arguments.command.run machine).1).flatMap Effect.printed :=
  printed_announced machine arguments

theorem terse_stderr :
    (Execution.ofEffects (Log.terseFilter logTargets) (run machine arguments)).stderr =
      (ending arguments (arguments.command.run machine).1).flatMap (Effect.errorLines (Log.terseFilter logTargets)) := by
  have logged := logged_run machine arguments (Log.terseFilter logTargets)
  rwa [wallet_unlogged, List.nil_append] at logged

theorem unstarted (reason : SpawnFailure) (failed : arguments.command.spawn machine = .error reason) :
    Unstarted arguments reason (.ofEffects (Log.terseFilter logTargets) (run machine arguments)) := by
  have ended := arguments.command.run_of_failure machine reason failed
  have stderr : (Execution.ofEffects (Log.terseFilter logTargets) (run machine arguments)).stderr =
      Line.split (spawnLine arguments.command.program reason) := by
    rw [terse_stderr, ended, ← spawn_text]
    exact List.flatMap_singleton _ _
  refine ⟨?_, stderr, fun whole => stderr.trans (spawn_single _ reason whole)⟩
  rw [terse_stdout, ended]
  exact List.append_nil _

theorem reported (exit : Exit) (ran : arguments.command.spawn machine = .ok exit) :
    Reported arguments exit (.ofEffects (Log.terseFilter logTargets) (run machine arguments)) := by
  have ended := arguments.command.run_of_exit machine exit ran
  obtain ⟨addressText, faults, told, printed, logged⟩ := address_told arguments
  have stderr : (Execution.ofEffects (Log.terseFilter logTargets) (run machine arguments)).stderr =
      (exitLine exit.status :: faults).flatMap Line.split := by
    rw [terse_stderr, ended]
    exact after_wallet_logged arguments _ faults logged
  refine ⟨started_once machine arguments, calldata_sent arguments, addressText, faults, told, ?_, stderr, ?_⟩
  · rw [terse_stdout, ended]
    refine (congrArg (_ ++ ·) (after_wallet_printed arguments _ addressText printed)).trans ?_
    rw [← Utf8.encode_append]
    simp only [String.append_assoc]
  · intro whole
    rw [stderr, List.flatMap_cons, exit_single]
    cases told with
    | known => rfl
    | unknown e failed first =>
        obtain ⟨before, after, same, _, _⟩ := first
        have value := whole (e.part.name, e.value) (same ▸ List.mem_append_right before List.mem_cons_self)
        rw [List.flatMap_singleton, fault_single e value]
        rfl

end Run

-- Where the wallet does not start, the line on standard error tells the reason twice.
theorem run_reported (machine : Machine) (environment : Environment) (words : List String) (arguments : Arguments)
    (accepted : Arguments.parse environment words = .ok arguments)
    (terse : ∀ word ∈ words, interface.mentions .verbose word = false)
    (unset : environment Variable.logFilter = none) :
    (∀ reason, arguments.command.spawn machine = .error reason →
      Unstarted arguments reason (execute machine environment words)) ∧
    ∀ exit, arguments.command.spawn machine = .ok exit → Reported arguments exit (execute machine environment words) := by
  rw [execute, (lawful machine).execute_tersely environment words arguments accepted terse unset]
  exact ⟨unstarted machine arguments, reported machine arguments⟩

def asked (walletPath salt : String) (verbosity : Log.Threshold) : Arguments :=
  { defaultDeployment verbosity with walletPath, salt }

def failingWallet : Machine := Script.machine ⟨false, [0x6F, 0xFF], [0x65], 1, 7⟩

theorem run_reported_failing :
    (execute failingWallet (fun _ => none) ["--wallet-path=fakewallet", "--salt=0x", "-q"]).stdout =
      Utf8.encode ((asked "fakewallet" "0x" .off).announcement ++ "o\uFFFD" ++ "\n" ++ "e" ++ "\n" ++
        closing (asked "fakewallet" "0x" .off)) ∧
    (execute failingWallet (fun _ => none) ["--wallet-path=fakewallet", "--salt=0x", "-q"]).stderr =
      [exitLine 7, faultLine ⟨.salt, "0x"⟩] ∧
    (execute failingWallet (fun _ => none) ["--wallet-path=missing"]).stderr = [spawnLine "missing" .notFound] := by
  have accepted : Arguments.parse (fun _ => none) ["--wallet-path=fakewallet", "--salt=0x", "-q"] =
      .ok (asked "fakewallet" "0x" .off) := by decide +kernel
  have ran : (asked "fakewallet" "0x" .off).command.spawn failingWallet = .ok ⟨7, [0x6F, 0xFF], [0x65]⟩ := by
    decide +kernel
  have fault : (asked "fakewallet" "0x" .off).deployment.expectedAddress = .error ⟨.salt, "0x"⟩ := by decide +kernel
  have whole : ∀ text ∈ (asked "fakewallet" "0x" .off).deployment.texts, '\n' ∉ text.2.toList := by
    decide +kernel
  have decoded : Utf8.decodeLossy [0x6F, 0xFF] = "o\uFFFD" ∧ Utf8.decodeLossy [0x65] = "e" := by decide +kernel
  have missing : Arguments.parse (fun _ => none) ["--wallet-path=missing"] = .ok (asked "missing" "0x0" (.upTo .error)) := by
    decide +kernel
  have unspawned : (asked "missing" "0x0" (.upTo .error)).command.spawn failingWallet = .error .notFound := by
    decide +kernel
  have unstarted := (run_reported failingWallet _ _ _ missing (by decide +kernel) rfl).1 .notFound unspawned
  obtain ⟨addressText, faults, told, stdout, _, stderr⟩ :=
    ((run_reported failingWallet _ _ _ accepted (by decide +kernel) rfl).2 _ ran).shown
  refine ⟨?_, ?_, unstarted.single (show '\n' ∉ "missing".toList by decide)⟩
  · cases told with
    | known address digits computed printed => cases fault.symm.trans computed
    | unknown e blamed first => rw [stdout, decoded.1, decoded.2, String.append_empty]
  · cases told with
    | known address digits computed printed => cases fault.symm.trans computed
    | unknown e blamed first => rw [stderr whole, Except.error.inj (blamed.symm.trans fault)]

theorem spawn_reason_told_twice :
    (execute (Script.machine .silent) (fun _ => none) ["--wallet-path", "/no/such/wallet"]).stderr =
      ["Error: Failed to run the wallet: failed to spawn `/no/such/wallet`: " ++
        "No such file or directory (os error 2): No such file or directory (os error 2)"] ∧
    (execute (Script.machine .silent) (fun _ => none) ["--wallet-path", "/no/such/wallet"]).stderr ≠
      ["Error: Failed to run the wallet: failed to spawn `/no/such/wallet`: No such file or directory (os error 2)"] := by
  have accepted : Arguments.parse (fun _ => none) ["--wallet-path", "/no/such/wallet"] =
      .ok (asked "/no/such/wallet" "0x0" (.upTo .error)) := by decide +kernel
  have failed : (asked "/no/such/wallet" "0x0" (.upTo .error)).command.spawn (Script.machine .silent) =
      .error .notFound := by decide +kernel
  have executed := (lawful (Script.machine .silent)).execute_tersely (fun _ => none) ["--wallet-path", "/no/such/wallet"] _
    accepted (by decide +kernel) rfl
  have told := (unstarted _ _ .notFound failed).single (show '\n' ∉ "/no/such/wallet".toList by decide)
  rw [execute, (congrArg Execution.stderr executed).trans told]
  constructor <;> decide +kernel

end Devnet.Deploy
