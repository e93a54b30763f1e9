import Devnet.Proofs.CommandLine.Conflicts
import Devnet.Proofs.Execution.Defaults

set_option autoImplicit false

namespace Devnet.Deploy

open CommandLine

-- What the flag promises for a command line that is accepted, as `arguments`, without the variable: it is
-- accepted with the same arguments, and the wallet itself is started.
def LauncherDisabled (environment : Environment) (words : List String) (arguments : Arguments) : Prop :=
  ∃ others, Arguments.parse environment words = .ok others ∧ { others with launcher := arguments.launcher } = arguments ∧
    others.effectiveLauncher = none ∧ others.command.program = others.walletPath

theorem launcher_excludes (x : Opt) (clash : interface.areExclusive x .launcher = true) : x = .noLauncher := by
  cases x <;> first | rfl | cases clash

theorem flag_mentions : interface.mentions .noLauncher "--no-launcher" = true := by decide

section Flagged

variable (environment : Environment) (words : List String) (arguments : Arguments) (flagged : "--no-launcher" ∈ words)
include flagged

theorem flag_read (accepted : Arguments.parse environment words = .ok arguments) : arguments.noLauncher = true := by
  obtain ⟨found, parsed, read⟩ := (bind_ok_iff (interface.parse environment words) Arguments.ofMatches arguments).mp accepted
  have given := (interface.parsed_given_iff environment words found .noLauncher rfl parsed).mpr ⟨_, flagged, flag_mentions⟩
  simp only [Arguments.ofMatches] at read
  split at read
  · cases read
  · rw [← Except.ok.inj read]
    exact given

theorem flag_disables (accepted : Arguments.parse environment words = .ok arguments) :
    arguments.effectiveLauncher = none ∧ arguments.command.program = arguments.walletPath := by
  have disabled : arguments.effectiveLauncher = none := by
    rw [Arguments.effectiveLauncher, if_pos (flag_read environment words arguments flagged accepted)]
  refine ⟨disabled, ?_⟩
  rw [Arguments.command, disabled]
  rfl

theorem flag_conflicts (unnamed : ∀ word ∈ words, interface.mentions .launcher word = false)
    (accepted : Arguments.parse (environment.assign Variable.launcher none) words = .ok arguments) (value : String) :
    Arguments.parse (environment.assign Variable.launcher (some value)) words =
      .error (.rejected (.conflict "--no-launcher" "--launcher <PROGRAM>")) := by
  obtain ⟨found, parsed, _⟩ := (bind_ok_iff (interface.parse _ words) Arguments.ofMatches arguments).mp accepted
  have backed := backed (.launcher, Variable.launcher) (by decide)
  have refused := Interface.variable_conflicts backed environment words found .noLauncher value
    ⟨_, flagged, flag_mentions⟩ unnamed parsed rfl rfl (by decide) launcher_excludes
  exact congrArg (·.bind Arguments.ofMatches) refused

end Flagged

-- The flag keeps its promise exactly where there is nothing to disable.
theorem no_launcher_needs_unset_variable (environment : Environment) (words : List String) (arguments : Arguments)
    (flagged : "--no-launcher" ∈ words) (unnamed : ∀ word ∈ words, interface.mentions .launcher word = false)
    (accepted : Arguments.parse (environment.assign Variable.launcher none) words = .ok arguments) :
    LauncherDisabled (environment.assign Variable.launcher none) words arguments ∧
    (∀ value, Arguments.parse (environment.assign Variable.launcher (some value)) words =
      .error (.rejected (.conflict "--no-launcher" "--launcher <PROGRAM>"))) ∧
    (LauncherDisabled environment words arguments ↔ environment Variable.launcher = none) := by
  have disabled := flag_disables _ words arguments flagged accepted
  have conflicts := flag_conflicts environment words arguments flagged unnamed accepted
  have unset : LauncherDisabled (environment.assign Variable.launcher none) words arguments :=
    ⟨arguments, accepted, rfl, disabled⟩
  refine ⟨unset, conflicts, ?_, ?_⟩
  · rintro ⟨others, read, _⟩
    cases set : environment Variable.launcher with
    | none => rfl
    | some value =>
        have refused := conflicts value
        rw [← set, assign_same] at refused
        cases refused.symm.trans read
  · intro missing
    rw [← missing, assign_same] at unset
    exact unset

def launched : Environment := fun name => if name = Variable.launcher then some "wsl" else none

def directWords : List String := ["--no-launcher", "--constructor-calldata", "7", "--wallet-path=fakewallet"]

def directDeployment : Arguments :=
  ⟨⟨"http", some ⟨"", "", .ipv4 2130706433, some 5060⟩, "/", none, none⟩, Default.accountAddress, Default.privateKey,
    "fakewallet", none, true, .mockBtc, none, Default.salt, some ["7"], .upTo .error⟩

theorem no_launcher_needs_unset_variable_direct :
    LauncherDisabled (launched.assign Variable.launcher none) directWords directDeployment ∧
    Arguments.parse (launched.assign Variable.launcher (some "")) directWords =
      .error (.rejected (.conflict "--no-launcher" "--launcher <PROGRAM>")) ∧
    ¬ LauncherDisabled launched directWords directDeployment := by
  have accepted : Arguments.parse (launched.assign Variable.launcher none) directWords = .ok directDeployment := by
    decide +kernel
  obtain ⟨unset, conflicts, exactly⟩ :=
    no_launcher_needs_unset_variable launched directWords directDeployment (by decide) (by decide) accepted
  refine ⟨unset, conflicts "", fun kept => ?_⟩
  cases exactly.mp kept

theorem launcher_variable_defeats_flag :
    (∃ arguments, Arguments.parse (fun _ => none) ["--no-launcher"] = .ok arguments) ∧
    Arguments.parse launched ["--no-launcher"] =
      .error (.rejected (.conflict "--no-launcher" "--launcher <PROGRAM>")) := by
  refine ⟨⟨⟨⟨"http", some ⟨"", "", .ipv4 2130706433, some 5060⟩, "/", none, none⟩, Default.accountAddress,
    Default.privateKey, Default.walletPath, none, true, .mockBtc, none, Default.salt, none, .upTo .error⟩, ?_⟩, ?_⟩
  · decide +kernel
  · decide +kernel

end Devnet.Deploy
