import Devnet.Deploy.Run
import Devnet.Discover.Run
import Devnet.Http.Scripted
import Devnet.Proofs.Execution.Defaults
import Devnet.Proofs.Log.Details
import Mathlib.Data.List.Basic

set_option autoImplicit false

namespace Devnet

open CommandLine

namespace Execution

structure SameBesideLog (a b : Execution) : Prop where
  code : a.code = b.code
  stdout : a.stdout = b.stdout
  requests : a.requests = b.requests
  started : a.started = b.started

theorem filter_unseen (filter other : Log.Filter) (effects : List Effect) :
    SameBesideLog (ofEffects filter effects) (ofEffects other effects) :=
  ⟨rfl, rfl, rfl, rfl⟩

end Execution

namespace Program

variable {ι α : Type} [DecidableEq ι]

theorem execute_accepted (program : Program ι α) (environment : Environment) (words : List String) (arguments : α)
    (accepted : program.parse environment words = .ok arguments) :
    program.execute environment words =
      .ofEffects
        (Log.filterInForce (environment Variable.logFilter) (program.verbosity arguments) program.logTargets)
        (program.run arguments) := by
  rw [execute, accepted]

-- What the programs have in common: their names tell their events apart, and no run depends on the verbosity.
structure Lawful (program : Program ι α) (verbose quiet : ι) (leveled : α → Log.Threshold → α) : Prop
    extends Reader.Lawful program.toReader verbose quiet leveled where
  logs : Log.IsProgram program.name program.logTargets
  runs : ∀ arguments threshold, program.run (leveled arguments threshold) = program.run arguments

namespace Lawful

variable {program : Program ι α} {verbose quiet : ι} {leveled : α → Log.Threshold → α}
  (lawful : program.Lawful verbose quiet leveled)
include lawful

theorem execute_tersely (environment : Environment) (words : List String) (arguments : α)
    (accepted : program.parse environment words = .ok arguments)
    (terse : ∀ word ∈ words, program.interface.mentions verbose word = false)
    (unset : environment Variable.logFilter = none) :
    program.execute environment words = .ofEffects (Log.terseFilter program.logTargets) (program.run arguments) := by
  have quiet := lawful.terse_verbosity environment words arguments accepted terse
  rw [program.execute_accepted environment words arguments accepted, unset, Log.terse_in_force _ _ quiet]

theorem run_same_beside_verbosity (a b : α) (same : leveled a (program.verbosity b) = b) :
    program.run a = program.run b := by
  rw [← lawful.runs a (program.verbosity b), same]

theorem same_beside_log (environment other : Environment) (words otherWords : List String) (a b : α)
    (accepted : program.parse environment words = .ok a) (otherAccepted : program.parse other otherWords = .ok b)
    (same : leveled a (program.verbosity b) = b) :
    (program.execute environment words).SameBesideLog (program.execute other otherWords) := by
  rw [program.execute_accepted environment words a accepted, program.execute_accepted other otherWords b otherAccepted,
    lawful.run_same_beside_verbosity a b same]
  exact Execution.filter_unseen _ _ _

end Lawful
end Program

namespace Deploy

theorem logs : Log.IsProgram programName logTargets :=
  Log.program_of_name programName (by decide +kernel) (by decide) (by decide)

theorem lawful (machine : Machine) : (program machine).Lawful .verbose .quiet fun arguments threshold =>
    { arguments with verbosity := threshold } where
  toLawful := reader_lawful
  logs := logs
  runs := fun _ _ => rfl

end Deploy

namespace Discover

theorem logs : Log.IsProgram programName logTargets :=
  Log.program_of_name programName (by decide +kernel) (by decide) (by decide)

theorem lawful (client : Http.Client) (stdout : Sink) :
    (program client stdout).Lawful .verbose .quiet fun arguments threshold =>
      { arguments with verbosity := threshold } where
  toLawful := reader_lawful
  logs := logs
  runs := fun _ _ => rfl

end Discover

theorem logging_changes_no_result (machine : Machine) (client : Http.Client) (stdout : Sink)
    (environment other : Environment) (words otherWords : List String) :
    (∀ a b, Deploy.Arguments.parse environment words = .ok a → Deploy.Arguments.parse other otherWords = .ok b →
      { a with verbosity := b.verbosity } = b →
        (Deploy.execute machine environment words).SameBesideLog (Deploy.execute machine other otherWords)) ∧
    ∀ a b, Discover.Arguments.parse environment words = .ok a → Discover.Arguments.parse other otherWords = .ok b →
      { a with verbosity := b.verbosity } = b →
        (Discover.execute client stdout environment words).SameBesideLog
          (Discover.execute client stdout other otherWords) :=
  ⟨(Deploy.lawful machine).same_beside_log environment other words otherWords,
    (Discover.lawful client stdout).same_beside_log environment other words otherWords⟩

def filtering (filter : Option String) : Environment := fun name =>
  if name = Variable.logFilter then filter else none

def defaultUrl : Url := ⟨"http", some ⟨"", "", .ipv4 2130706433, some 5060⟩, "/", none, none⟩

def defaultDeployment (verbosity : Log.Threshold) : Deploy.Arguments :=
  ⟨defaultUrl, Default.accountAddress, Default.privateKey, Default.walletPath, none, false, .mockBtc, none,
    Default.salt, none, verbosity⟩

theorem logging_changes_no_result_loud :
    (Deploy.execute (fun _ => .error .notFound) (filtering (some "trace")) ["-q"]).SameBesideLog
      (Deploy.execute (fun _ => .error .notFound) (filtering (some "[")) ["-vv", "-v"]) ∧
    (Discover.execute (.scripted .unreachable) (.limited 9 .noSpace) (filtering (some "trace")) ["-q"]).SameBesideLog
      (Discover.execute (.scripted .unreachable) (.limited 9 .noSpace) (filtering (some "[")) ["-vv", "-v"]) := by
  have quiet : Deploy.Arguments.parse (filtering (some "trace")) ["-q"] = .ok (defaultDeployment .off) := by
    decide +kernel
  have loud : Deploy.Arguments.parse (filtering (some "[")) ["-vv", "-v"] =
      .ok (defaultDeployment (.upTo .debug)) := by
    decide +kernel
  have quietly : Discover.Arguments.parse (filtering (some "trace")) ["-q"] = .ok ⟨defaultUrl, none, false, .off⟩ := by
    decide +kernel
  have loudly : Discover.Arguments.parse (filtering (some "[")) ["-vv", "-v"] =
      .ok ⟨defaultUrl, none, false, .upTo .debug⟩ := by
    decide +kernel
  have same := logging_changes_no_result (fun _ => .error .notFound) (.scripted .unreachable) (.limited 9 .noSpace)
    (filtering (some "trace")) (filtering (some "[")) ["-q"] ["-vv", "-v"]
  exact ⟨same.1 _ _ quiet loud rfl, same.2 _ _ quietly loudly rfl⟩

end Devnet
