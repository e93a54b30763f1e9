import Devnet.Proofs.CommandLine.Counted
import Devnet.Proofs.Execution.Defaults
import Devnet.Proofs.Execution.Discovery
import Devnet.Proofs.Execution.Report
import Devnet.Proofs.Log.Details

set_option autoImplicit false

namespace Devnet

open CommandLine

-- A command line that decides about logging alone, and that has no flag for less of it.
structure Unmuted {ι : Type} [DecidableEq ι] (interface : Interface ι) (quiet : ι) (environment : Environment)
    (line : List (WordGroup ι)) (words : List String) : Prop where
  spells : interface.Spells line words
  unset : environment Variable.logFilter = none
  unmuted : interface.occurrences line quiet = []

-- What the flags for more are to the lines of a program on standard error. They may stand anywhere, and any
-- number of them may be a group.
structure Louder {ι α : Type} [DecidableEq ι] (interface : Interface ι) (verbose quiet : ι)
    (parse : Environment → List String → Except Stop α) (run : α → List Effect)
    (execute : Environment → List String → Execution) : Prop where
  spelled : ∀ environment words arguments, parse environment words = .ok arguments →
    ∃ line, interface.Spells line words
  told : ∀ environment words arguments line, parse environment words = .ok arguments →
    Unmuted interface quiet environment line words →
      (execute environment words).stderr =
        (run arguments).flatMap (Effect.linesUnder (interface.occurrences line verbose).length)
  grows : ∀ environment words arguments line other otherWords, parse environment words = .ok arguments →
    Unmuted interface quiet environment line words → interface.Spells other otherWords →
      (∀ option, option ≠ verbose → interface.occurrences other option = interface.occurrences line option) →
      (interface.occurrences line verbose).length ≤ (interface.occurrences other verbose).length →
        ∃ louder, parse environment otherWords = .ok louder ∧ run louder = run arguments ∧
          (execute environment words).stderr.Sublist (execute environment otherWords).stderr

section Programs

variable {ι α : Type} [DecidableEq ι] {program : Program ι α} {verbose quiet : ι} {leveled : α → Log.Threshold → α}
  (lawful : program.Lawful verbose quiet leveled)
  (own : ∀ arguments event, .log event ∈ program.run arguments → Log.IsOwn program.logTargets event)
include lawful own

theorem stderr_of_flags (environment : Environment) (words : List String) (arguments : α) (line : List (WordGroup ι))
    (accepted : program.parse environment words = .ok arguments)
    (unmuted : Unmuted program.interface quiet environment line words) :
    (program.execute environment words).stderr =
      (program.run arguments).flatMap (Effect.linesUnder (program.interface.occurrences line verbose).length) := by
  have verbose_iff := lawful.verbose_of_flags environment words arguments line accepted unmuted.spells unmuted.unmuted
  rw [program.execute_accepted environment words arguments accepted, unmuted.unset]
  exact Effect.run_lines_own _ lawful.logs.crates _ _ verbose_iff (program.run arguments) (own arguments)

theorem louder_of_own : Louder program.interface verbose quiet program.parse program.run program.execute := by
  constructor
  · intro environment words arguments accepted
    obtain ⟨found, parsed, _⟩ := (program.parse_iff environment words arguments).mp accepted
    exact program.interface.grouped_of_parse words environment found parsed
  · exact stderr_of_flags lawful own
  · intro environment words arguments line other otherWords accepted unmuted spells same more
    obtain ⟨found, parsed, read⟩ := (program.parse_iff environment words arguments).mp accepted
    obtain ⟨again, reparsed, alike⟩ := Interface.parse_recounted lawful.counted lawful.spellable lawful.complete
      unmuted.spells parsed other otherWords spells same unmuted.unmuted
    have reread := lawful.recounted found again alike
    rw [read] at reread
    have louderAccepted := (program.parse_iff environment otherWords _).mpr ⟨again, reparsed, reread⟩
    have runs := lawful.runs arguments (Log.verbosity (again.uses verbose) (again.uses quiet))
    have otherUnmuted : Unmuted program.interface quiet environment other otherWords :=
      ⟨spells, unmuted.unset, (same quiet (Ne.symm lawful.apart)).trans unmuted.unmuted⟩
    refine ⟨_, louderAccepted, runs, ?_⟩
    rw [stderr_of_flags lawful own environment words arguments line accepted unmuted,
      stderr_of_flags lawful own environment otherWords _ other louderAccepted otherUnmuted, runs]
    exact Effect.run_lines_grow _ _ more (program.run arguments)

end Programs

namespace Deploy

theorem exit_event_own (output : WalletOutput) : Log.IsOwn logTargets (exitEvent output) := by
  rw [exitEvent]
  by_cases success : output.success = true
  · rw [if_pos success]
    exact Log.program_event_own logs _ rfl (Nat.le_refl _)
  · rw [if_neg success]
    exact Log.program_event_own logs _ rfl (show (2 : Nat) ≤ 3 by decide)

theorem wallet_event_own (command : Command) (machine : Machine) (event : Log.Event)
    (logged : event ∈ (command.run machine).2) : Log.IsOwn logTargets event := by
  have under : Log.libraryName.toList <+: Command.logTarget.toList := by decide
  rcases command.run_events_cases machine event logged with rfl | ⟨status, rfl⟩
  · exact Log.library_event_own logs _ under
  · exact Log.library_event_own logs _ under

theorem closing_events_own (arguments : Arguments) (output : WalletOutput) (event : Log.Event)
    (logged : .log event ∈ afterWallet arguments output) : Log.IsOwn logTargets event := by
  have kind : event = exitEvent output ∨ .log event = addressReport arguments.deployment := by
    by_cases token : arguments.deploysToken = true <;> simpa [afterWallet, token, line] using logged
  rcases kind with rfl | report
  · exact exit_event_own output
  · rw [addressReport] at report
    cases address : arguments.deployment.expectedAddress with
    | ok felt =>
        rw [address] at report
        cases report
    | error e =>
        rw [address] at report
        rw [Effect.log.inj report]
        exact Log.program_event_own logs _ rfl (show (2 : Nat) ≤ 3 by decide)

theorem run_events_own (machine : Machine) (arguments : Arguments) (event : Log.Event)
    (logged : .log event ∈ run machine arguments) : Log.IsOwn logTargets event := by
  have wallet := wallet_event_own arguments.command machine
  rw [run] at logged
  cases ran : arguments.command.run machine with
  | mk outcome events =>
      rw [ran] at logged wallet
      rcases List.mem_append.mp logged with front | closing
      · rcases List.mem_append.mp front with announced | spawned
        · simp [line] at announced
        · obtain ⟨inner, member, same⟩ := List.mem_map.mp spawned
          exact wallet event (Effect.log.inj same ▸ member)
      · cases outcome with
        | ok output => exact closing_events_own arguments output event closing
        | error e => simp at closing

end Deploy

namespace Discover

theorem probing_event_own (probe : EndpointProbe) (path : String) (event : Log.Event)
    (logged : event ∈ (Probe.fetch probe path).events) : Log.IsOwn logTargets event := by
  have under : Log.libraryName.toList <+: Probe.logTarget.toList := by decide
  rcases Probe.fetch_events_cases probe path event logged with ⟨url, rfl⟩ | ⟨url, status, rfl⟩
  · exact Log.library_event_own logs _ under
  · exact Log.library_event_own logs _ under

theorem answer_event_own (path body : String) (event : Log.Event) (logged : event ∈ answerEvents path body) :
    Log.IsOwn logTargets event := by
  rw [answerEvents] at logged
  cases listed : Account.parseList? body with
  | none =>
      rw [listed] at logged
      cases logged
  | some accounts =>
      rw [listed] at logged
      rcases List.mem_cons.mp logged with found | funded
      · rw [found]
        exact Log.program_event_own logs _ rfl (Nat.le_refl _)
      · obtain ⟨account, _, rfl⟩ := List.mem_map.mp funded
        exact Log.program_event_own logs _ rfl (Nat.le_refl _)

theorem report_event_own (url : Url) (report : Report) (event : Log.Event) (logged : event ∈ reportEvents url report) :
    Log.IsOwn logTargets event := by
  rw [reportEvents] at logged
  rcases List.mem_append.mp logged with about | warning
  · obtain ⟨answer, _, inside⟩ := List.mem_flatMap.mp about
    exact answer_event_own answer.1 answer.2 event inside
  · by_cases silent : report.firstSuccess?.isNone = true
    · rw [if_pos silent] at warning
      rw [List.mem_singleton.mp warning]
      exact Log.program_event_own logs _ rfl (show (2 : Nat) ≤ 3 by decide)
    · rw [if_neg silent] at warning
      cases warning

theorem run_events_own (client : Http.Client) (stdout : Sink) (arguments : Arguments) (event : Log.Event)
    (logged : .log event ∈ run client stdout arguments) : Log.IsOwn logTargets event := by
  rw [run] at logged
  rcases List.mem_append.mp logged with front | reported
  · rcases List.mem_append.mp front with asked | probing
    · have first : event = starting arguments.rpcUrl := by simpa using asked
      rw [first]
      exact Log.program_event_own logs _ rfl (Nat.le_refl _)
    · obtain ⟨inner, member, same⟩ := List.mem_map.mp probing
      obtain ⟨path, _, fetched⟩ := Probe.all_events_fetched _ _ stdout _ inner member
      rw [← Effect.log.inj same]
      exact probing_event_own _ path inner fetched
  · rcases outcome : (Probe.all (probe client arguments) arguments.stopOnSuccess stdout accountEndpoints).report
      with _ | (e | report)
    · simp [outcome] at reported
    · simp [outcome] at reported
    · rw [outcome] at reported
      obtain ⟨inner, member, same⟩ := List.mem_map.mp reported
      rw [← Effect.log.inj same]
      exact report_event_own _ report inner member

end Discover

theorem more_flags_hide_no_line (machine : Machine) (client : Http.Client) (stdout : Sink) :
    Louder Deploy.interface .verbose .quiet Deploy.Arguments.parse (Deploy.run machine) (Deploy.execute machine) ∧
    Louder Discover.interface .verbose .quiet Discover.Arguments.parse (Discover.run client stdout)
      (Discover.execute client stdout) :=
  ⟨louder_of_own (Deploy.lawful machine) (Deploy.run_events_own machine),
    louder_of_own (Discover.lawful client stdout) (Discover.run_events_own client stdout)⟩

def flaggedGroups : List (WordGroup Deploy.Opt) := [.letters ['v'], .named .salt ["0x5"], .named .verbose []]

def louderGroups : List (WordGroup Deploy.Opt) := [.letters ['v', 'v', 'v'], .named .salt ["0x5"]]

def flaggedDeployment : Deploy.Arguments := { defaultDeployment (.upTo .info) with salt := "0x5" }

theorem more_flags_hide_no_line_third :
    (Deploy.execute (fun _ => .error .notFound) (filtering none) ["-v", "--salt", "0x5", "--verbose"]).stderr.Sublist
        (Deploy.execute (fun _ => .error .notFound) (filtering none) ["-vvv", "--salt", "0x5", "--"]).stderr ∧
      (Discover.execute Discover.listingClient (.limited 0 .noSpace) (filtering none) ["-vvv"]).stderr =
        ["INFO find_devnet_accounts: Probing devnet endpoints. url=http://127.0.0.1:5060/",
          "DEBUG devnet_utils::probe: Probing endpoint. url=http://127.0.0.1:5060/predeployed_accounts",
          "TRACE devnet_utils::probe: Endpoint answered. url=http://127.0.0.1:5060/predeployed_accounts " ++
            "status=404 Not Found",
          "Error: Failed to write the probe results: No space left on device (os error 28)"] := by
  have accepted : Deploy.Arguments.parse (filtering none) ["-v", "--salt", "0x5", "--verbose"] = .ok flaggedDeployment := by
    decide +kernel
  have found : Discover.Arguments.parse (filtering none) ["-vvv"] = .ok ⟨defaultUrl, none, false, .upTo .debug⟩ := by
    decide +kernel
  have unmuted : Unmuted Deploy.interface .quiet (filtering none) flaggedGroups ["-v", "--salt", "0x5", "--verbose"] :=
    ⟨⟨by decide, .inl (by decide)⟩, rfl, by decide⟩
  have same (option : Deploy.Opt) (apart : option ≠ .verbose) :
      Deploy.interface.occurrences louderGroups option = Deploy.interface.occurrences flaggedGroups option := by
    cases option <;> first | rfl | exact absurd rfl apart
  obtain ⟨deploying, discovering⟩ :=
    more_flags_hide_no_line (fun _ => .error .notFound) Discover.listingClient (.limited 0 .noSpace)
  refine ⟨?_, ?_⟩
  · obtain ⟨_, _, _, grown⟩ := deploying.grows _ _ _ flaggedGroups louderGroups ["-vvv", "--salt", "0x5", "--"] accepted
      unmuted ⟨by decide, .inr (by decide)⟩ same (by decide)
    exact grown
  · rw [discovering.told _ _ _ [.letters ['v', 'v', 'v']] found ⟨⟨by decide, .inl (by decide)⟩, rfl, by decide⟩]
    decide +kernel

end Devnet
