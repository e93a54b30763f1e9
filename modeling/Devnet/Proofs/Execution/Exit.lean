import Devnet.Proofs.Deploy.Verbatim
import Devnet.Proofs.Execution.Logging
import Devnet.Proofs.Probe.Cut
import Devnet.Proofs.Probe.Redirects

set_option autoImplicit false

namespace Devnet

open CommandLine

-- A command line that is refused asks neither for help nor for the version.
def Refused {α : Type} (parsed : Except Stop α) : Prop := ∃ e, parsed = .error (.rejected e)

-- What a command line, read as `parsed`, says about the execution that it starts. `ends` holds if nothing is
-- waited for without end.
structure Settles {α : Type} (parsed : Except Stop α) (ends : Prop) (execution : Execution) : Prop where
  two : execution.code = some 2 ↔ Refused parsed
  zero : execution.code = some 0 ↔ ¬ Refused parsed ∧ ends
  endless : execution.code = none ↔ ¬ Refused parsed ∧ ¬ ends
  untouched : Refused parsed → execution.stdout = [] ∧ execution.started = [] ∧ execution.requests = []

section Settled

variable {α : Type}

theorem accepted_unrefused (parsed : Except Stop α) (arguments : α) (accepted : parsed = .ok arguments) :
    ¬ Refused parsed := by
  rintro ⟨e, rejected⟩
  cases accepted.symm.trans rejected

theorem settles_refused (parsed : Except Stop α) (ends : Prop) (execution : Execution) (refused : Refused parsed)
    (code : execution.code = some 2)
    (untouched : execution.stdout = [] ∧ execution.started = [] ∧ execution.requests = []) :
    Settles parsed ends execution := by
  refine ⟨iff_of_true code refused, ?_, ?_, fun _ => untouched⟩
  · exact iff_of_false (by rw [code]; decide) fun both => both.1 refused
  · exact iff_of_false (by rw [code]; decide) fun both => both.1 refused

theorem settles_unrefused (parsed : Except Stop α) (ends : Prop) (execution : Execution) (allowed : ¬ Refused parsed)
    (code : ends ∧ execution.code = some 0 ∨ ¬ ends ∧ execution.code = none) : Settles parsed ends execution := by
  rcases code with ⟨idle, code⟩ | ⟨waits, code⟩
  · exact ⟨iff_of_false (by rw [code]; decide) allowed, iff_of_true code ⟨allowed, idle⟩,
      iff_of_false (by rw [code]; decide) fun both => both.2 idle, fun refused => absurd refused allowed⟩
  · exact ⟨iff_of_false (by rw [code]; decide) allowed, iff_of_false (by rw [code]; decide) fun both => waits both.2,
      iff_of_true code ⟨allowed, waits⟩, fun refused => absurd refused allowed⟩

theorem settles_stop (name : String) (stdout : Sink) (stop : Stop) (ends : Prop) (idle : ends) :
    Settles (.error stop : Except Stop α) ends (.ofStop name stdout stop) := by
  have unrefused (others : ∀ e, stop ≠ .rejected e) : ¬ Refused (.error stop : Except Stop α) := by
    rintro ⟨e, same⟩
    exact others e (Except.error.inj same)
  cases stop with
  | help => exact settles_unrefused _ ends _ (unrefused nofun) (.inl ⟨idle, rfl⟩)
  | version => exact settles_unrefused _ ends _ (unrefused nofun) (.inl ⟨idle, rfl⟩)
  | rejected e => exact settles_refused _ ends _ ⟨e, rfl⟩ rfl ⟨rfl, rfl, rfl⟩

end Settled

theorem Program.settles {ι α : Type} [DecidableEq ι] (program : Program ι α) (environment : Environment)
    (words : List String) (ends : Prop) (idle : ∀ stop, program.parse environment words = .error stop → ends)
    (runs : ∀ arguments, program.parse environment words = .ok arguments → (ends ↔ .wait ∉ program.run arguments)) :
    Settles (program.parse environment words) ends (program.execute environment words) := by
  cases parsed : program.parse environment words with
  | error stop =>
      rw [execute, parsed]
      exact settles_stop _ _ stop ends (idle stop parsed)
  | ok arguments =>
      rw [program.execute_accepted environment words arguments parsed]
      apply settles_unrefused _ ends _ (accepted_unrefused _ arguments rfl)
      by_cases waits : .wait ∈ program.run arguments
      · exact .inr ⟨fun ended => (runs arguments parsed).mp ended waits, if_pos waits⟩
      · exact .inl ⟨(runs arguments parsed).mpr waits, if_neg waits⟩

namespace Deploy

theorem no_start_after_wallet (arguments : Arguments) (output : WalletOutput) :
    (afterWallet arguments output).filterMap Effect.start? = [] := by
  cases address : arguments.deployment.expectedAddress <;> by_cases token : arguments.deploysToken = true <;>
    simp [afterWallet, addressReport, address, token, Effect.start?, line]

theorem started_once (machine : Machine) (arguments : Arguments) :
    (run machine arguments).filterMap Effect.start? = [arguments.command] := by
  rw [run]
  cases result : arguments.command.run machine with
  | mk outcome events =>
      cases outcome with
      | ok output =>
          simp only [List.filterMap_append, Effect.starts_of_logs, no_start_after_wallet]
          rfl
      | error e =>
          simp only [List.filterMap_append, Effect.starts_of_logs]
          rfl

-- Class hash, salt and calldata may be any texts, and the URL any that parses: no felt and no scheme is
-- asked for by the command line.
theorem typed_accepted (environment : Environment) (typed : Typed) (url : Url)
    (unset : ∀ name ∈ Typed.optionVariables, environment name = none) (parses : Url.parse typed.rpcUrl = .ok url) :
    Arguments.parse environment typed.words = .ok (typed.arguments url) := by
  have same : typed.assignments.Perm typed.assignments := List.Perm.refl _
  have read := interface.read_attached [] typed.assignments (typed.attachable_of_perm _ same)
    (typed.assignments_accepted url parses) typed.assignments_once (fun _ _ _ => rfl)
  have unused := interface.environment_unused environment (Matches.appendAll [] typed.assignments) interface.options
    fun option _ => Typed.variable_unset environment unset option
  have parsed : interface.parse environment typed.words = .ok (Matches.appendAll [] typed.assignments) := by
    rw [Interface.parse, typed.words_attached, read]
    simp only [bind, Except.bind, unused, typed.checked_together _ same]
  exact (congrArg (·.bind Arguments.ofMatches) parsed).trans
    (typed.arguments_read _ same url parses typed.calldata_assigned)

theorem run_ends (machine : Machine) (arguments : Arguments) : .wait ∉ run machine arguments := by
  rw [run]
  cases arguments.command.run machine with
  | mk outcome events =>
      cases outcome with
      | error e => simp [line]
      | ok output =>
          by_cases token : arguments.deploysToken = true <;>
            cases address : arguments.deployment.expectedAddress <;>
              simp [line, afterWallet, addressReport, token, address]

theorem settles (machine : Machine) (environment : Environment) (words : List String) :
    Settles (Arguments.parse environment words) True (execute machine environment words) :=
  (program machine).settles environment words True (fun _ _ => trivial) fun arguments _ =>
    iff_of_true trivial (run_ends machine arguments)

end Deploy

namespace Probe

theorem line_nonempty (entry : Probed) : 0 < (lineBytes entry).length := by
  obtain ⟨path, outcome⟩ := entry
  rw [line_bytes_encoded]
  cases outcome with
  | ok body =>
      have front : 0 < (Utf8.encode "Success on ").length := by decide
      simp only [writtenLine, Utf8.encode_append, List.length_append]
      omega
  | error e =>
      have front : 0 < (Utf8.encode "Error: ").length := by decide
      simp only [writtenLine, Utf8.encode_append, List.length_append]
      omega

theorem fetch_events_messages (probe : EndpointProbe) (path : String) (event : Log.Event)
    (logged : event ∈ (fetch probe path).events) :
    event.message = "Probing endpoint." ∨ event.message = "Endpoint answered." := by
  rcases fetch_events_cases probe path event logged with ⟨url, rfl⟩ | ⟨url, status, rfl⟩
  · exact .inl rfl
  · exact .inr rfl

theorem all_full (probe : EndpointProbe) (stopOnSuccess : Bool) (failure : SinkError) (path : String)
    (rest : List String) (outcome : Outcome) (returned : (fetch probe path).outcome = some outcome) :
    all probe stopOnSuccess (.limited 0 failure) (path :: rest) = .cut (fetch probe path) [] failure := by
  have short := Sink.write_short 0 failure _ (line_nonempty ⟨path, outcome⟩)
  rw [List.take_zero] at short
  exact all_step_refused probe stopOnSuccess _ path rest outcome returned [] failure short

theorem all_waits (probe : EndpointProbe) (stopOnSuccess : Bool) (sink : Sink) (paths : List String)
    (waits : (all probe stopOnSuccess sink paths).report = none) :
    ∃ path ∈ paths, (fetch probe path).outcome = none := by
  have reached := all_unfailed probe stopOnSuccess sink paths fun failure => by rw [waits]; exact nofun
  rw [reached] at waits
  rcases tried_report probe stopOnSuccess paths with ends | ⟨_, stalled⟩
  · cases waits.symm.trans ends
  · exact stalled

end Probe

namespace Discover

theorem url_accepted (environment : Environment) (text : String) (url : Url)
    (unset : environment Variable.rpcUrl = none) (parses : Url.parse text = .ok url) :
    Arguments.parse environment ["--rpc-url=" ++ text] = .ok ⟨url, none, false, Log.verbosity 0 0⟩ := by
  have checked : checkUrl text = .ok () := by simp only [checkUrl, parses]
  have attachable : interface.Attachable Opt.rpcUrl := ⟨by decide, rfl, by decide⟩
  have read : interface.readWords [] none ["--rpc-url=" ++ text] = .ok [⟨.rpcUrl, [text], 1⟩] :=
    interface.read_attached_word [] (Opt.rpcUrl, text) [] attachable checked (fun _ => rfl)
  have unused (option : Opt) : (interface.spec option).variableName.bind environment = none := by
    cases option with
    | rpcUrl => exact unset
    | _ => rfl
  have parsed : interface.parse environment ["--rpc-url=" ++ text] = .ok [⟨.rpcUrl, [text], 1⟩] := by
    simp only [Interface.parse, read, bind, Except.bind,
      interface.environment_unused environment _ interface.options fun option _ => unused option]
    rfl
  have found : Matches.value? [⟨Opt.rpcUrl, [text], 1⟩] .rpcUrl = some text := rfl
  have matched : Arguments.ofMatches [⟨.rpcUrl, [text], 1⟩] = .ok ⟨url, none, false, Log.verbosity 0 0⟩ := by
    simp only [Arguments.ofMatches, found, Option.getD_some, parses]
    rfl
  exact (congrArg (·.bind Arguments.ofMatches) parsed).trans matched

def firstEndpoint : String := "/predeployed_accounts"

def eventsOfFirst (probe : EndpointProbe) : List Log.Event :=
  starting probe.base :: (Probe.fetch probe firstEndpoint).events

theorem complaint_line (failure : SinkError) :
    Line.split ("Error: " ++ writeComplaint failure) =
      ["Error: Failed to write the probe results: " ++ failure.message] := by
  cases failure <;> decide +kernel

section Full

variable (client : Http.Client) (failure : SinkError) (arguments : Arguments) (outcome : Outcome)
  (returned : (Probe.fetch (probe client arguments) firstEndpoint).outcome = some outcome)
include returned

theorem run_full :
    run client (.limited 0 failure) arguments =
      [.log (starting arguments.rpcUrl), .print []] ++
        ((Probe.fetch (probe client arguments) firstEndpoint).requests.map Http.requestText).map Effect.request ++
        (Probe.fetch (probe client arguments) firstEndpoint).events.map Effect.log ++
        [.complain (writeComplaint failure)] := by
  have cut : Probe.all (probe client arguments) arguments.stopOnSuccess (.limited 0 failure) accountEndpoints =
      .cut (Probe.fetch (probe client arguments) firstEndpoint) [] failure :=
    Probe.all_full _ _ failure firstEndpoint accountEndpoints.tail outcome returned
  rw [run, cut, List.map_map]
  rfl

theorem effects_full (filter : Log.Filter) :
    Execution.ofEffects filter (run client (.limited 0 failure) arguments) =
      { code := some 0
        stdout := []
        stderr :=
          Effect.logLines filter (eventsOfFirst (probe client arguments)) ++
            ["Error: Failed to write the probe results: " ++ failure.message]
        requests := (Probe.fetch (probe client arguments) firstEndpoint).requests.map Http.requestText
        started := [] } := by
  rw [run_full client failure arguments outcome returned, Execution.ofEffects]
  generalize (Probe.fetch (probe client arguments) firstEndpoint).requests.map Http.requestText = asked
  simp only [List.flatMap_append, List.filterMap_append, Effect.printed_of_logs, Effect.printed_of_requests,
    Effect.error_lines_of_logs, Effect.error_lines_of_requests, Effect.requests_of_logs, Effect.requests_of_requests,
    Effect.starts_of_logs, Effect.starts_of_requests, ← complaint_line]
  simp [Effect.printed, Effect.errorLines, Effect.request?, Effect.start?, Effect.logLines, eventsOfFirst, probe,
    List.filterMap_cons]

end Full

def conclusions : List String := ["Found predeployed accounts.", "Predeployed account.", "No endpoint answered."]

theorem no_conclusion (probe : EndpointProbe) (event : Log.Event) (logged : event ∈ eventsOfFirst probe) :
    event.message ∉ conclusions := by
  rcases List.mem_cons.mp logged with first | later
  · have message : event.message = "Probing devnet endpoints." := by
      rw [first]
      rfl
    rw [message]
    decide
  · rcases Probe.fetch_events_messages probe firstEndpoint event later with probing | answered
    · rw [probing]
      decide
    · rw [answered]
      decide

-- No endpoint is waited for without end.
def Ends (client : Http.Client) (stdout : Sink) (arguments : Arguments) : Prop :=
  (Probe.all (probe client arguments) arguments.stopOnSuccess stdout accountEndpoints).report ≠ none

theorem run_waits_iff (client : Http.Client) (stdout : Sink) (arguments : Arguments) :
    Ends client stdout arguments ↔ .wait ∉ run client stdout arguments := by
  rw [Ends, run]
  rcases (Probe.all (probe client arguments) arguments.stopOnSuccess stdout accountEndpoints).report with _ | (e | report)
  · simp
  · simp
  · simp

theorem settles (client : Http.Client) (stdout : Sink) (environment : Environment) (words : List String) :
    Settles (Arguments.parse environment words)
      (∀ arguments, Arguments.parse environment words = .ok arguments → Ends client stdout arguments)
      (execute client stdout environment words) := by
  apply (program client stdout).settles environment words
  · intro stop stopped arguments accepted
    cases stopped.symm.trans accepted
  · intro arguments accepted
    rw [← show _ ↔ .wait ∉ (program client stdout).run arguments from run_waits_iff client stdout arguments]
    constructor
    · exact fun ends => ends arguments accepted
    · intro ends other alsoAccepted
      cases accepted.symm.trans alsoAccepted
      exact ends

theorem endless_of_stall (client : Http.Client) (stdout : Sink) (arguments : Arguments) (network : Http.Network)
    (rules : client.Rules arguments.requestTimeout network) (endless : ¬ Ends client stdout arguments) :
    arguments.timeout = none ∧ ∃ path ∈ accountEndpoints,
      ∃ asked ∈ (Probe.fetch (probe client arguments) path).requests, network.Stalls asked := by
  obtain ⟨path, member, waits⟩ := Probe.all_waits _ _ stdout _ (not_not.mp endless)
  obtain ⟨unlimited, stalled⟩ := Probe.waits_for_stall (probe client arguments) network rules path waits
  exact ⟨Option.map_eq_none_iff.mp unlimited, path, member, stalled⟩

end Discover

-- The last part is about a standard output that takes nothing.
theorem exit_codes (machine : Machine) (client : Http.Client) (stdout : Sink) (environment : Environment)
    (words : List String) :
    Settles (Deploy.Arguments.parse environment words) True (Deploy.execute machine environment words) ∧
    (∀ arguments, Deploy.Arguments.parse environment words = .ok arguments →
      (Deploy.execute machine environment words).started = [arguments.command]) ∧
    (∀ (typed : Deploy.Typed) url, (∀ name ∈ Deploy.Typed.optionVariables, environment name = none) →
      Url.parse typed.rpcUrl = .ok url → ¬ Refused (Deploy.Arguments.parse environment typed.words)) ∧
    Settles (Discover.Arguments.parse environment words)
      (∀ arguments, Discover.Arguments.parse environment words = .ok arguments → Discover.Ends client stdout arguments)
      (Discover.execute client stdout environment words) ∧
    (∀ arguments network, client.Rules arguments.requestTimeout network → ¬ Discover.Ends client stdout arguments →
      arguments.timeout = none ∧ ∃ path ∈ accountEndpoints,
        ∃ asked ∈ (Probe.fetch (Discover.probe client arguments) path).requests, network.Stalls asked) ∧
    (∀ text url, environment Variable.rpcUrl = none → Url.parse text = .ok url →
      ¬ Refused (Discover.Arguments.parse environment ["--rpc-url=" ++ text])) ∧
    ∀ arguments failure outcome, Discover.Arguments.parse environment words = .ok arguments →
      stdout = .limited 0 failure →
      (Probe.fetch (Discover.probe client arguments) Discover.firstEndpoint).outcome = some outcome →
        Discover.execute client stdout environment words =
          { code := some 0
            stdout := []
            stderr :=
              Effect.logLines
                (Log.filterInForce (environment Variable.logFilter) arguments.verbosity Discover.logTargets)
                (Discover.eventsOfFirst (Discover.probe client arguments)) ++
                ["Error: Failed to write the probe results: " ++ failure.message]
            requests :=
              (Probe.fetch (Discover.probe client arguments) Discover.firstEndpoint).requests.map Http.requestText
            started := [] } ∧
        ∀ event ∈ Discover.eventsOfFirst (Discover.probe client arguments), event.message ∉ Discover.conclusions := by
  refine ⟨Deploy.settles machine environment words, ?_, ?_, Discover.settles client stdout environment words,
    Discover.endless_of_stall client stdout, ?_, ?_⟩
  · intro arguments accepted
    have executed := (Deploy.program machine).execute_accepted environment words arguments accepted
    exact (congrArg Execution.started executed).trans (Deploy.started_once machine arguments)
  · intro typed url unset parses
    exact accepted_unrefused _ _ (Deploy.typed_accepted environment typed url unset parses)
  · intro text url unset parses
    exact accepted_unrefused _ _ (Discover.url_accepted environment text url unset parses)
  · rintro arguments failure outcome accepted rfl returned
    have executed := (Discover.program client (.limited 0 failure)).execute_accepted environment words arguments accepted
    exact ⟨executed.trans (Discover.effects_full client failure arguments outcome returned _), Discover.no_conclusion _⟩

def fullClient : Http.Client := .scripted (Http.Node.mk []).network

def fullArguments : Discover.Arguments :=
  ⟨⟨"http", some ⟨"", "", .name "h", none⟩, "/", none, none⟩, none, false, Log.verbosity 0 0⟩

theorem exit_codes_full :
    Discover.execute fullClient (.limited 0 .noSpace) (fun _ => none) ["--rpc-url=http://h/"] =
      { code := some 0
        stdout := []
        stderr :=
          ["INFO find_devnet_accounts: Probing devnet endpoints. url=http://h/",
            "Error: Failed to write the probe results: No space left on device (os error 28)"]
        requests := ["GET http://h/predeployed_accounts"]
        started := [] } := by
  have accepted : Discover.Arguments.parse (fun _ => none) ["--rpc-url=http://h/"] = .ok fullArguments := by
    decide +kernel
  have returns : (Probe.fetch (Discover.probe fullClient fullArguments) Discover.firstEndpoint).outcome ≠ none := by
    decide +kernel
  obtain ⟨outcome, returned⟩ := Option.ne_none_iff_exists'.mp returns
  obtain ⟨_, _, _, _, _, _, full⟩ := exit_codes (fun _ => .error .notFound) fullClient (.limited 0 .noSpace)
    (fun _ => none) ["--rpc-url=http://h/"]
  rw [(full fullArguments .noSpace outcome accepted rfl returned).1]
  decide +kernel

end Devnet
