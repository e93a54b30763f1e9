import Devnet.Proofs.Execution.Logging
import Devnet.Proofs.Log.Lines
import Devnet.Proofs.Probe.Cut

set_option autoImplicit false

namespace Devnet.Discover

open CommandLine

def accountLines (path : String) (accounts : List Account) : List String :=
  ("INFO find_devnet_accounts: Found predeployed accounts. path=\x22" ++ path ++ "\x22 count=" ++
      Numeral.decimal accounts.length) ::
    accounts.map fun account =>
      "INFO find_devnet_accounts: Predeployed account. address=" ++ account.address ++ " initial_balance=" ++
        account.initialBalance

-- The lines about a path: an answer that lists no accounts has none, and neither has a failure.
def pathLines (path : String) : Outcome → List String
  | .error _ => []
  | .ok body => (Account.parseList? body).elim [] (accountLines path)

def listedAccounts : Outcome → List Account
  | .error _ => []
  | .ok body => (Account.parseList? body).getD []

-- No text that is logged ends a line.
structure PlainValues (url : Url) (report : Report) : Prop where
  address : Unbroken url.text
  accounts : ∀ entry ∈ report, ∀ account ∈ listedAccounts entry.outcome,
    Unbroken account.address ∧ Unbroken account.initialBalance

section Texts

theorem starting_text (url : Url) :
    (starting url).text = "INFO find_devnet_accounts: Probing devnet endpoints. url=" ++ url.text := by
  rw [← String.toList_inj]
  simp [starting, Log.Event.text, Log.Field.text, programName, Log.Level.name, String.join]

theorem no_answer_text (url : Url) :
    (noAnswer url).text = "WARN find_devnet_accounts: No endpoint answered. url=" ++ url.text := by
  rw [← String.toList_inj]
  simp [noAnswer, Log.Event.text, Log.Field.text, programName, Log.Level.name, String.join]

theorem found_text (path : String) (count : Nat) :
    (foundEvent path count).text =
      "INFO find_devnet_accounts: Found predeployed accounts. path=\x22" ++ path ++ "\x22 count=" ++
        Numeral.decimal count := by
  rw [← String.toList_inj]
  simp [foundEvent, Log.Event.text, Log.Field.text, programName, Log.Level.name, String.join]

theorem account_text (account : Account) :
    (accountEvent account).text =
      "INFO find_devnet_accounts: Predeployed account. address=" ++ account.address ++ " initial_balance=" ++
        account.initialBalance := by
  rw [← String.toList_inj]
  simp [accountEvent, Log.Event.text, Log.Field.text, programName, Log.Level.name, String.join]

end Texts

section Shown

structure Shown (event : Log.Event) : Prop where
  own : event.target = programName
  level : event.level.rank ≤ Log.Level.info.rank
  message : Unbroken event.message
  fields : ∀ field ∈ event.fields, Unbroken field.name ∧ Unbroken field.value

theorem shown_lines (events : List Log.Event) (shown : ∀ event ∈ events, Shown event) :
    Effect.logLines (Log.terseFilter logTargets) events = events.map Log.Event.text := by
  apply Effect.log_lines_admitted
  · intro event member
    exact Log.program_event_admitted logs event (shown event member).own (shown event member).level
  · intro event member
    obtain ⟨own, _, message, fields⟩ := shown event member
    have target : Unbroken event.target := by
      rw [own]
      decide
    exact event_unbroken event target message fields

theorem starting_shown (url : Url) (address : Unbroken url.text) : Shown (starting url) := by
  refine ⟨rfl, Nat.le_refl _, show Unbroken "Probing devnet endpoints." by decide, fun field member => ?_⟩
  rw [List.mem_singleton.mp member]
  exact ⟨show Unbroken "url" by decide, address⟩

theorem no_answer_shown (url : Url) (address : Unbroken url.text) : Shown (noAnswer url) := by
  refine ⟨rfl, show (2 : Nat) ≤ 3 by decide, show Unbroken "No endpoint answered." by decide, fun field member => ?_⟩
  rw [List.mem_singleton.mp member]
  exact ⟨show Unbroken "url" by decide, address⟩

theorem found_shown (path : String) (count : Nat) (named : Unbroken path) : Shown (foundEvent path count) := by
  refine ⟨rfl, Nat.le_refl _, show Unbroken "Found predeployed accounts." by decide, fun field member => ?_⟩
  rcases List.mem_cons.mp member with first | later
  · have quoted := unbroken_append _ _ (unbroken_append "\x22" path (by decide) named) (show Unbroken "\x22" by decide)
    rw [first]
    exact ⟨show Unbroken "path" by decide, quoted⟩
  · rw [List.mem_singleton.mp later]
    exact ⟨show Unbroken "count" by decide, decimal_unbroken count⟩

theorem account_shown (account : Account) (address : Unbroken account.address)
    (balance : Unbroken account.initialBalance) : Shown (accountEvent account) := by
  refine ⟨rfl, Nat.le_refl _, show Unbroken "Predeployed account." by decide, fun field member => ?_⟩
  rcases List.mem_cons.mp member with first | later
  · rw [first]
    exact ⟨show Unbroken "address" by decide, address⟩
  · rw [List.mem_singleton.mp later]
    exact ⟨show Unbroken "initial_balance" by decide, balance⟩

end Shown

section Events

def pathEvents (path : String) : Outcome → List Log.Event
  | .error _ => []
  | .ok body => answerEvents path body

theorem path_events_text (path : String) (outcome : Outcome) :
    (pathEvents path outcome).map Log.Event.text = pathLines path outcome := by
  cases outcome with
  | error e => rfl
  | ok body =>
      rw [pathEvents, answerEvents, pathLines]
      cases Account.parseList? body with
      | none => rfl
      | some accounts =>
          simp only [Option.elim_some, accountLines, List.map_cons, List.map_map, Function.comp_def, found_text,
            account_text]

theorem successes_events (report : Report) :
    report.successes.flatMap (fun answer => answerEvents answer.1 answer.2) =
      report.flatMap fun entry => pathEvents entry.path entry.outcome := by
  induction report with
  | nil => rfl
  | cons entry rest ih =>
      obtain ⟨path, body | e⟩ := entry <;>
        simp_all [Report.successes, Probed.body?, Except.toOption, pathEvents]

theorem path_events_shown (path : String) (outcome : Outcome) (named : Unbroken path)
    (plain : ∀ account ∈ listedAccounts outcome, Unbroken account.address ∧ Unbroken account.initialBalance) :
    ∀ event ∈ pathEvents path outcome, Shown event := by
  intro event logged
  cases outcome with
  | error e => cases logged
  | ok body =>
      rw [pathEvents, answerEvents] at logged
      rw [listedAccounts] at plain
      cases listed : Account.parseList? body with
      | none =>
          rw [listed] at logged
          cases logged
      | some accounts =>
          rw [listed] at logged plain
          rcases List.mem_cons.mp logged with found | funded
          · rw [found]
            exact found_shown path accounts.length named
          · obtain ⟨account, member, rfl⟩ := List.mem_map.mp funded
            obtain ⟨address, balance⟩ := plain account member
            exact account_shown account address balance

variable (probe : EndpointProbe) (paths : List String) (report : Report) (reports : Probe.Reports probe paths report)
include reports

theorem answers_reported :
    (∃ path ∈ paths, Probe.Answers probe path) ↔ ∃ entry ∈ report, entry.body?.isSome = true := by
  induction reports with
  | nil => simp
  | @cons path entry paths report head _ ih =>
      obtain ⟨rfl, returned⟩ := head
      rw [List.exists_mem_cons_iff, List.exists_mem_cons_iff, ih, Probe.answers_iff_body probe _ entry.outcome returned]

theorem report_events (url : Url) :
    reportEvents url report =
      report.flatMap (fun entry => pathEvents entry.path entry.outcome) ++
        if ∃ path ∈ paths, Probe.Answers probe path then [] else [noAnswer url] := by
  have silent : report.firstSuccess?.isNone = true ↔ ¬ ∃ path ∈ paths, Probe.Answers probe path := by
    rw [answers_reported probe paths report reports]
    simp [Report.firstSuccess?]
  rw [reportEvents, successes_events]
  by_cases answered : ∃ path ∈ paths, Probe.Answers probe path
  · rw [if_pos answered, if_neg fun none => silent.mp none answered]
  · rw [if_neg answered, if_pos (silent.mpr answered)]

end Events

section Run

variable (client : Http.Client) (stdout : Sink) (arguments : Arguments) (report : Report)

def probedPaths : List String := Probe.tried (probe client arguments) arguments.stopOnSuccess accountEndpoints

theorem probing_unlogged :
    Effect.logLines (Log.terseFilter logTargets)
      (Probe.all (probe client arguments) arguments.stopOnSuccess stdout accountEndpoints).events = [] := by
  apply Effect.log_lines_omitted
  intro event logged
  have under : Log.libraryName.toList <+: Probe.logTarget.toList := by decide
  obtain ⟨path, _, fetched⟩ := Probe.all_events_fetched _ _ stdout _ event logged
  rcases Probe.fetch_events_cases _ path event fetched with ⟨url, rfl⟩ | ⟨url, status, rfl⟩
  · exact Log.library_event_omitted logs _ under (show (3 : Nat) < 4 by decide)
  · exact Log.library_event_omitted logs _ under (show (3 : Nat) < 5 by decide)

variable (taken : (Probe.all (probe client arguments) arguments.stopOnSuccess stdout accountEndpoints).report =
  some (.ok report))
include taken

theorem report_whole :
    Probe.Reports (probe client arguments) (probedPaths client arguments) report ∧
      (Probe.all (probe client arguments) arguments.stopOnSuccess stdout accountEndpoints).written =
        report.flatMap Probe.lineBytes := by
  have reached := Probe.all_unfailed (probe client arguments) arguments.stopOnSuccess stdout accountEndpoints
    fun failure => by rw [taken]; exact nofun
  rw [reached] at taken ⊢
  obtain ⟨whole, same, reports⟩ := (Probe.report_iff _ _ _).mp taken
  cases same
  refine ⟨reports, ?_⟩
  rw [((Probe.reports_iff _ _ report).mp reports).1]
  rfl

theorem run_with_report :
    run client stdout arguments =
      [.log (starting arguments.rpcUrl), .print (report.flatMap Probe.lineBytes)] ++
      ((Probe.all (probe client arguments) arguments.stopOnSuccess stdout accountEndpoints).requests.map
        Http.requestText).map Effect.request ++
      (Probe.all (probe client arguments) arguments.stopOnSuccess stdout accountEndpoints).events.map Effect.log ++
      (reportEvents arguments.rpcUrl report).map Effect.log := by
  rw [run, taken, (report_whole client stdout arguments report taken).2, List.map_map]
  rfl

theorem reported_stdout (filter : Log.Filter) :
    (Execution.ofEffects filter (run client stdout arguments)).stdout = report.flatMap Probe.lineBytes := by
  rw [run_with_report client stdout arguments report taken]
  simp only [Execution.ofEffects, List.flatMap_append, Effect.printed_of_logs, Effect.printed_of_requests]
  simp [Effect.printed]

theorem reported_stderr :
    (Execution.ofEffects (Log.terseFilter logTargets) (run client stdout arguments)).stderr =
      Effect.logLines (Log.terseFilter logTargets) [starting arguments.rpcUrl] ++
        Effect.logLines (Log.terseFilter logTargets) (reportEvents arguments.rpcUrl report) := by
  rw [run_with_report client stdout arguments report taken]
  simp only [Execution.ofEffects, List.flatMap_append, Effect.error_lines_of_logs, Effect.error_lines_of_requests,
    probing_unlogged]
  simp [Effect.errorLines, Effect.logLines]

theorem report_lines (plain : PlainValues arguments.rpcUrl report) :
    Effect.logLines (Log.terseFilter logTargets) (reportEvents arguments.rpcUrl report) =
      report.flatMap (fun entry => pathLines entry.path entry.outcome) ++
        if ∃ path ∈ probedPaths client arguments, Probe.Answers (probe client arguments) path then []
        else ["WARN find_devnet_accounts: No endpoint answered. url=" ++ arguments.rpcUrl.text] := by
  have reports := (report_whole client stdout arguments report taken).1
  have named : ∀ entry ∈ report, Unbroken entry.path := by
    have endpoints : ∀ path ∈ accountEndpoints, Unbroken path := by decide
    intro entry member
    have begins := Probe.tried_begins (probe client arguments) arguments.stopOnSuccess accountEndpoints
    have listed : entry.path ∈ report.map Probed.path := List.mem_map_of_mem member
    rw [((Probe.reports_iff _ _ report).mp reports).1, Probe.heard_paths] at listed
    exact endpoints entry.path (begins.subset (List.mem_of_mem_take listed))
  have shown : ∀ event ∈ reportEvents arguments.rpcUrl report, Shown event := by
    intro event logged
    rw [report_events _ _ report reports] at logged
    rcases List.mem_append.mp logged with about | warning
    · obtain ⟨entry, member, inside⟩ := List.mem_flatMap.mp about
      exact path_events_shown entry.path _ (named entry member) (plain.accounts entry member) event inside
    · by_cases answered : ∃ path ∈ probedPaths client arguments, Probe.Answers (probe client arguments) path
      · rw [if_pos answered] at warning
        cases warning
      · rw [if_neg answered] at warning
        rw [List.mem_singleton.mp warning]
        exact no_answer_shown arguments.rpcUrl plain.address
  rw [shown_lines _ shown, report_events _ _ report reports, List.map_append, List.map_flatMap]
  simp only [path_events_text]
  congr 1
  rw [apply_ite (List.map Log.Event.text)]
  rw [List.map_nil, List.map_singleton, no_answer_text]

end Run

theorem answer_printed (report : Report) (entry : Probed) (body : String) (member : entry ∈ report)
    (answered : entry.outcome = .ok body) :
    ∃ before after, report.flatMap Probe.lineBytes =
      before ++ Utf8.encode ("Success on " ++ entry.path ++ ": " ++ body ++ "\n") ++ after := by
  obtain ⟨front, back, rfl⟩ := List.append_of_mem member
  have line : Probe.lineBytes entry = Utf8.encode ("Success on " ++ entry.path ++ ": " ++ body ++ "\n") := by
    rw [Probe.line_bytes_encoded, answered]
    rfl
  exact ⟨front.flatMap Probe.lineBytes, back.flatMap Probe.lineBytes, by simp [line]⟩

-- The lines on standard error are about the URL, about the answers that list accounts, in the order in which
-- they are printed, and about the absence of answers.
theorem discovery_logs_answers (client : Http.Client) (stdout : Sink) (environment : Environment) (words : List String)
    (arguments : Arguments) (report : Report)
    (accepted : Arguments.parse environment words = .ok arguments)
    (terse : ∀ word ∈ words, interface.mentions .verbose word = false)
    (unset : environment Variable.logFilter = none)
    (taken : (Probe.all (probe client arguments) arguments.stopOnSuccess stdout accountEndpoints).report =
      some (.ok report))
    (plain : PlainValues arguments.rpcUrl report) :
    Probe.Reports (probe client arguments) (probedPaths client arguments) report ∧
    (execute client stdout environment words).stderr =
      ("INFO find_devnet_accounts: Probing devnet endpoints. url=" ++ arguments.rpcUrl.text) ::
        (report.flatMap (fun entry => pathLines entry.path entry.outcome) ++
          if ∃ path ∈ probedPaths client arguments, Probe.Answers (probe client arguments) path then []
          else ["WARN find_devnet_accounts: No endpoint answered. url=" ++ arguments.rpcUrl.text]) ∧
    ∀ entry ∈ report, ∀ body accounts, entry.outcome = .ok body → Account.parseList? body = some accounts →
      ∃ before after, (execute client stdout environment words).stdout =
        before ++ Utf8.encode ("Success on " ++ entry.path ++ ": " ++ body ++ "\n") ++ after := by
  have executed := (lawful client stdout).execute_tersely environment words arguments accepted terse unset
  have first := shown_lines _ (List.forall_mem_singleton.mpr (starting_shown arguments.rpcUrl plain.address))
  rw [List.map_singleton, starting_text] at first
  refine ⟨(report_whole client stdout arguments report taken).1, ?_, ?_⟩
  · refine (congrArg Execution.stderr executed).trans ((reported_stderr client stdout arguments report taken).trans ?_)
    rw [first, report_lines client stdout arguments report taken plain]
    rfl
  · intro entry member body _ answered _
    obtain ⟨before, after, printed⟩ := answer_printed report entry body member answered
    exact ⟨before, after, (congrArg Execution.stdout executed).trans
      ((reported_stdout client stdout arguments report taken _).trans printed)⟩

deriving instance DecidableEq for Probed

def listing : String := "[[\x220x1\x22,\x22p\x22,\x22q\x22,\x221000\x22],[\x220x2\x22,\x22p\x22,\x22q\x22,\x220\x22]]"

def served (target body : String) : Http.Route :=
  ⟨target, .respond { status := 200, location := none, body := .whole (Utf8.encode body) }⟩

def listingNode : Http.Node :=
  ⟨[served "/predeployed-accounts" listing, served "/accounts" "[]", served "/version" "0.1.2"]⟩

def listingClient : Http.Client := .scripted listingNode.network

def listingUrl : Url := ⟨"http", some ⟨"", "", .ipv4 2130706433, some 5060⟩, "/", none, none⟩

def listingArguments : Arguments := ⟨listingUrl, none, false, .off⟩

def listingReport : Report := Probe.heard (probe listingClient listingArguments) accountEndpoints

theorem discovery_logs_answers_listing :
    (∃ before after, (execute listingClient .unlimited (fun _ => none) ["-q"]).stdout =
      before ++ Utf8.encode "Success on /accounts: []\n" ++ after) ∧
    (execute listingClient .unlimited (fun _ => none) ["-q"]).stderr =
      ["INFO find_devnet_accounts: Probing devnet endpoints. url=http://127.0.0.1:5060/",
        "INFO find_devnet_accounts: Found predeployed accounts. path=\x22/predeployed-accounts\x22 count=2",
        "INFO find_devnet_accounts: Predeployed account. address=0x1 initial_balance=1000",
        "INFO find_devnet_accounts: Predeployed account. address=0x2 initial_balance=0",
        "INFO find_devnet_accounts: Found predeployed accounts. path=\x22/accounts\x22 count=0"] := by
  have accepted : Arguments.parse (fun _ => none) ["-q"] = .ok listingArguments := by decide +kernel
  have plain : PlainValues listingArguments.rpcUrl listingReport := ⟨by decide +kernel, by decide +kernel⟩
  have returns : ∀ path ∈ accountEndpoints, (Probe.fetch (probe listingClient listingArguments) path).outcome ≠ none := by
    decide +kernel
  obtain ⟨_, stderr, printed⟩ := discovery_logs_answers listingClient .unlimited (fun _ => none) ["-q"] listingArguments
    listingReport accepted (by decide) rfl (Probe.all_report _ _ returns) plain
  have listed : (⟨"/accounts", .ok "[]"⟩ : Probed) ∈ listingReport := by decide +kernel
  refine ⟨printed _ listed "[]" [] rfl rfl, ?_⟩
  rw [stderr]
  decide +kernel

end Devnet.Discover
