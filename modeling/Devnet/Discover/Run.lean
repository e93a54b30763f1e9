import Devnet.Account
import Devnet.Execution
import Devnet.Discover.Arguments
import Devnet.Probe.Run

set_option autoImplicit false

namespace Devnet.Discover

open CommandLine

def programName : String := "find_devnet_accounts"

def logTargets : List String := [programName, "devnet_utils"]

def starting (url : Url) : Log.Event :=
  ⟨.info, programName, "Probing devnet endpoints.", [⟨"url", url.text⟩]⟩

def foundEvent (path : String) (count : Nat) : Log.Event :=
  ⟨.info, programName, "Found predeployed accounts.",
    [⟨"path", "\x22" ++ path ++ "\x22"⟩, ⟨"count", Numeral.decimal count⟩]⟩

def accountEvent (account : Account) : Log.Event :=
  ⟨.info, programName, "Predeployed account.",
    [⟨"address", account.address⟩, ⟨"initial_balance", account.initialBalance⟩]⟩

def noAnswer (url : Url) : Log.Event :=
  ⟨.warn, programName, "No endpoint answered.", [⟨"url", url.text⟩]⟩

def answerEvents (path body : String) : List Log.Event :=
  match Account.parseList? body with
  | none => []
  | some accounts => foundEvent path accounts.length :: accounts.map accountEvent

def reportEvents (url : Url) (report : Report) : List Log.Event :=
  report.successes.flatMap (fun answer => answerEvents answer.1 answer.2) ++
    if report.firstSuccess?.isNone then [noAnswer url] else []

def writeComplaint (e : SinkError) : String := s!"Failed to write the probe results: {e.message}"

def probe (client : Http.Client) (arguments : Arguments) : EndpointProbe :=
  ⟨client, arguments.requestTimeout, arguments.rpcUrl⟩

def run (client : Http.Client) (stdout : Sink) (arguments : Arguments) : List Effect :=
  let probed := Probe.all (probe client arguments) arguments.stopOnSuccess stdout accountEndpoints
  [.log (starting arguments.rpcUrl), .print probed.written] ++
    probed.requests.map (fun url => .request (Http.requestText url)) ++
    probed.events.map Effect.log ++
    (match probed.report with
      | none => [.wait]
      | some (.ok report) => (reportEvents arguments.rpcUrl report).map Effect.log
      | some (.error e) => [.complain (writeComplaint e)])

def program (client : Http.Client) (stdout : Sink) : Program Opt Arguments :=
  { Arguments.reader with name := programName, logTargets, stdout, run := run client stdout }

def execute (client : Http.Client) (stdout : Sink) : Environment → List String → Execution :=
  (program client stdout).execute

end Devnet.Discover
