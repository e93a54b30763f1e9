import Devnet.Defaults
import Devnet.Log.Event
import Devnet.Probe.Outcome

set_option autoImplicit false

namespace Devnet

-- A client and what it is told when it is built, which is taken to succeed. Without a timeout a request
-- waits for as long as the node keeps the connection open.
structure EndpointProbe where
  client : Http.Client
  timeout : Option Duration
  base : Url

-- What comes of one path. There is no outcome when the node is waited for without end.
structure Fetch where
  outcome : Option Outcome
  requests : List Url
  events : List Log.Event

namespace Probe

def logTarget : String := "devnet_utils::probe"

def asking (url : Url) : Log.Event :=
  ⟨.debug, logTarget, "Probing endpoint.", [⟨"url", url.text⟩]⟩

def answered (url : Url) (status : Http.Status) : Log.Event :=
  ⟨.trace, logTarget, "Endpoint answered.", [⟨"url", url.text⟩, ⟨"status", status.text⟩]⟩

-- The URL of a path. An absolute path replaces any path of the base.
def endpoint (base : Url) (path : String) : Except ProbeError Url :=
  match base.join path with
  | .ok url => .ok url
  | .error cause => .error (.invalidUrl path cause)

def decoded (url : Url) (bytes : Bytes) : Outcome :=
  match Utf8.decode bytes with
  | .ok text => .ok text
  | .error cause => .error (.decode url cause)

-- The bytes of an answer that is no success are not read.
def outcomeOf (url : Url) (answer : Http.Answer) : Option Outcome :=
  if !answer.status.isSuccess then some (.error (.status url answer.status))
  else
    match answer.bytes with
    | none => none
    | some (.error cause) => some (.error (.body url cause))
    | some (.ok bytes) => some (decoded url bytes)

def fetch (probe : EndpointProbe) (path : String) : Fetch :=
  match endpoint probe.base path with
  | .error e => ⟨some (.error e), [], []⟩
  | .ok url =>
      let exchange := probe.client.get probe.timeout url
      match exchange.result with
      | none => ⟨none, exchange.requests, [asking url]⟩
      | some (.error cause) => ⟨some (.error (.ofSend url cause)), exchange.requests, [asking url]⟩
      | some (.ok answer) =>
          ⟨outcomeOf url answer, exchange.requests, [asking url, answered url answer.status]⟩

-- What a run over several paths comes to: the report or the error of the sink, unless a node is waited for
-- without end; the bytes that the sink took, the requests that were received, and the log.
structure Run where
  report : Option (Except SinkError Report)
  written : Bytes
  requests : List Url
  events : List Log.Event

namespace Run

def empty : Run := ⟨some (.ok []), [], [], []⟩

def after (run : Run) (probed : Probed) (fetched : Fetch) (taken : Bytes) : Run :=
  { report := run.report.map (Except.map (probed :: ·))
    written := taken ++ run.written
    requests := fetched.requests ++ run.requests
    events := fetched.events ++ run.events }

def cut (fetched : Fetch) (taken : Bytes) (e : SinkError) : Run :=
  ⟨some (.error e), taken, fetched.requests, fetched.events⟩

def stuck (fetched : Fetch) : Run := ⟨none, [], fetched.requests, fetched.events⟩

end Run

-- Probes paths and writes a line for each; with `stopOnSuccess` the first answer is the last. A failing
-- endpoint never ends the run; a failing sink does.
def all (probe : EndpointProbe) (stopOnSuccess : Bool) : Sink → List String → Run
  | _, [] => .empty
  | sink, path :: rest =>
      let fetched := fetch probe path
      match fetched.outcome with
      | none => .stuck fetched
      | some outcome =>
          let probed : Probed := ⟨path, outcome⟩
          match sink.writePieces (probed.pieces.map Utf8.encode) with
          | (taken, .error e) => .cut fetched taken e
          | (taken, .ok sink) =>
              if stopOnSuccess && probed.body?.isSome then Run.empty.after probed fetched taken
              else (all probe stopOnSuccess sink rest).after probed fetched taken

end Probe
end Devnet
