import Devnet.Http.Client
import Devnet.Url.Parser

set_option autoImplicit false

namespace Devnet

inductive SinkError where
  | writeZero
  | noSpace
  deriving DecidableEq, Repr

def SinkError.message : SinkError → String
  | .writeZero => "failed to write whole buffer"
  | .noSpace => "No space left on device (os error 28)"

inductive Sink where
  | unlimited
  | limited (room : Nat) (failure : SinkError)
  deriving DecidableEq, Repr

namespace Sink

def write (sink : Sink) (bytes : Bytes) : Bytes × Except SinkError Sink :=
  match sink with
  | .unlimited => (bytes, .ok .unlimited)
  | .limited room failure =>
      if bytes.length ≤ room then (bytes, .ok (.limited (room - bytes.length) failure))
      else (bytes.take room, .error failure)

def writePieces (sink : Sink) : List Bytes → Bytes × Except SinkError Sink
  | [] => ([], .ok sink)
  | piece :: rest =>
      match sink.write piece with
      | (taken, .error e) => (taken, .error e)
      | (taken, .ok sink) =>
          let later := writePieces sink rest
          (taken ++ later.1, later.2)

end Sink

-- Why an endpoint gave no text. Every URL in it is the endpoint that was asked for.
inductive ProbeError where
  | invalidUrl (path : String) (cause : Url.ParseError)
  | connect (url : Url) (cause : Http.Failure)
  | timeout (url : Url)
  | status (url : Url) (code : Http.Status)
  | body (url : Url) (cause : Http.Failure)
  | decode (url : Url) (cause : Utf8.DecodeError)
  | request (url : Url) (cause : Http.Failure)
  deriving DecidableEq, Repr

namespace ProbeError

def message : ProbeError → String
  | .invalidUrl path cause => s!"invalid endpoint `{path}`: {cause.message}"
  | .connect url cause => s!"connection to {url.text} failed: {cause.text}"
  | .timeout url => s!"request to {url.text} timed out"
  | .status url code =>
      "HTTP Error " ++ Numeral.decimal code ++ " " ++ Http.Status.reason code ++ " for " ++ url.text
  | .body url cause => s!"failed to read response body from {url.text}: {cause.text}"
  | .decode url cause => s!"failed to decode response body from {url.text}: {cause.message}"
  | .request url cause => s!"request to {url.text} failed: {cause.text}"

def ofSend (url : Url) (cause : Http.Failure) : ProbeError :=
  if cause.isTimeout then .timeout url
  else if cause.isConnect then .connect url cause
  else .request url cause

end ProbeError

abbrev Outcome := Except ProbeError String

structure Probed where
  path : String
  outcome : Outcome

namespace Probed

def body? (probed : Probed) : Option String := probed.outcome.toOption

def pieces (probed : Probed) : List String :=
  match probed.outcome with
  | .ok body => ["Success on ", probed.path, ": ", body, "\n"]
  | .error e => ["Error: ", e.message, "\n"]

end Probed

abbrev Report := List Probed

namespace Report

def successes (report : Report) : List (String × String) :=
  report.filterMap fun probed => probed.body?.map fun body => (probed.path, body)

def firstSuccess? (report : Report) : Option (String × String) :=
  report.findSome? fun probed => probed.body?.map fun body => (probed.path, body)

end Report
end Devnet
