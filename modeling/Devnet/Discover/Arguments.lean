import Devnet.CommandLine.Options
import Devnet.Http.Client

set_option autoImplicit false

namespace Devnet.Discover

open CommandLine

inductive Opt where
  | rpcUrl
  | timeout
  | stopOnSuccess
  | verbose
  | quiet
  | help
  | version
  deriving DecidableEq, Repr

def checkSeconds (text : String) : Except ValueError Unit :=
  match Numeral.word text with
  | .ok _ => .ok ()
  | .error e => .error (.malformed e.message)

def spec : Opt → Spec Opt
  | .rpcUrl => rpcUrlSpec Opt
  | .timeout => { textSpec Opt "timeout" "SECONDS" none with check := checkSeconds }
  | .stopOnSuccess => plainSpec Opt "stop-on-success" none .flag
  | .verbose => verboseSpec .quiet
  | .quiet => quietSpec .verbose
  | .help => helpSpec Opt
  | .version => versionSpec Opt

def interface : Interface Opt :=
  { options := [.rpcUrl, .timeout, .stopOnSuccess, .verbose, .quiet, .help, .version]
    spec
    requirements := [] }

structure Arguments where
  rpcUrl : Url
  timeout : Option Nat
  stopOnSuccess : Bool
  verbosity : Log.Threshold
  deriving DecidableEq, Repr

namespace Arguments

-- How long a request is waited for; without end when nothing is given.
def requestTimeout (arguments : Arguments) : Option Duration := arguments.timeout.map Duration.ofSeconds

def ofMatches (found : Matches Opt) : Except Stop Arguments :=
  let urlText := (found.value? .rpcUrl).getD Default.rpcUrl
  match Url.parse urlText with
  | .error e => .error (.rejected (.malformedValue (interface.display .rpcUrl) urlText e.message))
  | .ok rpcUrl =>
      .ok
        { rpcUrl
          timeout := (found.value? .timeout).bind fun text => (Numeral.word text).toOption
          stopOnSuccess := found.given .stopOnSuccess
          verbosity := Log.verbosity (found.uses .verbose) (found.uses .quiet) }

def reader : Reader Opt Arguments := ⟨interface, ofMatches, verbosity⟩

def parse : Environment → List String → Except Stop Arguments := reader.parse

end Arguments
end Devnet.Discover
