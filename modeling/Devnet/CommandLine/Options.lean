import Devnet.CommandLine.Parser
import Devnet.Defaults
import Devnet.Log.Filter
import Devnet.Url.Parser

set_option autoImplicit false

namespace Devnet.CommandLine

def plainSpec (ι : Type) (long : String) (short : Option Char) (arity : Arity) : Spec ι :=
  { long, short, arity, placeholder := "", variableName := none, check := anyText, excludes := [] }

def textSpec (ι : Type) (long placeholder : String) (variableName : Option String) : Spec ι :=
  { long, short := none, arity := .one, placeholder, variableName, check := anyText, excludes := [] }

def checkUrl (text : String) : Except ValueError Unit :=
  match Url.parse text with
  | .ok _ => .ok ()
  | .error e => .error (.malformed e.message)

def rpcUrlSpec (ι : Type) : Spec ι :=
  { textSpec ι "rpc-url" "URL" (some Variable.rpcUrl) with check := checkUrl }

def verboseSpec {ι : Type} (quiet : ι) : Spec ι :=
  { plainSpec ι "verbose" (some 'v') .count with excludes := [quiet] }

def quietSpec {ι : Type} (verbose : ι) : Spec ι :=
  { plainSpec ι "quiet" (some 'q') .count with excludes := [verbose] }

def helpSpec (ι : Type) : Spec ι := plainSpec ι "help" (some 'h') .help

def versionSpec (ι : Type) : Spec ι := plainSpec ι "version" (some 'V') .version

structure Reader (ι α : Type) where
  interface : Interface ι
  ofMatches : Matches ι → Except Stop α
  verbosity : α → Log.Threshold

def Reader.parse {ι α : Type} [DecidableEq ι] (reader : Reader ι α) (environment : Environment)
    (words : List String) : Except Stop α := do
  reader.ofMatches (← reader.interface.parse environment words)

end Devnet.CommandLine
