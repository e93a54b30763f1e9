import Devnet.CommandLine.Options
import Devnet.Probe.Outcome
import Devnet.Wallet.Command

set_option autoImplicit false

namespace Devnet

namespace Line

-- A line, written backwards, without the carriage return at its end.
def ofReverse (line : List Char) : String :=
  match line with
  | '\r' :: rest => String.ofList rest.reverse
  | _ => String.ofList line.reverse

def first (text : String) : String := ofReverse (text.toList.takeWhile (· ≠ '\n')).reverse

-- The lines of `rest`, the first of which goes on after `current`, written backwards.
def splitFrom (current : List Char) : List Char → List String
  | [] => [ofReverse current]
  | '\n' :: rest => ofReverse current :: splitFrom [] rest
  | c :: rest => splitFrom (c :: current) rest

def split (text : String) : List String := splitFrom [] text.toList

end Line

inductive Effect where
  | print (bytes : Bytes)
  | log (event : Log.Event)
  | complain (text : String)
  | request (line : String)
  | start (command : Command)
  -- Nothing comes of it, and nothing comes after it.
  | wait
  deriving DecidableEq, Repr

-- What is seen of a program. It has no exit code if it never ends.
structure Execution where
  code : Option Nat
  stdout : Bytes
  stderr : List String
  requests : List String
  started : List Command
  deriving DecidableEq, Repr

namespace Effect

def printed : Effect → Bytes
  | .print bytes => bytes
  | _ => []

def errorLines (filter : Log.Filter) : Effect → List String
  | .log event => if filter.admits event then Line.split event.text else []
  | .complain text => Line.split ("Error: " ++ text)
  | _ => []

def request? : Effect → Option String
  | .request line => some line
  | _ => none

def start? : Effect → Option Command
  | .start command => some command
  | _ => none

def logLines (filter : Log.Filter) (events : List Log.Event) : List String :=
  events.flatMap fun event => if filter.admits event then Line.split event.text else []

section Logs

variable (events : List Log.Event)

theorem printed_of_logs : (events.map Effect.log).flatMap printed = [] := by
  rw [List.flatMap_map, List.flatMap_eq_nil_iff]
  exact fun _ _ => rfl

theorem error_lines_of_logs (filter : Log.Filter) :
    (events.map Effect.log).flatMap (errorLines filter) = logLines filter events := by
  rw [List.flatMap_map]
  rfl

theorem requests_of_logs : (events.map Effect.log).filterMap request? = [] := by
  rw [List.filterMap_map, List.filterMap_eq_nil_iff]
  exact fun _ _ => rfl

theorem starts_of_logs : (events.map Effect.log).filterMap start? = [] := by
  rw [List.filterMap_map, List.filterMap_eq_nil_iff]
  exact fun _ _ => rfl

end Logs

section Requests

variable (lines : List String)

theorem printed_of_requests : (lines.map Effect.request).flatMap printed = [] := by
  rw [List.flatMap_map, List.flatMap_eq_nil_iff]
  exact fun _ _ => rfl

theorem error_lines_of_requests (filter : Log.Filter) :
    (lines.map Effect.request).flatMap (errorLines filter) = [] := by
  rw [List.flatMap_map, List.flatMap_eq_nil_iff]
  exact fun _ _ => rfl

theorem requests_of_requests : (lines.map Effect.request).filterMap request? = lines := by
  rw [List.filterMap_map]
  exact List.filterMap_some

theorem starts_of_requests : (lines.map Effect.request).filterMap start? = [] := by
  rw [List.filterMap_map, List.filterMap_eq_nil_iff]
  exact fun _ _ => rfl

end Requests
end Effect

namespace Execution

def ofEffects (filter : Log.Filter) (effects : List Effect) : Execution :=
  { code := if .wait ∈ effects then none else some 0
    stdout := effects.flatMap Effect.printed
    stderr := effects.flatMap (Effect.errorLines filter)
    requests := effects.filterMap Effect.request?
    started := effects.filterMap Effect.start? }

def usageCode : Nat := 2

def versionLine (name : String) : String := name ++ " 0.1.0\n"

-- An execution that ends with its command line. Of the help text nothing is shown, and a sink that
-- takes no text is no failure.
def ofStop (name : String) (stdout : Sink) : CommandLine.Stop → Execution
  | .help => ⟨some 0, [], [], [], []⟩
  | .version => ⟨some 0, (stdout.write (Utf8.encode (versionLine name))).1, [], [], []⟩
  | .rejected e => ⟨some usageCode, [], [Line.first e.message], [], []⟩

end Execution

structure Program (ι α : Type) extends CommandLine.Reader ι α where
  name : String
  logTargets : List String
  stdout : Sink
  run : α → List Effect

def Program.execute {ι α : Type} [DecidableEq ι] (program : Program ι α) (environment : CommandLine.Environment)
    (words : List String) : Execution :=
  match program.parse environment words with
  | .error stop => .ofStop program.name program.stdout stop
  | .ok arguments =>
      .ofEffects
        (Log.filterInForce (environment Variable.logFilter) (program.verbosity arguments) program.logTargets)
        (program.run arguments)

end Devnet
