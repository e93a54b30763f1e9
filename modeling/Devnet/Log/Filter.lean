import Devnet.Log.Directive

set_option autoImplicit false

namespace Devnet.Log

abbrev Filter := List Directive

def filterParts (current : List Char) : List Char → List (List Char)
  | [] => if current.isEmpty then [] else [current.reverse]
  | c :: rest =>
      if c = ',' then
        if current.isEmpty then filterParts [] rest else current.reverse :: filterParts [] rest
      else filterParts (c :: current) rest

def Filter.parse? (text : String) : Option Filter :=
  (filterParts [] text.toList).mapM Directive.parse?

def Filter.parseLenient (text : String) : Filter :=
  (filterParts [] text.toList).filterMap Directive.parse?

def Directive.applies (directive : Directive) (event : Event) : Bool :=
  directive.concernsEvents &&
    (match directive.target with
      | none => true
      | some target => target.toList.isPrefixOf event.target.toList) &&
    directive.field.all fun field => event.fieldNames.contains field.name

def Directive.targetRank (directive : Directive) : Nat :=
  match directive.target with
  | none => 0
  | some target => target.utf8ByteSize + 1

-- `other` is at least as specific: a longer target, then a field where there is none, then a greater
-- name of the field.
def Directive.yieldsTo (directive other : Directive) : Bool :=
  if directive.targetRank ≠ other.targetRank then directive.targetRank < other.targetRank
  else
    match directive.field, other.field with
    | none, _ => true
    | some _, none => false
    | some asked, some more => asked.name = more.name ∨ asked.name < more.name

def Filter.decisive (filter : Filter) (event : Event) : Option Directive :=
  (filter.filter fun directive => directive.applies event).foldl
    (fun best directive =>
      match best with
      | none => some directive
      | some best => if best.yieldsTo directive then some directive else some best)
    none

def Filter.admits (filter : Filter) (event : Event) : Bool :=
  if filter.isEmpty then Threshold.admits (.upTo .error) event.level
  else
    match filter.decisive event with
    | none => false
    | some directive => directive.threshold.admits event.level

def defaultFilterText (verbose : Bool) (targets : List String) : String :=
  let level := if verbose then "trace" else "info"
  "none,hyper=off" ++ String.join (targets.map fun name => s!",{name}={level}")

-- The threshold of a number of `-v` and `-q` flags, which starts at `error`.
def verbosity (verbose quiet : Nat) : Threshold := .ofRank (1 + verbose - quiet)

def Threshold.isVerbose (threshold : Threshold) : Bool := Level.debug.rank ≤ threshold.rank

def filterInForce (override : Option String) (threshold : Threshold) (targets : List String) : Filter :=
  match override.bind Filter.parse? with
  | some filter => filter
  | none => .parseLenient (defaultFilterText threshold.isVerbose targets)

end Devnet.Log
