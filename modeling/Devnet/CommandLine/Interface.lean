import Devnet.Text.Numeral
import Devnet.Text.Terminal

set_option autoImplicit false

namespace Devnet.CommandLine

abbrev Environment := String → Option String

inductive Arity where
  | flag
  | count
  | one
  | many
  | help
  | version
  deriving DecidableEq, Repr

inductive ValueError where
  | notAChoice
  | malformed (reason : String)
  deriving DecidableEq, Repr

structure Spec (ι : Type) where
  long : String
  short : Option Char
  arity : Arity
  placeholder : String
  variableName : Option String
  check : String → Except ValueError Unit
  excludes : List ι

structure Requirement (ι : Type) where
  option : ι
  other : ι
  value : String

structure Interface (ι : Type) where
  options : List ι
  spec : ι → Spec ι
  requirements : List (Requirement ι)

def anyText (_ : String) : Except ValueError Unit := .ok ()

def Spec.display {ι : Type} (spec : Spec ι) : String :=
  "--" ++ spec.long ++
    (match spec.arity with
      | .one => " <" ++ spec.placeholder ++ ">"
      | .many => " [<" ++ spec.placeholder ++ ">...]"
      | .count => "..."
      | _ => "")

def Spec.takesValue {ι : Type} (spec : Spec ι) : Bool :=
  match spec.arity with
  | .one => true
  | .many => true
  | _ => false

namespace Interface

variable {ι : Type}

def long? (interface : Interface ι) (name : String) : Option ι :=
  interface.options.find? fun option => (interface.spec option).long == name

def short? (interface : Interface ι) (c : Char) : Option ι :=
  interface.options.find? fun option => (interface.spec option).short == some c

def display (interface : Interface ι) (option : ι) : String := (interface.spec option).display

end Interface

inductive UsageError where
  | unexpectedArgument (text : String)
  | missingValue (option : String)
  | notAChoice (option value : String)
  | malformedValue (option value reason : String)
  | unexpectedValue (option value : String)
  | repeated (option : String)
  | conflict (option other : String)
  | missingRequired
  deriving DecidableEq, Repr

-- The first sentence about a rejected command line. What was typed is quoted without control
-- sequences.
def UsageError.message : UsageError → String
  | .unexpectedArgument text => s!"error: unexpected argument '{Terminal.plain text}' found"
  | .missingValue option => s!"error: a value is required for '{option}' but none was supplied"
  | .notAChoice option value =>
      if value = "" then s!"error: a value is required for '{option}' but none was supplied"
      else s!"error: invalid value '{Terminal.plain value}' for '{option}'"
  | .malformedValue option value reason =>
      s!"error: invalid value '{Terminal.plain value}' for '{option}': {reason}"
  | .unexpectedValue option value =>
      s!"error: unexpected value '{Terminal.plain value}' for '{option}' found; no more were expected"
  | .repeated option => s!"error: the argument '{option}' cannot be used multiple times"
  | .conflict option other => s!"error: the argument '{option}' cannot be used with '{other}'"
  | .missingRequired => "error: the following required arguments were not provided:"

inductive Stop where
  | help
  | version
  | rejected (e : UsageError)
  deriving DecidableEq, Repr

end Devnet.CommandLine
