set_option autoImplicit false

namespace Devnet.Log

inductive Level where
  | error
  | warn
  | info
  | debug
  | trace
  deriving DecidableEq, Repr

def Level.rank : Level → Nat
  | .error => 1
  | .warn => 2
  | .info => 3
  | .debug => 4
  | .trace => 5

def Level.name : Level → String
  | .error => "ERROR"
  | .warn => "WARN"
  | .info => "INFO"
  | .debug => "DEBUG"
  | .trace => "TRACE"

inductive Threshold where
  | off
  | upTo (level : Level)
  deriving DecidableEq, Repr

def Threshold.rank : Threshold → Nat
  | .off => 0
  | .upTo level => level.rank

def Threshold.name : Threshold → String
  | .off => "OFF"
  | .upTo level => level.name

def Threshold.admits (threshold : Threshold) (level : Level) : Bool := level.rank ≤ threshold.rank

def Threshold.ofRank : Nat → Threshold
  | 0 => .off
  | 1 => .upTo .error
  | 2 => .upTo .warn
  | 3 => .upTo .info
  | 4 => .upTo .debug
  | _ => .upTo .trace

structure Field where
  name : String
  value : String
  deriving DecidableEq, Repr

structure Event where
  level : Level
  target : String
  message : String
  fields : List Field
  deriving DecidableEq, Repr

-- Every field of an event has a name; the message is the field `message`.
def Event.fieldNames (event : Event) : List String := "message" :: event.fields.map Field.name

def Field.text (field : Field) : String := " " ++ field.name ++ "=" ++ field.value

def Event.text (event : Event) : String :=
  event.level.name ++ " " ++ event.target ++ ": " ++ event.message ++
    String.join (event.fields.map Field.text)

end Devnet.Log
