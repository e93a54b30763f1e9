import Devnet.Log.Event
import Devnet.Log.Pattern

/-
Directives of a log filter. A directive is a level, or a target with an optional span in square
brackets, an optional field in braces inside them, and an optional level behind an equals sign.
-/
set_option autoImplicit false

namespace Devnet.Log

structure FieldMatch where
  name : String
  hasValue : Bool
  deriving DecidableEq, Repr

structure Directive where
  target : Option String
  span : Option String
  field : Option FieldMatch
  threshold : Threshold
  deriving DecidableEq, Repr

def lowerName (text : List Char) : String :=
  String.ofList (text.map fun c =>
    if 0x41 ≤ c.toNat ∧ c.toNat ≤ 0x5A then Char.ofNat (c.toNat + 0x20) else c)

-- A threshold by number or by name, in any case; the empty text is `error`.
def Threshold.parse? (text : List Char) : Option Threshold :=
  match (Numeral.word (String.ofList text)).toOption with
  | some n => if n ≤ 5 then some (.ofRank n) else none
  | none =>
      match lowerName text with
      | "" => some (.upTo .error)
      | "off" => some .off
      | "error" => some (.upTo .error)
      | "warn" => some (.upTo .warn)
      | "info" => some (.upTo .info)
      | "debug" => some (.upTo .debug)
      | "trace" => some (.upTo .trace)
      | _ => none

/-! Values -/

def isDigit (c : Char) : Bool := (Numeral.digit? 10 c).isSome

def isExponent (text : List Char) : Bool :=
  match text with
  | [] => true
  | mark :: rest =>
      let digits :=
        match rest with
        | '+' :: digits => digits
        | '-' :: digits => digits
        | digits => digits
      (mark == 'e' || mark == 'E') && !digits.isEmpty && digits.all isDigit

def isDecimal (text : List Char) : Bool :=
  let whole := text.takeWhile isDigit
  match text.dropWhile isDigit with
  | '.' :: rest =>
      !(whole.isEmpty && (rest.takeWhile isDigit).isEmpty) && isExponent (rest.dropWhile isDigit)
  | rest => !whole.isEmpty && isExponent rest

def isSignedNumber (text : List Char) : Bool :=
  match text with
  | '+' :: number => ["inf", "infinity", "nan"].contains (lowerName number) || isDecimal number
  | _ => false

-- A value to compare a field with: a pattern, as numbers without a plus sign are too, or a number
-- with one.
def isValue (text : List Char) : Bool := isSignedNumber text || Pattern.isPattern text

-- A name and, behind an equals sign, a value, which the next equals sign ends.
def FieldMatch.parse? (text : List Char) : Option FieldMatch :=
  let name := String.ofList (text.takeWhile (· ≠ '='))
  match text.dropWhile (· ≠ '=') with
  | _ :: rest => if isValue (rest.takeWhile (· ≠ '=')) then some ⟨name, true⟩ else none
  | [] => if text.isEmpty then none else some ⟨name, false⟩

/-! Layout -/

structure Extent where
  start : Nat
  stop : Nat
  deriving DecidableEq, Repr

-- Where the parts of a directive stand. The level goes on to the end.
inductive Layout where
  | word
  | parts (target span field : Option Extent) (level : Option Nat)
  deriving DecidableEq, Repr

def advance (stops : Char → Bool) (position : Nat) : List Char → Nat × List Char
  | [] => (position, [])
  | c :: rest => if stops c then (position, c :: rest) else advance stops (position + c.utf8Size) rest

def levelStart? (position : Nat) : List Char → Option (Option Nat)
  | [] => some none
  | '=' :: _ => some (some (position + 1))
  | _ => none

-- The inside of square brackets from a position on, and what follows. An empty name in front of a
-- field is none.
def bracketLayout? (target : Option Extent) (start : Nat) (text : List Char) : Option Layout :=
  let (stop, rest) := advance (fun c => c == ']' || c == '\x7b') start text
  match rest with
  | [] => none
  | ']' :: rest =>
      (levelStart? (stop + 1) rest).map fun level => .parts target (some ⟨start, stop⟩) none level
  | _ :: rest =>
      let (fieldStop, rest) := advance (· == '\x7d') (stop + 1) rest
      match rest with
      | _ :: ']' :: rest =>
          let span := if start = stop then none else some ⟨start, stop⟩
          (levelStart? (fieldStop + 2) rest).map fun level =>
            .parts target span (some ⟨stop + 1, fieldStop⟩) level
      | _ => none

def startsTarget (c : Char) : Bool := ['-', ':', '_'].contains c || Alphanumeric.isAlphanumeric c

def layout? (text : List Char) : Option Layout :=
  match text with
  | [] => none
  | first :: inside =>
      if first = '[' then bracketLayout? none 1 inside
      else if startsTarget first then
        let (stop, rest) := advance (fun c => c == '=' || c == '[') 0 text
        match rest with
        | [] => some .word
        | '[' :: rest => bracketLayout? (some ⟨0, stop⟩) (stop + 1) rest
        | _ => some (.parts (some ⟨0, stop⟩) none none (some (stop + 1)))
      else none

def dropBytes? (count : Nat) : List Char → Option (List Char)
  | [] => if count = 0 then some [] else none
  | c :: rest =>
      if count = 0 then some (c :: rest)
      else if c.utf8Size ≤ count then dropBytes? (count - c.utf8Size) rest
      else none

def takeBytes? (count : Nat) : List Char → Option (List Char)
  | [] => if count = 0 then some [] else none
  | c :: rest =>
      if count = 0 then some []
      else if c.utf8Size ≤ count then (takeBytes? (count - c.utf8Size) rest).map (c :: ·)
      else none

def Extent.cut? (extent : Extent) (text : List Char) : Option (List Char) :=
  (dropBytes? extent.start text).bind (takeBytes? (extent.stop - extent.start))

def name? (extent : Option Extent) (text : List Char) : Option (Option String) :=
  match extent with
  | none => some none
  | some extent => (extent.cut? text).map fun name => some (String.ofList name)

def field? (extent : Option Extent) (text : List Char) : Option (Option FieldMatch) :=
  match extent with
  | none => some none
  | some extent => ((extent.cut? text).bind FieldMatch.parse?).map some

-- The threshold behind an equals sign; where nothing is written, every level passes.
def threshold? (start : Option Nat) (text : List Char) : Option Threshold :=
  match start with
  | none => some (.upTo .trace)
  | some start =>
      match dropBytes? start text with
      | none => none
      | some [] => some (.upTo .trace)
      | some level => Threshold.parse? level

def Directive.ofWord (text : List Char) : Directive :=
  match Threshold.parse? text with
  | some threshold => ⟨none, none, none, threshold⟩
  | none => ⟨some (String.ofList text), none, none, .upTo .trace⟩

-- A directive. Blanks around the text are no part of its layout, but what the layout tells is cut
-- out of the text with them: its positions count from the start of the whole text, and a level or a
-- single word goes on to its end.
def Directive.parse? (text : List Char) : Option Directive :=
  match layout? (Blank.trim text) with
  | none => none
  | some .word => some (.ofWord text)
  | some (.parts target span field level) =>
      match name? target text, name? span text, field? field text, threshold? level text with
      | some target, some span, some field, some threshold => some ⟨target, span, field, threshold⟩
      | _, _, _, _ => none

-- A directive with a span or with the value of a field is about spans alone.
def Directive.concernsEvents (directive : Directive) : Bool :=
  directive.span.isNone && directive.field.all fun field => !field.hasValue

end Devnet.Log
