import Devnet.Json.Value
import Devnet.Text.Numeral

set_option autoImplicit false

namespace Devnet.Json

def isBlank (c : Char) : Bool := c == ' ' || c == '\t' || c == '\n' || c == '\r'

def skipBlanks (text : List Char) : List Char := text.dropWhile isBlank

def isDigit (c : Char) : Bool := (Numeral.digit? 10 c).isSome

def digits? (text : List Char) : Option (List Char × List Char) :=
  let digits := text.takeWhile isDigit
  if digits.isEmpty then none else some (digits, text.dropWhile isDigit)

def whole? (text : List Char) : Option (List Char × List Char) :=
  match digits? text with
  | some ('0' :: _ :: _, _) => none
  | result => result

def fraction? (text : List Char) : Option (Option (List Char) × List Char) :=
  match text with
  | '.' :: rest => (digits? rest).map fun (digits, rest) => (some digits, rest)
  | _ => some (none, text)

def exponentSign (text : List Char) : Bool × List Char :=
  match text with
  | '-' :: rest => (true, rest)
  | '+' :: rest => (false, rest)
  | _ => (false, text)

def exponent? (text : List Char) : Option (Option Exponent × List Char) :=
  match text with
  | c :: rest =>
      if c = 'e' ∨ c = 'E' then
        let (negative, rest) := exponentSign rest
        (digits? rest).map fun (digits, rest) => (some ⟨negative, digits⟩, rest)
      else some (none, text)
  | [] => some (none, [])

def minusSign (text : List Char) : Bool × List Char :=
  match text with
  | '-' :: rest => (true, rest)
  | _ => (false, text)

def literal? (text : List Char) : Option (Literal × List Char) := do
  let (negative, rest) := minusSign text
  let (whole, rest) ← whole? rest
  let (fraction, rest) ← fraction? rest
  let (exponent, rest) ← exponent? rest
  return (⟨negative, whole, fraction, exponent⟩, rest)

def simpleEscape? (c : Char) : Option Char :=
  match c with
  | '\x22' => some '\x22'
  | '\\' => some '\\'
  | '/' => some '/'
  | 'b' => some '\x08'
  | 'f' => some '\x0c'
  | 'n' => some '\n'
  | 'r' => some '\r'
  | 't' => some '\t'
  | _ => none

def isHighSurrogate (code : Nat) : Bool := 0xD800 ≤ code && code ≤ 0xDBFF

def isLowSurrogate (code : Nat) : Bool := 0xDC00 ≤ code && code ≤ 0xDFFF

def unitOf (code : Nat) : TextUnit :=
  if isHighSurrogate code || isLowSurrogate code then .surrogate code else .char (Char.ofNat code)

-- A text in front of which an escape for `code` is put: a high surrogate takes the low one that
-- follows it.
def consUnit (code : Nat) (text : Text) : Text :=
  match text with
  | .surrogate low :: rest =>
      if isHighSurrogate code && isLowSurrogate low then
        .char (Char.ofNat (0x10000 + (code - 0xD800) * 0x400 + (low - 0xDC00))) :: rest
      else unitOf code :: text
  | _ => unitOf code :: text

def string? : List Char → Option (Text × List Char)
  | [] => none
  | '\x22' :: rest => some ([], rest)
  | '\\' :: 'u' :: a :: b :: c :: d :: rest =>
      match Numeral.value? 16 [a, b, c, d], string? rest with
      | some code, some (text, after) => some (consUnit code text, after)
      | _, _ => none
  | '\\' :: c :: rest =>
      match simpleEscape? c, string? rest with
      | some c, some (text, after) => some (.char c :: text, after)
      | _, _ => none
  | c :: rest =>
      if c.toNat < 0x20 then none
      else if c = '\\' then none
      else (string? rest).map fun (text, after) => (.char c :: text, after)

def word? (word : List Char) (scalar : Scalar) (text : List Char) : Option (Scalar × List Char) :=
  if word.isPrefixOf text then some (scalar, text.drop word.length) else none

def scalar? (text : List Char) : Option (Scalar × List Char) :=
  match text with
  | [] => none
  | c :: rest =>
      if c = '\x22' then (string? rest).map fun (text, after) => (.string text, after)
      else if c = 'n' then word? ['u', 'l', 'l'] .null rest
      else if c = 't' then word? ['r', 'u', 'e'] (.bool true) rest
      else if c = 'f' then word? ['a', 'l', 's', 'e'] (.bool false) rest
      else (literal? (c :: rest)).map fun (literal, after) => (.number literal, after)

inductive Start where
  | scalar (scalar : Scalar)
  | array
  | object
  deriving DecidableEq, Repr

def start? (text : List Char) : Option (Start × List Char) :=
  match skipBlanks text with
  | [] => none
  | c :: rest =>
      if c = '[' then some (.array, rest)
      else if c = '\x7b' then some (.object, rest)
      else (scalar? (c :: rest)).map fun (scalar, after) => (.scalar scalar, after)

def expect? (expected : Char) (text : List Char) : Option (List Char) :=
  match skipBlanks text with
  | [] => none
  | c :: rest => if c = expected then some rest else none

inductive Separator where
  | close
  | comma
  deriving DecidableEq, Repr

def separator? (bracket : Char) (text : List Char) : Option (Separator × List Char) :=
  match skipBlanks text with
  | [] => none
  | c :: rest => if c = bracket then some (.close, rest) else if c = ',' then some (.comma, rest) else none

section Container

variable {α : Type}

def inside? (bracket : Char) (text : List Char) (empty filled : List Char → Option α) : Option α :=
  match expect? bracket text with
  | some after => empty after
  | none => filled text

def behind? (bracket : Char) (text : List Char) (last more : List Char → Option α) : Option α :=
  match separator? bracket text with
  | some (.close, after) => last after
  | some (.comma, next) => more next
  | none => none

end Container

def key? (text : List Char) : Option (Text × List Char) :=
  (expect? '\x22' text).bind fun quoted =>
    (string? quoted).bind fun (key, after) => (expect? ':' after).map fun rest => (key, rest)

/-
The readers of values spend fuel: one unit for each value and one for each item or member, so two for
each character are enough.
-/

def document? {α : Type} (read : Nat → List Char → Option (α × List Char)) (text : String) : Option α :=
  let chars := text.toList
  match read (2 * chars.length + 1) chars with
  | some (value, rest) => if (skipBlanks rest).isEmpty then some value else none
  | none => none

def textAt? : Nat → List Char → Option (String × List Char)
  | 0, _ => none
  | _ + 1, text =>
      match start? text with
      | some (.scalar (.string text), rest) => text.string?.map fun text => (text, rest)
      | _ => none

-- Values that nobody looks at may be nested to any depth, hold numbers of any magnitude and surrogates without a
-- partner.
mutual
def skip? : Nat → List Char → Option (List Char)
  | 0, _ => none
  | fuel + 1, text =>
      match start? text with
      | none => none
      | some (.scalar _, rest) => some rest
      | some (.array, rest) => inside? ']' rest some fun rest => skipItems? fuel rest
      | some (.object, rest) => inside? '\x7d' rest some fun rest => skipMembers? fuel rest

def skipItems? : Nat → List Char → Option (List Char)
  | 0, _ => none
  | fuel + 1, text =>
      (skip? fuel text).bind fun rest => behind? ']' rest some fun next => skipItems? fuel next

def skipMembers? : Nat → List Char → Option (List Char)
  | 0, _ => none
  | fuel + 1, text =>
      (key? text).bind fun (_, afterColon) =>
        (skip? fuel afterColon).bind fun rest => behind? '\x7d' rest some fun next => skipMembers? fuel next
end

end Devnet.Json
