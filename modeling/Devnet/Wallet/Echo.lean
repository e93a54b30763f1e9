import Devnet.Text.Numeral
import Devnet.Text.Utf8

set_option autoImplicit false

namespace Devnet.Echo

structure Options where
  endsLine : Bool
  escapes : Bool
  deriving DecidableEq, Repr

def isOption (argument : String) : Bool :=
  match argument.toList with
  | '-' :: letters => !letters.isEmpty && letters.all fun c => ['n', 'e', 'E'].contains c
  | _ => false

-- The effect of an option letter; of `e` and `E` the last one counts.
def Options.set (options : Options) (letter : Char) : Options :=
  match letter with
  | 'n' => { options with endsLine := false }
  | 'e' => { options with escapes := true }
  | 'E' => { options with escapes := false }
  | _ => options

def Options.ofArguments (arguments : List String) : Options :=
  ((arguments.takeWhile isOption).flatMap String.toList).foldl Options.set ⟨true, false⟩

-- Where a reader of escapes stands: between them, behind a backslash, before the first digit of a
-- hexadecimal number, or in a number that takes `left` more digits.
inductive Position where
  | text
  | backslash
  | hexadecimal
  | number (value base left : Nat)
  deriving DecidableEq, Repr

def Position.owed : Position → Bytes
  | .text => []
  | .backslash => [0x5C]
  | .hexadecimal => [0x5C, 0x78]
  | .number value _ _ => [value.toUInt8]

def escapedByte? (c : Char) : Option UInt8 :=
  match c with
  | 'a' => some 0x07
  | 'b' => some 0x08
  | 'e' => some 0x1B
  | 'f' => some 0x0C
  | 'n' => some 0x0A
  | 'r' => some 0x0D
  | 't' => some 0x09
  | 'v' => some 0x0B
  | '\\' => some 0x5C
  | _ => none

def Position.continued? (position : Position) (c : Char) : Option Position :=
  match position with
  | .hexadecimal => (Numeral.digit? 16 c).map fun digit => .number digit 16 1
  | .number value base (left + 1) =>
      (Numeral.digit? base c).map fun digit => .number (value * base + digit) base left
  | _ => none

def afterBackslash (c : Char) : Bytes × Position :=
  match escapedByte? c with
  | some byte => ([byte], .text)
  | none =>
      if c = 'x' then ([], .hexadecimal)
      else if c = '0' then ([], .number 0 8 3)
      else
        match Numeral.digit? 8 c with
        | some digit => ([], .number digit 8 2)
        | none => (0x5C :: Utf8.encodeChar c, .text)

-- The bytes of a text with escapes, and whether `\c` ends all output in it. A number is taken
-- modulo 256.
def unescape (position : Position) : List Char → Bytes × Bool
  | [] => (position.owed, false)
  | c :: rest =>
      match position.continued? c with
      | some position => unescape position rest
      | none =>
          if position = .backslash then
            if c = 'c' then ([], true)
            else
              let (now, position) := afterBackslash c
              let (later, stops) := unescape position rest
              (now ++ later, stops)
          else if c = '\\' then
            let (later, stops) := unescape .backslash rest
            (position.owed ++ later, stops)
          else
            let (later, stops) := unescape .text rest
            (position.owed ++ Utf8.encodeChar c ++ later, stops)

def printed (options : Options) (texts : List String) : Bytes :=
  let ending : Bytes := if options.endsLine then [0x0A] else []
  if options.escapes then joined ending texts
  else Utf8.encode (" ".intercalate texts) ++ ending
where
  joined (ending : Bytes) : List String → Bytes
    | [] => ending
    | [last] =>
        let (bytes, stops) := unescape .text last.toList
        if stops then bytes else bytes ++ ending
    | text :: rest =>
        let (bytes, stops) := unescape .text text.toList
        if stops then bytes else bytes ++ 0x20 :: joined ending rest

def output (arguments : List String) : Bytes :=
  printed (Options.ofArguments arguments) (arguments.dropWhile isOption)

end Devnet.Echo
