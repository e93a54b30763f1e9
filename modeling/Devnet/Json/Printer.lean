import Devnet.Json.Value
import Devnet.Binary64.Shortest

set_option autoImplicit false

namespace Devnet.Json

def escaped (c : Char) : List Char :=
  match c with
  | '\x22' => ['\\', '\x22']
  | '\\' => ['\\', '\\']
  | '\x08' => ['\\', 'b']
  | '\x0c' => ['\\', 'f']
  | '\n' => ['\\', 'n']
  | '\r' => ['\\', 'r']
  | '\t' => ['\\', 't']
  | c =>
      if c.toNat < 0x20 then '\\' :: 'u' :: Numeral.padded 4 (Numeral.hexDigits c.toNat) else [c]

def quoted (text : String) : String :=
  String.ofList ('\x22' :: text.toList.flatMap escaped ++ ['\x22'])

def integerText (value : Int) : String :=
  match value with
  | .ofNat n => Numeral.decimal n
  | .negSucc n => "-" ++ Numeral.decimal (n + 1)

def Number.text : Number → String
  | .integer value => integerText value
  | .real negative magnitude => (if negative then "-" else "") ++ magnitude.text

def joined (items : List String) : String := ",".intercalate items

mutual
def Value.text : Value → String
  | .null => "null"
  | .bool true => "true"
  | .bool false => "false"
  | .number number => number.text
  | .string text => quoted text
  | .array items => "[" ++ joined (itemTexts items) ++ "]"
  | .object members => "\x7b" ++ joined (memberTexts members) ++ "\x7d"

def itemTexts : List Value → List String
  | [] => []
  | item :: rest => item.text :: itemTexts rest

def memberTexts : List (String × Value) → List String
  | [] => []
  | (key, value) :: rest => (quoted key ++ ":" ++ value.text) :: memberTexts rest
end

def stringArray (items : List String) : String := "[" ++ joined (items.map quoted) ++ "]"

end Devnet.Json
