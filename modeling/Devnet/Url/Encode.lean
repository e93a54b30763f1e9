import Devnet.Text.Utf8
import Devnet.Text.Numeral

set_option autoImplicit false

namespace Devnet.Url

def isPrintable (c : Char) : Bool := 0x20 ≤ c.toNat && c.toNat ≤ 0x7E

def keepsOutside (encoded : List Char) (c : Char) : Bool := isPrintable c && !encoded.contains c

def keepsVerbatim : Char → Bool := isPrintable

def fragmentEncoded : List Char := [' ', '\x22', '<', '>', '\x60']

def pathEncoded : List Char := fragmentEncoded ++ ['#', '?', '\x7b', '\x7d']

def userinfoEncoded : List Char := pathEncoded ++ ['/', ':', ';', '=', '@', '[', '\\', ']', '^', '|']

def queryEncoded : List Char := [' ', '\x22', '#', '<', '>']

def keepsInFragment : Char → Bool := keepsOutside fragmentEncoded

def keepsInPath : Char → Bool := keepsOutside pathEncoded

def keepsInUserinfo : Char → Bool := keepsOutside userinfoEncoded

def keepsInQuery (special : Bool) : Char → Bool :=
  keepsOutside (if special then '\x27' :: queryEncoded else queryEncoded)

def upperDigit (d : Nat) : Char :=
  if d < 10 then Char.ofNat (0x30 + d) else Char.ofNat (0x41 + d - 10)

def encodeByte (b : UInt8) : List Char :=
  ['%', upperDigit (b.toNat / 16), upperDigit (b.toNat % 16)]

def encodeCharacter (keeps : Char → Bool) (c : Char) : List Char :=
  if keeps c then [c] else (Utf8.encodeChar c).flatMap encodeByte

def percentEncode (keeps : Char → Bool) (text : List Char) : List Char :=
  text.flatMap (encodeCharacter keeps)

def percentDecode : List Char → Bytes
  | [] => []
  | '%' :: high :: low :: rest =>
      match Numeral.digit? 16 high, Numeral.digit? 16 low with
      | some h, some l => (h * 16 + l).toUInt8 :: percentDecode rest
      | _, _ => 0x25 :: percentDecode (high :: low :: rest)
  | c :: rest => Utf8.encodeChar c ++ percentDecode rest

end Devnet.Url
