import Devnet.Url.Basic
import Devnet.Url.Encode
import Devnet.Url.Punycode

set_option autoImplicit false

namespace Devnet.Url

-- The parts between the separators of a text, the first of which goes on after `current`.
def splitOn (separator : Char) (current : List Char) : List Char → List (List Char)
  | [] => [current.reverse]
  | c :: rest =>
      if c = separator then current.reverse :: splitOn separator [] rest
      else splitOn separator (c :: current) rest

def ipv4Number? (text : List Char) : Option Nat :=
  match text with
  | [] => none
  | ['0', 'x'] => some 0
  | ['0', 'X'] => some 0
  | '0' :: 'x' :: digits => Numeral.value? 16 digits
  | '0' :: 'X' :: digits => Numeral.value? 16 digits
  | ['0'] => some 0
  | '0' :: digits => Numeral.value? 8 digits
  | digits => Numeral.value? 10 digits

def dottedParts (name : List Char) : List (List Char) :=
  let parts := splitOn '.' [] name
  if parts.length > 1 ∧ parts.getLast? = some [] then parts.dropLast else parts

-- A name whose last part is a number has to be an IPv4 address.
def endsInNumber (name : List Char) : Bool :=
  match (dottedParts name).getLast? with
  | none => false
  | some last =>
      (!last.isEmpty && last.all fun c => (Numeral.digit? 10 c).isSome) || (ipv4Number? last).isSome

def ipv4FromNumbers (bytes : List Nat) (last : Nat) : Option Nat :=
  let weight := Nat.pow 256 (4 - bytes.length)
  if bytes.length ≤ 3 ∧ bytes.all (· ≤ 255) ∧ last < weight then
    some (bytes.foldl (fun high byte => high * 256 + byte) 0 * weight + last)
  else none

def ipv4? (name : List Char) : Option Nat :=
  match (dottedParts name).mapM ipv4Number? with
  | none => none
  | some numbers =>
      match numbers.getLast? with
      | none => none
      | some last => ipv4FromNumbers numbers.dropLast last

def strictByte? (text : List Char) : Option Nat :=
  match text with
  | '0' :: _ :: _ => none
  | digits =>
      match Numeral.value? 10 digits with
      | some n => if n ≤ 255 then some n else none
      | none => none

def embeddedIpv4? (text : List Char) : Option (List Nat) :=
  match (splitOn '.' [] text).mapM strictByte? with
  | some [a, b, c, d] => some [a * 256 + b, c * 256 + d]
  | _ => none

def ipv6Piece? (text : List Char) : Option Nat :=
  if text.length ≤ 4 then Numeral.value? 16 text else none

-- Pieces separated by single colons; the last one may be an IPv4 address.
def ipv6Pieces? : List (List Char) → Option (List Nat)
  | [] => some []
  | [last] =>
      if last.contains '.' then embeddedIpv4? last else (ipv6Piece? last).map fun piece => [piece]
  | first :: rest =>
      match ipv6Piece? first, ipv6Pieces? rest with
      | some piece, some pieces => some (piece :: pieces)
      | _, _ => none

def atDoubleColon? (before : List Char) : List Char → Option (List Char × List Char)
  | ':' :: ':' :: after => some (before.reverse, after)
  | c :: rest => atDoubleColon? (c :: before) rest
  | [] => none

def ipv6Side? (text : List Char) : Option (List Nat) :=
  if text.isEmpty then some [] else ipv6Pieces? (splitOn ':' [] text)

def ipv6? (text : List Char) : Option (List Nat) :=
  match atDoubleColon? [] text with
  | none =>
      match ipv6Side? text with
      | some pieces => if pieces.length = 8 then some pieces else none
      | none => none
  | some (left, right) =>
      if left.contains '.' then none
      else
        match ipv6Side? left, ipv6Side? right with
        | some before, some after =>
            if before.length + after.length ≤ 7 then
              some (before ++ List.replicate (8 - before.length - after.length) 0 ++ after)
            else none
        | _, _ => none

def isForbiddenInDomain (c : Char) : Bool :=
  !isPrintable c ||
    [' ', '%', '#', '/', ':', '<', '>', '?', '@', '[', '\\', ']', '^', '|'].contains c

def isForbiddenInHost (c : Char) : Bool :=
  ['\x00', '\t', '\n', '\r', ' ', '#', '/', ':', '<', '>', '?', '@', '[', '\\', ']', '^', '|'].contains c

def lowerAscii (c : Char) : Char :=
  if 0x41 ≤ c.toNat ∧ c.toNat ≤ 0x5A then Char.ofNat (c.toNat + 0x20) else c

def bracketed (text : List Char) : Except ParseError Host :=
  if text.getLast? = some ']' then
    match ipv6? text.dropLast with
    | some pieces => .ok (.ipv6 pieces)
    | none => .error .invalidIpv6
  else .error .invalidIpv6

-- International names are refused: a name in other letters than those of ASCII is not mapped to Punycode.
def domainHost (text : List Char) : Except ParseError Host :=
  match text with
  | '[' :: rest => bracketed rest
  | _ =>
      match Utf8.decode (percentDecode text) with
      | .error _ => .error .invalidDomainName
      | .ok decoded =>
          let name := decoded.toList.map lowerAscii
          if name.any isForbiddenInDomain || !(splitOn '.' [] name).all Punycode.isLabel then
            .error .invalidDomainName
          else if name.isEmpty then .error .emptyHost
          else if endsInNumber name then
            match ipv4? name with
            | some address => .ok (.ipv4 address)
            | none => .error .invalidIpv4
          else .ok (.name (String.ofList name))

def unparsedHost (text : List Char) : Except ParseError Host :=
  match text with
  | '[' :: rest => bracketed rest
  | _ =>
      if text.any isForbiddenInHost then .error .invalidHostCharacter
      else .ok (.name (String.ofList (percentEncode keepsVerbatim text)))

def zeroRun (pieces : List Nat) : Nat := (pieces.takeWhile (· = 0)).length

def longestZeroRun (index : Nat) (best : Nat × Nat) : List Nat → Nat × Nat
  | [] => best
  | piece :: rest =>
      let run := zeroRun (piece :: rest)
      longestZeroRun (index + 1) (if run > best.2 then (index, run) else best) rest

def colonJoined (pieces : List Nat) : String := ":".intercalate (pieces.map Numeral.hex)

def ipv6Text (pieces : List Nat) : String :=
  let (start, length) := longestZeroRun 0 (0, 0) pieces
  if length < 2 then colonJoined pieces
  else colonJoined (pieces.take start) ++ "::" ++ colonJoined (pieces.drop (start + length))

def ipv4Text (address : Nat) : String :=
  ".".intercalate
    ([address / 16777216 % 256, address / 65536 % 256, address / 256 % 256, address % 256].map
      Numeral.decimal)

def Host.text : Host → String
  | .name text => text
  | .ipv4 address => ipv4Text address
  | .ipv6 pieces => "[" ++ ipv6Text pieces ++ "]"

end Devnet.Url
