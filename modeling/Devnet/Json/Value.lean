import Devnet.Binary64.Basic
import Devnet.Text.Numeral

set_option autoImplicit false

namespace Devnet.Json

inductive TextUnit where
  | char (c : Char)
  | surrogate (code : Nat)
  deriving DecidableEq, Repr

abbrev Text := List TextUnit

structure Exponent where
  negative : Bool
  digits : List Char
  deriving DecidableEq, Repr

structure Literal where
  negative : Bool
  whole : List Char
  fraction : Option (List Char)
  exponent : Option Exponent
  deriving DecidableEq, Repr

inductive Scalar where
  | null
  | bool (value : Bool)
  | number (literal : Literal)
  | string (text : Text)
  deriving DecidableEq, Repr

def TextUnit.char? : TextUnit → Option Char
  | .char c => some c
  | .surrogate _ => none

def Text.string? (text : Text) : Option String := (text.mapM TextUnit.char?).map String.ofList

inductive Number where
  | integer (value : Int)
  | real (negative : Bool) (magnitude : Binary64)
  deriving DecidableEq, Repr

-- The longest run of leading digits whose value fits 64 bits, after the value `high`:
-- its value and the digits left.
def leadingWord (high : Nat) : List Char → Nat × List Char
  | [] => (high, [])
  | c :: rest =>
      match Numeral.digit? 10 c with
      | none => (high, c :: rest)
      | some d =>
          if high * 10 + d < Numeral.wordBound then leadingWord (high * 10 + d) rest
          else (high, c :: rest)

def tableEnd : Nat := 308

-- Divides by a power of ten, in steps of `10 ^ 308` at most; zero stays zero.
def divideByPower (x : Binary64) (exponent : Nat) : Nat → Option Binary64
  | 0 => some x
  | fuel + 1 =>
      if exponent ≤ tableEnd then (Binary64.ofNat? (Nat.pow 10 exponent)).bind x.div?
      else if x.isZero then some x
      else
        ((Binary64.ofNat? (Nat.pow 10 tableEnd)).bind x.div?).bind fun y =>
          divideByPower y (exponent - tableEnd) fuel

def scaledWord (digits : Nat) (exponent : Int) : Option Binary64 :=
  match Binary64.ofNat? digits with
  | none => none
  | some x =>
      if 0 ≤ exponent then
        if exponent.toNat ≤ tableEnd then (Binary64.ofNat? (Nat.pow 10 exponent.toNat)).bind x.mul?
        else if x.isZero then some x
        else none
      else divideByPower x exponent.natAbs 8

def exponentBound : Nat := Nat.pow 2 31

def saturate (exponent : Int) : Int := max (-2147483648) (min 2147483647 exponent)

def Literal.magnitude? (literal : Literal) : Option Binary64 :=
  let (word, dropped) := leadingWord 0 literal.whole
  let fraction := literal.fraction.getD []
  let (word, left) := leadingWord word fraction
  let scale : Int := Int.ofNat dropped.length - Int.ofNat (fraction.length - left.length)
  match literal.exponent with
  | none => scaledWord word scale
  | some exponent =>
      let value := (Numeral.value? 10 exponent.digits).getD 0
      if value < exponentBound then
        scaledWord word (saturate (if exponent.negative then scale - value else scale + value))
      else if word ≠ 0 ∧ !exponent.negative then none
      else some .zero

def Literal.number? (literal : Literal) : Option Number :=
  let real := literal.magnitude?.map (Number.real literal.negative)
  if literal.fraction.isSome || literal.exponent.isSome then real
  else
    let n := (Numeral.value? 10 literal.whole).getD 0
    if literal.negative then
      if 0 < n ∧ n ≤ Nat.pow 2 63 then some (.integer (-Int.ofNat n)) else real
    else if n < Numeral.wordBound then some (.integer (Int.ofNat n))
    else real

inductive Value where
  | null
  | bool (value : Bool)
  | number (number : Number)
  | string (text : String)
  | array (items : List Value)
  | object (members : List (String × Value))
  deriving Repr

def insertMember (key : String) (value : Value) :
    List (String × Value) → List (String × Value)
  | [] => [(key, value)]
  | (other, old) :: rest =>
      if key = other then (key, value) :: rest
      else if key < other then (key, value) :: (other, old) :: rest
      else (other, old) :: insertMember key value rest

def embeddingKey : String := "$serde_json::private::RawValue"

def Scalar.value? : Scalar → Option Value
  | .null => some .null
  | .bool value => some (.bool value)
  | .number literal => literal.number?.map Value.number
  | .string text => text.string?.map Value.string

end Devnet.Json
