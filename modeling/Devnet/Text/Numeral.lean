set_option autoImplicit false

namespace Devnet.Numeral

-- The value of a digit in bases up to sixteen; letters count in either case.
def digit? (base : Nat) (c : Char) : Option Nat :=
  let n := c.toNat
  let value :=
    if 0x30 ≤ n ∧ n ≤ 0x39 then some (n - 0x30)
    else if 0x61 ≤ n ∧ n ≤ 0x66 then some (n - 0x61 + 10)
    else if 0x41 ≤ n ∧ n ≤ 0x46 then some (n - 0x41 + 10)
    else none
  value.filter (· < base)

def valueFrom (base : Nat) (high : Nat) : List Char → Option Nat
  | [] => some high
  | c :: rest =>
      match digit? base c with
      | none => none
      | some d => valueFrom base (high * base + d) rest

def value? (base : Nat) (digits : List Char) : Option Nat :=
  if digits.isEmpty then none else valueFrom base 0 digits

def digitChar (d : Nat) : Char :=
  if d < 10 then Char.ofNat (0x30 + d) else Char.ofNat (0x61 + d - 10)

def digitsBefore (base : Nat) (h : 1 < base) (n : Nat) (later : List Char) : List Char :=
  if _small : n < base then digitChar n :: later
  else digitsBefore base h (n / base) (digitChar (n % base) :: later)
  termination_by n
  decreasing_by exact Nat.div_lt_self (by omega) h

def decimalDigits (n : Nat) : List Char := digitsBefore 10 (by decide) n []

def hexDigits (n : Nat) : List Char := digitsBefore 16 (by decide) n []

def decimal (n : Nat) : String := String.ofList (decimalDigits n)

def hex (n : Nat) : String := String.ofList (hexDigits n)

def padded (width : Nat) (digits : List Char) : List Char :=
  List.replicate (width - digits.length) '0' ++ digits

def wordBound : Nat := Nat.pow 2 64

inductive WordError where
  | empty
  | invalidDigit
  | tooLarge
  deriving DecidableEq, Repr

def WordError.message : WordError → String
  | .empty => "cannot parse integer from empty string"
  | .invalidDigit => "invalid digit found in string"
  | .tooLarge => "number too large to fit in target type"

-- Digits are read from the left, and the first one at fault decides the error.
def wordFrom (high : Nat) : List Char → Except WordError Nat
  | [] => .ok high
  | c :: rest =>
      match digit? 10 c with
      | none => .error .invalidDigit
      | some d =>
          if high * 10 + d < wordBound then wordFrom (high * 10 + d) rest else .error .tooLarge

def word (text : String) : Except WordError Nat :=
  match text.toList with
  | [] => .error .empty
  | ['+'] => .error .invalidDigit
  | '+' :: digits => wordFrom 0 digits
  | digits => wordFrom 0 digits

end Devnet.Numeral
