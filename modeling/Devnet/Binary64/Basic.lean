set_option autoImplicit false

namespace Devnet

structure Binary64 where
  mantissa : Nat
  exponent : Int
  deriving DecidableEq, Repr

namespace Binary64

def precision : Nat := 53

def mantissaBound : Nat := Nat.pow 2 precision

def leastFullMantissa : Nat := Nat.pow 2 (precision - 1)

def minExponent : Int := -1074

def maxExponent : Int := 971

def zero : Binary64 := ⟨0, minExponent⟩

def isZero (x : Binary64) : Bool := x.mantissa == 0

def fraction (x : Binary64) : Nat × Nat :=
  (x.mantissa * Nat.pow 2 x.exponent.toNat, Nat.pow 2 (-x.exponent).toNat)

-- The quotient `n / d` rounded to the nearest natural number, ties to even.
def roundDiv (n d : Nat) : Nat :=
  let quotient := n / d
  let rest := n % d
  if 2 * rest > d ∨ (2 * rest = d ∧ quotient % 2 = 1) then quotient + 1 else quotient

def scaled (n d : Nat) (exponent : Int) : Nat × Nat :=
  (n * Nat.pow 2 (-exponent).toNat, d * Nat.pow 2 exponent.toNat)

-- The exponent for which `n / d` has a mantissa of full precision, or the smallest exponent.
def exponentOf (n d : Nat) : Int :=
  let guess : Int := max (Int.ofNat (Nat.log2 n) - Int.ofNat (Nat.log2 d) - Int.ofNat precision) minExponent
  let (top, bottom) := scaled n d guess
  if top / bottom < mantissaBound then guess else guess + 1

def ofFraction? (n d : Nat) : Option Binary64 :=
  if n = 0 then some zero
  else
    let exponent := exponentOf n d
    let (top, bottom) := scaled n d exponent
    let mantissa := roundDiv top bottom
    let rounded : Binary64 :=
      if mantissa = mantissaBound then ⟨leastFullMantissa, exponent + 1⟩ else ⟨mantissa, exponent⟩
    if rounded.exponent > maxExponent then none
    else if rounded.mantissa = 0 then some zero
    else some rounded

def ofNat? (n : Nat) : Option Binary64 := ofFraction? n 1

def mul? (x y : Binary64) : Option Binary64 :=
  let (a, b) := x.fraction
  let (c, d) := y.fraction
  ofFraction? (a * c) (b * d)

def div? (x y : Binary64) : Option Binary64 :=
  let (a, b) := x.fraction
  let (c, d) := y.fraction
  ofFraction? (a * d) (b * c)

end Binary64
end Devnet
