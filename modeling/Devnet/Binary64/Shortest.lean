import Devnet.Binary64.Basic
import Devnet.Text.Numeral

set_option autoImplicit false

namespace Devnet
namespace Binary64

structure Decimal where
  digits : Nat
  scale : Int
  deriving DecidableEq, Repr

-- The reals that round to a positive number lie between `low / bottom` and `high / bottom`; the
-- number itself is `value / bottom`.
structure Interval where
  low : Nat
  value : Nat
  high : Nat
  bottom : Nat
  -- The ends round to an even mantissa.
  closed : Bool

-- Below a power of two the next number is half as far away as above it.
def interval (x : Binary64) : Interval :=
  let nearBelow := x.mantissa = leastFullMantissa ∧ x.exponent > minExponent
  let unit := Nat.pow 2 (x.exponent - 2).toNat
  { low := (4 * x.mantissa - if nearBelow then 1 else 2) * unit
    value := 4 * x.mantissa * unit
    high := (4 * x.mantissa + 2) * unit
    bottom := Nat.pow 2 (2 - x.exponent).toNat
    closed := x.mantissa % 2 = 0 }

def leadingExponent (n d : Nat) : Int :=
  if d ≤ n then (Numeral.decimalDigits (n / d)).length - 1
  else
    let length := (Numeral.decimalDigits (d / n)).length
    if n * Nat.pow 10 (length - 1) = d then 1 - Int.ofNat length else -Int.ofNat length

-- The point `digits * 10 ^ scale` as a multiple of `10 ^ min(scale, 0) / bottom`, beside which the
-- ends of the interval are measured.
def Interval.contains (i : Interval) (digits : Nat) (scale : Int) : Bool :=
  let point := digits * Nat.pow 10 scale.toNat * i.bottom
  let lift := Nat.pow 10 (-scale).toNat
  if i.closed then i.low * lift ≤ point && point ≤ i.high * lift
  else i.low * lift < point && point < i.high * lift

def Interval.distance (i : Interval) (digits : Nat) (scale : Int) : Nat :=
  let point := digits * Nat.pow 10 scale.toNat * i.bottom
  let value := i.value * Nat.pow 10 (-scale).toNat
  (point - value) + (value - point)

-- The nearer of the two neighbours of the number on the grid of a scale, if one lies in the
-- interval; of two equally near the even one.
def Interval.onGrid? (i : Interval) (scale : Int) : Option Decimal :=
  let below := i.value * Nat.pow 10 (-scale).toNat / (i.bottom * Nat.pow 10 scale.toNat)
  let above := below + 1
  match i.contains below scale, i.contains above scale with
  | true, true =>
      let down := i.distance below scale
      let up := i.distance above scale
      some ⟨if down < up ∨ (down = up ∧ below % 2 = 0) then below else above, scale⟩
  | true, false => some ⟨below, scale⟩
  | false, true => some ⟨above, scale⟩
  | false, false => none

-- The first hit on grids for `count` digits and more, seventeen at most.
def firstHit (i : Interval) (leading : Int) (count : Nat) : Nat → Decimal
  | 0 => ⟨0, 0⟩
  | more + 1 =>
      match i.onGrid? (leading - (Int.ofNat count - 1)) with
      | some decimal => decimal
      | none => firstHit i leading (count + 1) more

def shortest (x : Binary64) : Decimal :=
  let i := x.interval
  firstHit i (leadingExponent i.value i.bottom) 1 17

structure DecimalStyle where
  least : Int
  greatest : Int

def standard : DecimalStyle := ⟨-5, 15⟩

def significantDigits (digits : List Char) : List Char :=
  (digits.reverse.dropWhile (· = '0')).reverse

def positional (digits : List Char) (leading : Int) : List Char :=
  if leading < 0 then '0' :: '.' :: List.replicate (-leading - 1).toNat '0' ++ digits
  else
    let whole := leading.toNat + 1
    if digits.length ≤ whole then
      digits ++ List.replicate (whole - digits.length) '0' ++ ['.', '0']
    else digits.take whole ++ '.' :: digits.drop whole

def scientific (digits : List Char) (leading : Int) : List Char :=
  let mantissa := if digits.length ≤ 1 then digits else digits.take 1 ++ '.' :: digits.drop 1
  let sign := if leading < 0 then '-' else '+'
  mantissa ++ 'e' :: sign :: Numeral.decimalDigits leading.natAbs

def Decimal.text (style : DecimalStyle) (decimal : Decimal) : String :=
  let all := Numeral.decimalDigits decimal.digits
  let leading := decimal.scale + (all.length - 1)
  let digits := significantDigits all
  String.ofList
    (if style.least ≤ leading ∧ leading ≤ style.greatest then positional digits leading
      else scientific digits leading)

def text (x : Binary64) : String := if x.isZero then "0.0" else x.shortest.text standard

end Binary64
end Devnet
