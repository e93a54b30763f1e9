/-
Labels of domain names that spell text outside ASCII: behind `xn--` stand the ASCII characters of the
text and, after the last dash, its other characters as a row of numbers. The numbers have digits of
growing weight, and a threshold that adapts to the numbers before ends each of them.
-/
set_option autoImplicit false

namespace Devnet.Url.Punycode

def digit? (c : Char) : Option Nat :=
  if 'a' ≤ c ∧ c ≤ 'z' then some (c.toNat - 0x61)
  else if '0' ≤ c ∧ c ≤ '9' then some (c.toNat - 0x30 + 26)
  else none

-- The bias after a number that is worth `delta`, which is first divided down.
def biasFrom (start delta : Nat) : Nat :=
  if 455 < delta then biasFrom (start + 36) (delta / 35) else start + 36 * delta / (delta + 38)
termination_by delta
decreasing_by omega

def adapted (delta count : Nat) (isFirst : Bool) : Nat :=
  let damped := if isFirst then delta / 700 else delta / 2
  biasFrom 0 (damped + damped / count)

def threshold (position bias : Nat) : Nat :=
  if position ≤ bias then 1 else if bias + 26 ≤ position then 26 else position - bias

-- Where a decoder stands: the characters it knows, the last code point, and the number that it
-- reads, whose value adds to `index` from `start` on.
structure Position where
  count : Nat
  codePoint : Nat
  bias : Nat
  start : Nat
  index : Nat
  weight : Nat
  digit : Nat
  deriving DecidableEq, Repr

def Position.initial (count : Nat) : Position := ⟨count, 0x80, 72, 0, 0, 1, 36⟩

def bound : Nat := 0x100000000

def isScalar (code : Nat) : Bool := code < 0xD800 || (0xE000 ≤ code && code < 0x110000)

def Position.next (position : Position) (index : Nat) : Position :=
  let count := position.count + 1
  let next := index % count + 1
  { count, codePoint := position.codePoint + index / count
    bias := adapted (index - position.start) count (position.start == 0)
    start := next, index := next, weight := 1, digit := 36 }

def codePoints? (position : Position) : List Char → Option (List Nat)
  | [] => if position.digit = 36 then some [] else none
  | c :: rest =>
      match digit? c with
      | none => none
      | some digit =>
          let index := position.index + digit * position.weight
          let least := threshold position.digit position.bias
          if bound ≤ index then none
          else if digit < least then
            let next := position.next index
            if isScalar next.codePoint then
              (codePoints? next rest).map fun points => next.codePoint :: points
            else none
          else
            codePoints?
              { position with
                index, weight := position.weight * (36 - least), digit := position.digit + 36 }
              rest

def decode? (text : List Char) : Option (List Nat) :=
  let digits := (text.reverse.takeWhile (· ≠ '-')).reverse
  if digits.length = text.length then codePoints? (.initial 0) text
  else
    let basic := text.length - digits.length - 1
    if basic = 0 then none else codePoints? (.initial basic) digits

-- A label that spells text spells at least one character outside ASCII, and no control.
def isLabel (label : List Char) : Bool :=
  match label with
  | 'x' :: 'n' :: '-' :: '-' :: text =>
      match decode? text with
      | some points => !points.isEmpty && points.all (0xA0 ≤ ·)
      | none => false
  | _ => true

end Devnet.Url.Punycode
