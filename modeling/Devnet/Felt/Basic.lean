import Devnet.Text.Numeral

set_option autoImplicit false

namespace Devnet

def fieldOrder : Nat := Nat.pow 2 251 + 17 * Nat.pow 2 192 + 1

theorem field_order_pos : 0 < fieldOrder := by decide

instance : @NeZero Nat Zero.ofOfNat0 fieldOrder := ⟨Nat.ne_of_gt field_order_pos⟩

abbrev Felt := Fin fieldOrder

namespace Felt

def ofNat (n : Nat) : Felt := ⟨n % fieldOrder, Nat.mod_lt n field_order_pos⟩

def ofHex? (digits : List Char) : Option Felt :=
  if digits.length ≤ 64 then (Numeral.value? 16 digits).map ofNat else none

def ofDecimal? (digits : List Char) : Option Felt :=
  match Numeral.value? 10 digits with
  | some n => if n < Nat.pow 2 256 then some (ofNat n) else none
  | none => none

-- The field element that a text denotes; a minus sign negates a decimal number.
def parse? (text : String) : Option Felt :=
  match text.toList with
  | '0' :: 'x' :: digits => ofHex? digits
  | '-' :: digits => (ofDecimal? digits).map fun x => -x
  | digits => ofDecimal? digits

def text (x : Felt) : String :=
  "0x" ++ String.ofList (Numeral.padded 64 (Numeral.hexDigits x.val))

end Felt
end Devnet
