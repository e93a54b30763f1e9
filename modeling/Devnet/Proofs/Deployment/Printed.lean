import Devnet.Proofs.Deployment.Address
import Devnet.Proofs.Text.Decimal

set_option autoImplicit false

namespace Devnet

namespace Felt

section Printed

variable (x : Felt)

theorem parse_text : parse? x.text = some x := by
  obtain ⟨digits, same, printed⟩ := text_digits x
  have chars : x.text.toList = '0' :: 'x' :: digits := by
    rw [same, String.toList_append, String.toList_ofList, String.toList_ofList]
    rfl
  have denotes := Denotes.hexadecimal digits x.val printed.spells (Nat.le_of_eq printed.length)
  rw [Nat.mod_eq_of_lt x.isLt, ← chars] at denotes
  exact (parse_iff x.text x).mpr denotes

theorem parse_decimal : parse? (toString x.val) = some x := by
  have small : x.val < Nat.pow 2 256 := Nat.lt_trans x.isLt (by decide +kernel)
  have denotes := (written x.val 0 small).decimal
  have chars : (toString x.val).toList = List.replicate 0 '0' ++ Numeral.decimalDigits x.val := by
    rw [← Numeral.decimal_standard, Numeral.decimal, String.toList_ofList]
    rfl
  rw [Nat.mod_eq_of_lt x.isLt, ← chars] at denotes
  exact (parse_iff _ x).mpr denotes

theorem text_injective (a b : Felt) (same : a.text = b.text) : a = b := by
  have read := parse_text a
  rw [same, parse_text b] at read
  exact (Option.some.inj read).symm

end Printed

end Felt

namespace Deployment

def IsPrinted (text : String) : Prop :=
  ∃ digits, text = "0x" ++ String.ofList digits ∧ digits.length = 64 ∧ ∀ c ∈ digits, c ∈ Numeral.lowerDigits

section Printed

variable (deployment : Deployment) (address : Felt) (known : deployment.expectedAddress = .ok address)
include known

-- The bound lies below the order of the field, so that the address is not reduced twice.
theorem address_small : address.val < Nat.pow 2 251 - 256 := by
  rcases deployment.denoted_or_blamed with ⟨classHash, salt, calldata, denoted⟩ | ⟨e, failed, _⟩
  · have same := Except.ok.inj (known.symm.trans (deployment.address_of_denoted classHash salt calldata denoted))
    rw [same]
    exact Nat.lt_of_le_of_lt (Nat.mod_le _ _) (Nat.mod_lt _ (by decide +kernel))
  · cases known.symm.trans failed

end Printed

theorem address_of_calldata (classHash salt : String) (values others : List String) (calldata : List Felt)
    (first : List.Forall₂ (fun value x => Felt.parse? value = some x) values calldata)
    (second : List.Forall₂ (fun value x => Felt.parse? value = some x) others calldata) :
    ((ofClass classHash values).withSalt salt).expectedAddress =
      ((ofClass classHash others).withSalt salt).expectedAddress := by
  have read := (felts_ok_iff .constructorCalldata values calldata).mpr first
  have same := read.trans ((felts_ok_iff .constructorCalldata others calldata).mpr second).symm
  simp only [expectedAddress, withSalt, ofClass, same]

theorem printed_address_fed_back (deployment : Deployment) (address : Felt)
    (known : deployment.expectedAddress = .ok address) :
    address.val < Nat.pow 2 251 - 256 ∧ IsPrinted address.text ∧
    (∀ part, felt part address.text = .ok address) ∧
    (∀ (other : Deployment) (another : Felt), other.expectedAddress = .ok another →
      (another.text = address.text ↔ another = address)) ∧
    ∀ classHash salt,
      ((ofClass classHash [address.text]).withSalt salt).expectedAddress =
        ((ofClass classHash [toString address.val]).withSalt salt).expectedAddress := by
  obtain ⟨digits, same, printed⟩ := Felt.text_digits address
  refine ⟨address_small deployment address known, ⟨digits, same, printed.length, printed.lower⟩, ?_, ?_, ?_⟩
  · intro part
    exact (felt_ok_iff part address.text address).mpr (Felt.parse_text address)
  · intro other another _
    exact ⟨Felt.text_injective another address, congrArg Felt.text⟩
  · intro classHash salt
    exact address_of_calldata classHash salt _ _ [address] (.cons (Felt.parse_text address) .nil)
      (.cons (Felt.parse_decimal address) .nil)

def narrow : Deployment := ⟨"0xabc", "70", ["-7"]⟩

def narrowAddress : Felt := Felt.ofNat 0xd7e6459864ceead8fbe82d633492ea4a8e39d46f5e7ae90859a3e74d9740

theorem printed_address_fed_back_narrow :
    narrow.expectedAddress = .ok narrowAddress ∧
    narrowAddress.text = "0x0000d7e6459864ceead8fbe82d633492ea4a8e39d46f5e7ae90859a3e74d9740" ∧
    felt .constructorCalldata "0x0000d7e6459864ceead8fbe82d633492ea4a8e39d46f5e7ae90859a3e74d9740" = .ok narrowAddress ∧
    ((ofClass vaultClassHash [narrowAddress.text]).withSalt "-1").expectedAddress =
      ((ofClass vaultClassHash [toString narrowAddress.val]).withSalt "-1").expectedAddress := by
  have known : narrow.expectedAddress = .ok narrowAddress := by decide +kernel
  have text : narrowAddress.text = "0x0000d7e6459864ceead8fbe82d633492ea4a8e39d46f5e7ae90859a3e74d9740" := by
    decide +kernel
  obtain ⟨_, _, read, _, again⟩ := printed_address_fed_back narrow narrowAddress known
  exact ⟨known, text, text ▸ read .constructorCalldata, again vaultClassHash "-1"⟩

end Deployment
end Devnet
