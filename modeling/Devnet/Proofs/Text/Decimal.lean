import Devnet.Proofs.Text.Spelling

set_option autoImplicit false

namespace Devnet.Numeral

theorem digit_char_standard (d : Nat) (small : d < 10) : digitChar d = Nat.digitChar d := by
  have cases : d = 0 ∨ d = 1 ∨ d = 2 ∨ d = 3 ∨ d = 4 ∨ d = 5 ∨ d = 6 ∨ d = 7 ∨ d = 8 ∨ d = 9 := by omega
  rcases cases with rfl | rfl | rfl | rfl | rfl | rfl | rfl | rfl | rfl | rfl <;> rfl

theorem digits_before_standard (n : Nat) (later : List Char) :
    digitsBefore 10 (by decide) n later = Nat.toDigits 10 n ++ later := by
  induction n using Nat.strongRecOn generalizing later with
  | ind n ih =>
      rw [digitsBefore]
      by_cases small : n < 10
      · rw [dif_pos small, Nat.toDigits_of_lt_base small, digit_char_standard n small]
        rfl
      · have smaller : n / 10 < n := by omega
        have split : Nat.toDigits 10 n = Nat.toDigits 10 (n / 10) ++ [Nat.digitChar (n % 10)] :=
          Nat.toDigits_of_base_le (by decide) (by omega)
        rw [dif_neg small, ih (n / 10) smaller, split, digit_char_standard (n % 10) (by omega),
          List.append_assoc, List.singleton_append]

theorem decimal_standard (n : Nat) : decimal n = toString n := by
  rw [decimal, decimalDigits, digits_before_standard, List.append_nil, ← Nat.toString_eq_ofList_toDigits]

theorem digit_char_of (c : Char) (d : Nat) (digit : IsDigitOf 10 c d) : c = digitChar d := by
  have listed : ∀ d < 10, lowerDigits[d]? = some (digitChar d) ∧ upperDigits[d]? = some (digitChar d) := by decide
  obtain ⟨lower, upper⟩ := listed d digit.small
  rcases digit.listed with here | here
  · exact Option.some.inj (here.symm.trans lower)
  · exact Option.some.inj (here.symm.trans upper)

theorem decimal_small (d : Nat) (small : d < 10) : decimalDigits d = [digitChar d] := by
  rw [decimalDigits, digitsBefore, dif_pos small]

theorem decimal_step (n d : Nat) (positive : 0 < n) (small : d < 10) :
    decimalDigits (n * 10 + d) = decimalDigits n ++ [digitChar d] := by
  have above : ¬ n * 10 + d < 10 := by omega
  have front : (n * 10 + d) / 10 = n := by omega
  have last : (n * 10 + d) % 10 = d := by omega
  rw [decimalDigits, digitsBefore, dif_neg above, front, last, decimalDigits, digits_before_standard,
    digits_before_standard, List.append_nil]

theorem decimal_unique (digits : List Char) (n : Nat) (spells : Spells 10 digits n)
    (canonical : ∀ rest, digits = '0' :: rest → rest = []) : decimalDigits n = digits := by
  induction spells with
  | single c d digit => rw [decimal_small d digit.small, digit_char_of c d digit]
  | more digits n c d front digit ih =>
      have leading : ∀ rest, digits ≠ '0' :: rest := by
        rintro rest rfl
        exact absurd (canonical (rest ++ [c]) rfl) (by simp)
      have same := ih fun rest zero => absurd zero (leading rest)
      have positive : 0 < n := by
        rcases Nat.eq_zero_or_pos n with rfl | positive
        · rw [decimal_small 0 (by decide)] at same
          exact absurd same.symm (leading [])
        · exact positive
      rw [decimal_step n d positive digit.small, same, digit_char_of c d digit]

end Devnet.Numeral
