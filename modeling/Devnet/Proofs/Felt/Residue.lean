import Devnet.Felt.Basic
import Devnet.Proofs.Text.Spelling

set_option autoImplicit false

namespace Devnet.Felt

open Numeral (Spells)

inductive Denotes : List Char → Nat → Prop
  | hexadecimal (digits : List Char) (n : Nat) (spells : Spells 16 digits n) (fits : digits.length ≤ 64) :
      Denotes ('0' :: 'x' :: digits) (n % fieldOrder)
  | decimal (digits : List Char) (n : Nat) (spells : Spells 10 digits n) (fits : n < Nat.pow 2 256) :
      Denotes digits (n % fieldOrder)
  | negative (digits : List Char) (n : Nat) (spells : Spells 10 digits n) (fits : n < Nat.pow 2 256) :
      Denotes ('-' :: digits) ((fieldOrder - n % fieldOrder) % fieldOrder)

def IsText (text : String) : Prop := ∃ residue, Denotes text.toList residue

section Numbers

variable (digits : List Char) (x : Felt)

theorem of_nat_iff (n : Nat) : ofNat n = x ↔ n % fieldOrder = x.val := Fin.ext_iff

theorem of_hex_iff :
    ofHex? digits = some x ↔ ∃ n, Spells 16 digits n ∧ digits.length ≤ 64 ∧ n % fieldOrder = x.val := by
  rw [ofHex?]
  by_cases fits : digits.length ≤ 64
  · rw [if_pos fits, Option.map_eq_some_iff]
    simp only [Numeral.value_iff, of_nat_iff, fits, true_and]
  · rw [if_neg fits]
    simp only [fits, false_and, and_false, exists_false, reduceCtorEq]

theorem of_decimal_iff :
    ofDecimal? digits = some x ↔ ∃ n, Spells 10 digits n ∧ n < Nat.pow 2 256 ∧ n % fieldOrder = x.val := by
  simp only [← Numeral.value_iff]
  rw [ofDecimal?]
  cases Numeral.value? 10 digits with
  | none => simp only [reduceCtorEq, false_and, exists_false]
  | some n =>
      simp only [Option.some.injEq, exists_eq_left', ← of_nat_iff]
      by_cases fits : n < Nat.pow 2 256
      · rw [if_pos fits, Option.some.injEq, and_iff_right fits]
      · rw [if_neg fits]
        exact iff_of_false (fun same => nomatch same) fun both => fits both.1

end Numbers

theorem neg_val (x : Felt) : (-x).val = (fieldOrder - x.val) % fieldOrder := rfl

theorem decimal_unmarked (digits : List Char) (n : Nat) (spells : Spells 10 digits n) :
    (∀ rest, digits ≠ '0' :: 'x' :: rest) ∧ ∀ rest, digits ≠ '-' :: rest := by
  rw [← Numeral.value_iff] at spells
  constructor
  · rintro rest rfl
    cases spells
  · rintro rest rfl
    cases spells

theorem parse_iff (text : String) (x : Felt) : parse? text = some x ↔ Denotes text.toList x.val := by
  rw [parse?]
  constructor
  · intro read
    split at read
    case h_1 digits same =>
      obtain ⟨n, spells, fits, value⟩ := (of_hex_iff digits x).mp read
      rw [same, ← value]
      exact .hexadecimal digits n spells fits
    case h_2 digits same =>
      obtain ⟨y, number, rfl⟩ := Option.map_eq_some_iff.mp read
      obtain ⟨n, spells, fits, value⟩ := (of_decimal_iff digits y).mp number
      rw [same, neg_val, ← value]
      exact .negative digits n spells fits
    case h_3 =>
      obtain ⟨n, spells, fits, value⟩ := (of_decimal_iff _ x).mp read
      rw [← value]
      exact .decimal _ n spells fits
  · generalize text.toList = chars
    generalize value : x.val = residue
    intro denotes
    cases denotes with
    | hexadecimal digits n spells fits => exact (of_hex_iff digits x).mpr ⟨n, spells, fits, value.symm⟩
    | decimal digits n spells fits =>
        obtain ⟨unprefixed, unsigned⟩ := decimal_unmarked _ n spells
        split
        case h_1 rest => exact absurd rfl (unprefixed rest)
        case h_2 rest => exact absurd rfl (unsigned rest)
        case h_3 => exact (of_decimal_iff _ x).mpr ⟨n, spells, fits, value.symm⟩
    | negative digits n spells fits =>
        refine Option.map_eq_some_iff.mpr ⟨ofNat n, (of_decimal_iff digits _).mpr ⟨n, spells, fits, rfl⟩, ?_⟩
        rw [Fin.ext_iff, neg_val, value]
        rfl

section Texts

theorem residue_small (chars : List Char) (residue : Nat) (denotes : Denotes chars residue) : residue < fieldOrder := by
  cases denotes <;> exact Nat.mod_lt _ field_order_pos

theorem parse_of_denotes (text : String) (residue : Nat) (denotes : Denotes text.toList residue) :
    ∃ x : Felt, x.val = residue ∧ parse? text = some x := by
  exact ⟨⟨residue, residue_small _ _ denotes⟩, rfl, (parse_iff text _).mpr denotes⟩

theorem is_text_of_parse (text : String) (x : Felt) (read : parse? text = some x) : IsText text :=
  ⟨x.val, (parse_iff text x).mp read⟩

theorem is_text_iff (text : String) : IsText text ↔ (parse? text).isSome = true := by
  rw [Option.isSome_iff_exists]
  constructor
  · rintro ⟨residue, denotes⟩
    obtain ⟨x, _, read⟩ := parse_of_denotes text residue denotes
    exact ⟨x, read⟩
  · rintro ⟨x, read⟩
    exact is_text_of_parse text x read

instance (text : String) : Decidable (IsText text) := decidable_of_iff _ (is_text_iff text).symm

example : IsText "-007" ∧ ∀ text ∈ ["0X1", "-0x1", "+1", "-", "0x", ""], ¬ IsText text := by decide +kernel

def SameResidue (a b : String) : Prop := ∃ residue, Denotes a.toList residue ∧ Denotes b.toList residue

theorem same_residue_iff (a b : String) : SameResidue a b ↔ ∃ x, parse? a = some x ∧ parse? b = some x := by
  constructor
  · rintro ⟨residue, first, second⟩
    obtain ⟨x, value, read⟩ := parse_of_denotes a residue first
    exact ⟨x, read, (parse_iff b x).mpr (value ▸ second)⟩
  · rintro ⟨x, first, second⟩
    exact ⟨x.val, (parse_iff a x).mp first, (parse_iff b x).mp second⟩

instance (a b : String) : Decidable (SameResidue a b) :=
  decidable_of_iff ((parse? a).isSome = true ∧ parse? a = parse? b) (by
    rw [same_residue_iff]
    constructor
    · rintro ⟨text, same⟩
      obtain ⟨x, read⟩ := Option.isSome_iff_exists.mp text
      exact ⟨x, read, same ▸ read⟩
    · rintro ⟨x, first, second⟩
      exact ⟨Option.isSome_iff_exists.mpr ⟨x, first⟩, first.trans second.symm⟩)

end Texts

section Printed

-- The texts of a number behind zeros denote its residue: with sixteen digits in letters of either case, with
-- ten, and behind a sign the opposite one.
structure Written (n zeros : Nat) : Prop where
  fits : (Numeral.hexDigits n).length ≤ 64
  hexadecimal : ∀ digits, digits.map Char.toLower = List.replicate zeros '0' ++ Numeral.hexDigits n →
    digits.length ≤ 64 → Denotes ('0' :: 'x' :: digits) (n % fieldOrder)
  decimal : Denotes (List.replicate zeros '0' ++ Numeral.decimalDigits n) (n % fieldOrder)
  negative : Denotes ('-' :: (List.replicate zeros '0' ++ Numeral.decimalDigits n))
    ((fieldOrder - n % fieldOrder) % fieldOrder)

theorem written (n zeros : Nat) (small : n < Nat.pow 2 256) : Written n zeros := by
  have sixteen := Numeral.zeros_in_front _ n 16 zeros (by decide) ((Numeral.value_iff 16 _ n).mp (Numeral.value_of_hex n))
  have ten := Numeral.zeros_in_front _ n 10 zeros (by decide) ((Numeral.value_iff 10 _ n).mp (Numeral.value_of_decimal n))
  refine ⟨?_, ?_, .decimal _ n ten small, .negative _ n ten small⟩
  · exact Numeral.digits_length 16 n 63 (by decide) [] small
  · intro digits spelled fits
    exact .hexadecimal digits n ((Numeral.spells_in_either_case digits n 16).mp (spelled ▸ sixteen)) fits

structure PrintedDigits (x : Felt) (digits : List Char) : Prop where
  length : digits.length = 64
  lower : ∀ c ∈ digits, c ∈ Numeral.lowerDigits
  spells : Spells 16 digits x.val

theorem text_digits (x : Felt) : ∃ digits, x.text = "0x" ++ String.ofList digits ∧ PrintedDigits x digits := by
  have small : x.val < Nat.pow 2 256 := Nat.lt_trans x.isLt (by decide +kernel)
  have fits := (written x.val 0 small).fits
  have spells := (Numeral.value_iff 16 _ x.val).mp (Numeral.value_of_hex x.val)
  refine ⟨Numeral.padded 64 (Numeral.hexDigits x.val), rfl, ?_, ?_, Numeral.zeros_in_front _ _ 16 _ (by decide) spells⟩
  · rw [Numeral.padded, List.length_append, List.length_replicate]
    omega
  · intro c member
    rcases List.mem_append.mp member with zero | digit
    · rw [List.eq_of_mem_replicate zero]
      decide
    · exact Numeral.hex_members x.val c digit

end Printed

end Devnet.Felt
