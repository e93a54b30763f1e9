import Devnet.Proofs.Text.Digits
import Mathlib.Data.List.Induction

set_option autoImplicit false

namespace Devnet.Numeral

def lowerDigits : List Char := "0123456789abcdef".toList

def upperDigits : List Char := "0123456789ABCDEF".toList

structure IsDigitOf (base : Nat) (c : Char) (d : Nat) : Prop where
  small : d < base
  listed : lowerDigits[d]? = some c ∨ upperDigits[d]? = some c

inductive Spells (base : Nat) : List Char → Nat → Prop
  | single (c : Char) (d : Nat) (digit : IsDigitOf base c d) : Spells base [c] d
  | more (digits : List Char) (n : Nat) (c : Char) (d : Nat) (front : Spells base digits n)
      (digit : IsDigitOf base c d) : Spells base (digits ++ [c]) (n * base + d)

section Digits

variable (c : Char) (d : Nat)

theorem digit_code (read : digit? 16 c = some d) : c.toNat < 0x67 := by
  rw [digit?, Option.filter_eq_some_iff] at read
  obtain ⟨value, _⟩ := read
  split at value
  · omega
  · split at value
    · omega
    · split at value
      · omega
      · cases value

theorem sixteen_iff : digit? 16 c = some d ↔ lowerDigits[d]? = some c ∨ upperDigits[d]? = some c := by
  constructor
  · intro read
    have known : ∀ d ∈ digit? 16 c, lowerDigits[d]? = some c ∨ upperDigits[d]? = some c :=
      characters_checked 0x67 (fun c => ∀ d ∈ digit? 16 c, lowerDigits[d]? = some c ∨ upperDigits[d]? = some c)
        (by decide) c (digit_code c d read)
    exact known d read
  · have lower : ∀ d < 16, lowerDigits[d]?.bind (digit? 16) = some d := by decide
    have upper : ∀ d < 16, upperDigits[d]?.bind (digit? 16) = some d := by decide
    rintro (low | high)
    · obtain ⟨small, _⟩ := List.getElem?_eq_some_iff.mp low
      exact (congrArg (·.bind (digit? 16)) low).symm.trans (lower d small)
    · obtain ⟨small, _⟩ := List.getElem?_eq_some_iff.mp high
      exact (congrArg (·.bind (digit? 16)) high).symm.trans (upper d small)

-- Of the sixteen digits a base has the first ones.
theorem digit_of_base (base : Nat) : digit? base c = some d ↔ d < base ∧ digit? 16 c = some d := by
  rw [digit?, digit?, Option.filter_eq_some_iff, Option.filter_eq_some_iff, decide_eq_true_iff, decide_eq_true_iff]
  constructor
  · rintro ⟨value, small⟩
    refine ⟨small, value, ?_⟩
    split at value
    · have same := Option.some.inj value
      omega
    · split at value
      · have same := Option.some.inj value
        omega
      · split at value
        · have same := Option.some.inj value
          omega
        · cases value
  · rintro ⟨small, value, _⟩
    exact ⟨value, small⟩

theorem digit_iff (base : Nat) : digit? base c = some d ↔ IsDigitOf base c d := by
  rw [digit_of_base, sixteen_iff]
  exact ⟨fun ⟨small, listed⟩ => ⟨small, listed⟩, fun digit => ⟨digit.small, digit.listed⟩⟩

end Digits

section Values

variable (base : Nat)

theorem value_snoc (high : Nat) (digits : List Char) (c : Char) :
    valueFrom base high (digits ++ [c]) =
      (valueFrom base high digits).bind fun n => (digit? base c).map fun d => n * base + d := by
  induction digits generalizing high with
  | nil =>
      rw [List.nil_append, valueFrom, valueFrom, Option.bind_some]
      cases digit? base c <;> rfl
  | cons first rest ih =>
      rw [List.cons_append, valueFrom, valueFrom]
      cases digit? base first with
      | none => rfl
      | some d => exact ih _

theorem value_filled (digits : List Char) (filled : digits ≠ []) : value? base digits = valueFrom base 0 digits := by
  rw [value?, if_neg (List.isEmpty_iff.not.mpr filled)]

theorem value_iff (digits : List Char) (n : Nat) : value? base digits = some n ↔ Spells base digits n := by
  constructor
  · induction digits using List.reverseRecOn generalizing n with
    | nil => intro read; cases read
    | append_singleton front c ih =>
        intro read
        rw [value_filled base _ (by simp), value_snoc, Option.bind_eq_some_iff] at read
        obtain ⟨high, before, last⟩ := read
        obtain ⟨d, digit, rfl⟩ := Option.map_eq_some_iff.mp last
        rw [digit_iff] at digit
        by_cases empty : front = []
        · subst empty
          cases before
          rw [Nat.zero_mul, Nat.zero_add]
          exact .single c d digit
        · exact .more front high c d (ih high (value_filled base front empty ▸ before)) digit
  · intro spells
    induction spells with
    | single c d digit =>
        rw [value_filled base _ (by simp), valueFrom, (digit_iff c d base).mpr digit]
        simp only [valueFrom, Nat.zero_mul, Nat.zero_add]
    | more digits n c d front digit ih =>
        have filled : digits ≠ [] := by
          rintro rfl
          cases ih
        rw [value_filled base _ filled] at ih
        rw [value_filled base _ (by simp), value_snoc, ih, (digit_iff c d base).mpr digit]
        rfl

end Values

section Spellings

variable (digits : List Char) (n : Nat)

theorem zeros_in_front (base count : Nat) (positive : 0 < base) (spells : Spells base digits n) :
    Spells base (List.replicate count '0' ++ digits) n := by
  have zero : digit? base '0' = some 0 := (digit_of_base '0' 0 base).mpr ⟨positive, rfl⟩
  rw [← value_iff] at spells ⊢
  have filled : digits ≠ [] := by
    rintro rfl
    cases spells
  rw [value_filled base _ filled] at spells
  rw [value_filled base _ (by simp [filled])]
  induction count with
  | zero => exact spells
  | succ count ih =>
      rw [List.replicate_succ, List.cons_append, valueFrom, zero]
      simp only [Nat.zero_mul, Nat.zero_add]
      exact ih

theorem digit_in_either_case (base : Nat) (c : Char) : digit? base c.toLower = digit? base c := by
  have sixteen : digit? 16 c.toLower = digit? 16 c := by
    by_cases ascii : c.toNat < 0x80
    · exact characters_checked 0x80 (fun c => digit? 16 c.toLower = digit? 16 c) (by decide) c ascii
    · have unlettered : ¬ (c.val ≥ 'A'.val ∧ c.val ≤ 'Z'.val) := by
        rintro ⟨-, below⟩
        exact ascii (Nat.lt_of_le_of_lt (UInt32.le_iff_toNat_le.mp below) (by decide))
      have same : c.toLower = c := dif_neg unlettered
      rw [same]
  apply Option.ext
  intro d
  rw [digit_of_base c.toLower d base, digit_of_base c d base, sixteen]

theorem spells_in_either_case (base : Nat) : Spells base (digits.map Char.toLower) n ↔ Spells base digits n := by
  have value (high : Nat) : valueFrom base high (digits.map Char.toLower) = valueFrom base high digits := by
    induction digits generalizing high with
    | nil => rfl
    | cons c rest ih =>
        rw [List.map_cons, valueFrom, valueFrom, digit_in_either_case]
        cases digit? base c with
        | none => rfl
        | some d => exact ih _
  rw [← value_iff, ← value_iff, value?, value?, value, List.isEmpty_map]

end Spellings

end Devnet.Numeral
