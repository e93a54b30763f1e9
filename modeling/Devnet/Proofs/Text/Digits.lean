import Devnet.Text.Numeral

set_option autoImplicit false

namespace Devnet

-- What all members of a closed list have in common is checked member by member.
theorem members_checked {α : Type} (items : List α) (property : α → Prop) [DecidablePred property]
    (checked : items.all (fun item => decide (property item)) = true) : ∀ item ∈ items, property item := by
  intro item member
  exact of_decide_eq_true (List.all_eq_true.mp checked item member)

theorem characters_checked (bound : Nat) (property : Char → Prop)
    (checked : ∀ n < bound, property (Char.ofNat n)) (c : Char) (below : c.toNat < bound) : property c := by
  rw [← Char.ofNat_toNat c]
  exact checked c.toNat below

namespace Numeral

theorem digit_of_char (base d : Nat) (limited : base ≤ 16) (small : d < base) : digit? base (digitChar d) = some d := by
  have known : ∀ d, d < 16 → digit? 16 (digitChar d) = some d := by decide
  have sixteen := known d (by omega)
  rw [digit?, Option.filter_eq_some_iff] at sixteen
  rw [digit?, Option.filter_eq_some_iff]
  exact ⟨sixteen.1, decide_eq_true small⟩

theorem digit_small (base : Nat) (c : Char) (d : Nat) (read : digit? base c = some d) : d < base := by
  rw [digit?, Option.filter_eq_some_iff] at read
  exact of_decide_eq_true read.2

theorem value_of_digits (base n : Nat) (h : 1 < base) (limited : base ≤ 16) (later : List Char) :
    valueFrom base 0 (digitsBefore base h n later) = valueFrom base n later := by
  induction n using Nat.strongRecOn generalizing later with
  | ind n ih =>
      rw [digitsBefore]
      by_cases small : n < base
      · rw [dif_pos small, valueFrom, digit_of_char base n limited small]
        simp only [Nat.zero_mul, Nat.zero_add]
      · have smaller : n / base < n := Nat.div_lt_self (by omega) h
        have last : n % base < base := Nat.mod_lt n (by omega)
        rw [dif_neg small, ih (n / base) smaller, valueFrom, digit_of_char base _ limited last]
        simp only [Nat.mul_comm (n / base) base, Nat.div_add_mod]

theorem digits_members (base n : Nat) (h : 1 < base) (later : List Char) :
    ∀ c ∈ digitsBefore base h n later, (∃ d, d < base ∧ c = digitChar d) ∨ c ∈ later := by
  induction n using Nat.strongRecOn generalizing later with
  | ind n ih =>
      intro c member
      rw [digitsBefore] at member
      by_cases small : n < base
      · rw [dif_pos small] at member
        rcases List.mem_cons.mp member with first | rest
        · exact .inl ⟨n, small, first⟩
        · exact .inr rest
      · rw [dif_neg small] at member
        rcases ih (n / base) (Nat.div_lt_self (by omega) h) _ c member with digit | rest
        · exact .inl digit
        · rcases List.mem_cons.mp rest with first | later
          · exact .inl ⟨n % base, Nat.mod_lt n (by omega), first⟩
          · exact .inr later

theorem digits_head (base n : Nat) (h : 1 < base) (limited : base ≤ 16) (later : List Char) :
    ∃ d rest, d < base ∧ (0 < n → 0 < d) ∧ digitsBefore base h n later = digitChar d :: rest ∧
      (n = 0 → d = 0 ∧ rest = later) := by
  induction n using Nat.strongRecOn generalizing later with
  | ind n ih =>
      rw [digitsBefore]
      by_cases small : n < base
      · rw [dif_pos small]
        exact ⟨n, later, small, id, rfl, fun zero => ⟨zero, rfl⟩⟩
      · have positive : 0 < n / base := Nat.div_pos (by omega) (by omega)
        obtain ⟨d, rest, digit, leading, same, _⟩ := ih (n / base) (Nat.div_lt_self (by omega) h)
          (digitChar (n % base) :: later)
        rw [dif_neg small]
        exact ⟨d, rest, digit, fun _ => leading positive, same, fun zero => absurd zero (by omega)⟩

theorem digits_length (base n count : Nat) (h : 1 < base) (later : List Char)
    (small : n < Nat.pow base (count + 1)) :
    (digitsBefore base h n later).length ≤ count + 1 + later.length := by
  induction count generalizing n later with
  | zero =>
      have single : n < base := by
        rw [← Nat.one_mul base]
        exact small
      rw [digitsBefore, dif_pos single, List.length_cons]
      omega
  | succ count ih =>
      rw [digitsBefore]
      by_cases single : n < base
      · rw [dif_pos single, List.length_cons]
        omega
      · have less : n / base < Nat.pow base (count + 1) := by
          rw [Nat.div_lt_iff_lt_mul (by omega)]
          exact small
        have bound := ih (n / base) (digitChar (n % base) :: later) less
        rw [dif_neg single]
        rw [List.length_cons] at bound
        omega

theorem value_bound (base high n : Nat) (digits : List Char) (read : valueFrom base high digits = some n) :
    n < (high + 1) * Nat.pow base digits.length := by
  induction digits generalizing high with
  | nil =>
      cases read
      show n < (n + 1) * 1
      omega
  | cons c rest ih =>
      rw [valueFrom] at read
      cases digit : digit? base c with
      | none =>
          rw [digit] at read
          cases read
      | some d =>
          rw [digit] at read
          have small := digit_small base c d digit
          have bound := ih (high * base + d) read
          have step : (high * base + d + 1) * Nat.pow base rest.length ≤ ((high + 1) * base) * Nat.pow base rest.length := by
            apply Nat.mul_le_mul_right
            rw [Nat.succ_mul]
            omega
          have power : Nat.pow base (c :: rest).length = base * Nat.pow base rest.length := Nat.mul_comm _ _
          rw [power, ← Nat.mul_assoc]
          exact Nat.lt_of_lt_of_le bound step

section Base

variable (base n : Nat) (h : 1 < base)

theorem base_members : ∀ c ∈ digitsBefore base h n [], c ∈ (List.range base).map digitChar := by
  intro c member
  rcases digits_members base n h [] c member with ⟨d, small, same⟩ | none
  · exact same ▸ List.mem_map_of_mem (List.mem_range.mpr small)
  · cases none

theorem base_nonempty (limited : base ≤ 16) : digitsBefore base h n [] ≠ [] := by
  obtain ⟨_, _, _, _, same, _⟩ := digits_head base n h limited []
  rw [same]
  exact List.cons_ne_nil _ _

theorem value_of_base (limited : base ≤ 16) : value? base (digitsBefore base h n []) = some n := by
  have filled : ¬ (digitsBefore base h n []).isEmpty = true :=
    fun empty => base_nonempty base n h limited (List.isEmpty_iff.mp empty)
  rw [value?, if_neg filled]
  exact value_of_digits base n h limited []

end Base

section Printed

variable (n : Nat)

theorem decimal_members : ∀ c ∈ decimalDigits n, c ∈ (List.range 10).map digitChar := base_members 10 n _

theorem hex_members : ∀ c ∈ hexDigits n, c ∈ (List.range 16).map digitChar := base_members 16 n _

theorem decimal_nonempty : decimalDigits n ≠ [] := base_nonempty 10 n _ (by decide)

theorem hex_nonempty : hexDigits n ≠ [] := base_nonempty 16 n _ (by decide)

theorem value_of_decimal : value? 10 (decimalDigits n) = some n := value_of_base 10 n _ (by decide)

theorem value_of_hex : value? 16 (hexDigits n) = some n := value_of_base 16 n _ (by decide)

end Printed
end Numeral
end Devnet
