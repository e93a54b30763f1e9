import Devnet.Proofs.Text.Spelling

set_option autoImplicit false

namespace Devnet.Numeral

def MaybeSigned (text : String) (chars : List Char) : Prop := text.toList = chars ∨ text.toList = '+' :: chars

-- A text of digits whose number fits 64 bits. Zeros in front do not count.
structure IsWordText (text : String) (n : Nat) : Prop where
  spelled : ∃ digits, MaybeSigned text digits ∧ Spells 10 digits n
  fits : n < Nat.pow 2 64

def Overflows (text : String) : Prop :=
  ∃ digits rest n, MaybeSigned text (digits ++ rest) ∧ Spells 10 digits n ∧ Nat.pow 2 64 ≤ n

-- Of a text that is none of a 64-bit number, what is wrong with it.
structure IsFaultOf (e : WordError) (text : String) : Prop where
  unread : ∀ n, ¬ IsWordText text n
  empty : e = .empty ↔ text = ""
  tooLarge : e = .tooLarge ↔ Overflows text

theorem word_bound_positive : 0 < wordBound := by decide

section Digits

variable (high n : Nat) (digits : List Char)

theorem value_grows (read : valueFrom 10 high digits = some n) : high ≤ n := by
  induction digits generalizing high with
  | nil =>
      cases read
      exact Nat.le_refl _
  | cons c rest ih =>
      rw [valueFrom] at read
      cases digit : digit? 10 c with
      | none =>
          rw [digit] at read
          cases read
      | some d =>
          rw [digit] at read
          have further := ih (high * 10 + d) read
          omega

-- By induction on the digits: the number so far stays below the bound, and one that does not never comes back.
theorem word_from_iff (small : high < wordBound) :
    wordFrom high digits = .ok n ↔ valueFrom 10 high digits = some n ∧ n < wordBound := by
  induction digits generalizing high with
  | nil =>
      rw [wordFrom, valueFrom, Except.ok.injEq, Option.some.injEq]
      refine ⟨fun same => ⟨same, same ▸ small⟩, fun both => both.1⟩
  | cons c rest ih =>
      rw [wordFrom, valueFrom]
      cases digit? 10 c with
      | none => simp
      | some d =>
          by_cases fits : high * 10 + d < wordBound
          · simp only [if_pos fits]
            exact ih (high * 10 + d) fits
          · simp only [if_neg fits, reduceCtorEq, false_iff, not_and]
            intro read below
            have further := value_grows (high * 10 + d) n rest read
            omega

theorem word_from_large_iff (small : high < wordBound) :
    wordFrom high digits = .error .tooLarge ↔
      ∃ front rest n, digits = front ++ rest ∧ valueFrom 10 high front = some n ∧ wordBound ≤ n := by
  induction digits generalizing high with
  | nil =>
      rw [wordFrom]
      refine ⟨fun failed => (nomatch failed), ?_⟩
      rintro ⟨front, rest, n, split, read, large⟩
      rw [(List.append_eq_nil_iff.mp split.symm).1] at read
      cases read
      omega
  | cons c more ih =>
      -- What is in front of an overflow is not empty, since `high` is small.
      have first : (∃ front rest n, c :: more = front ++ rest ∧ valueFrom 10 high front = some n ∧ wordBound ≤ n) ↔
          ∃ front rest n, more = front ++ rest ∧ valueFrom 10 high (c :: front) = some n ∧ wordBound ≤ n := by
        refine ⟨?_, ?_⟩
        · rintro ⟨front, rest, n, split, read, large⟩
          cases front with
          | nil =>
              cases read
              omega
          | cons b front =>
              obtain ⟨same, split⟩ := List.cons.inj split
              exact ⟨front, rest, n, split, same ▸ read, large⟩
        · rintro ⟨front, rest, n, split, read, large⟩
          exact ⟨c :: front, rest, n, by rw [split, List.cons_append], read, large⟩
      rw [first, wordFrom]
      simp only [valueFrom]
      cases digit? 10 c with
      | none => simp
      | some d =>
          by_cases fits : high * 10 + d < wordBound
          · simp only [if_pos fits]
            exact ih (high * 10 + d) fits
          · simp only [if_neg fits, true_iff]
            exact ⟨[], more, high * 10 + d, rfl, rfl, Nat.le_of_not_lt fits⟩

theorem word_from_not_empty : wordFrom high digits ≠ .error .empty := by
  induction digits generalizing high with
  | nil =>
      rw [wordFrom]
      exact nofun
  | cons c rest ih =>
      rw [wordFrom]
      cases digit? 10 c with
      | none => exact nofun
      | some d =>
          by_cases fits : high * 10 + d < wordBound
          · simp only [if_pos fits]
            exact ih (high * 10 + d)
          · simp only [if_neg fits]
            exact nofun

end Digits

theorem spelled_first (digits : List Char) (n : Nat) (spells : Spells 10 digits n) :
    valueFrom 10 0 digits = some n ∧ ∃ c rest d, digits = c :: rest ∧ digit? 10 c = some d := by
  rw [← value_iff] at spells
  cases digits with
  | nil => cases spells
  | cons c rest =>
      rw [value_filled 10 _ (List.cons_ne_nil c rest)] at spells
      refine ⟨spells, c, rest, ?_⟩
      rw [valueFrom] at spells
      cases digit : digit? 10 c with
      | none =>
          rw [digit] at spells
          cases spells
      | some d => exact ⟨d, rfl, rfl⟩

theorem spells_of_value (digits : List Char) (n : Nat) (filled : digits ≠ []) (read : valueFrom 10 0 digits = some n) :
    Spells 10 digits n := by
  rw [← value_iff, value_filled 10 digits filled]
  exact read

section Texts

variable (text : String)

theorem word_cases :
    (text = "" ∧ word text = .error .empty) ∨ (text = "+" ∧ word text = .error .invalidDigit) ∨
      ∃ digits, digits ≠ [] ∧ MaybeSigned text digits ∧ word text = wordFrom 0 digits := by
  unfold word
  split
  case h_1 chars => exact .inl ⟨String.toList_inj.mp chars, rfl⟩
  case h_2 chars => exact .inr (.inl ⟨String.toList_inj.mp chars, rfl⟩)
  case h_3 digits more chars => exact .inr (.inr ⟨digits, fun empty => more empty, .inr chars, rfl⟩)
  case h_4 filled _ _ => exact .inr (.inr ⟨_, filled, .inl rfl, rfl⟩)

theorem word_of_digits (c : Char) (rest : List Char) (d : Nat) (digit : digit? 10 c = some d)
    (written : MaybeSigned text (c :: rest)) : word text = wordFrom 0 (c :: rest) := by
  unfold word
  rcases written with chars | chars
  · rw [chars]
    split
    case h_1 same => cases same
    case h_2 same =>
      cases same
      cases digit
    case h_3 same =>
      cases same
      cases digit
    case h_4 => rfl
  · rw [chars]
    rfl

theorem word_text_iff (n : Nat) : word text = .ok n ↔ IsWordText text n := by
  refine ⟨fun read => ?_, ?_⟩
  · rcases word_cases text with ⟨_, failed⟩ | ⟨_, failed⟩ | ⟨digits, filled, written, same⟩
    · cases failed.symm.trans read
    · cases failed.symm.trans read
    · obtain ⟨value, fits⟩ := (word_from_iff 0 n digits word_bound_positive).mp (same.symm.trans read)
      exact ⟨⟨digits, written, spells_of_value digits n filled value⟩, fits⟩
  · rintro ⟨⟨digits, written, spells⟩, fits⟩
    obtain ⟨value, c, rest, d, same, digit⟩ := spelled_first digits n spells
    rw [same] at written value
    rw [word_of_digits text c rest d digit written, word_from_iff 0 n _ word_bound_positive]
    exact ⟨value, fits⟩

theorem word_large_iff : word text = .error .tooLarge ↔ Overflows text := by
  refine ⟨fun read => ?_, ?_⟩
  · rcases word_cases text with ⟨_, failed⟩ | ⟨_, failed⟩ | ⟨digits, filled, written, same⟩
    · cases failed.symm.trans read
    · cases failed.symm.trans read
    · obtain ⟨front, rest, n, split, value, large⟩ := (word_from_large_iff 0 digits word_bound_positive).mp (same.symm.trans read)
      have digitsInFront : front ≠ [] := by
        rintro rfl
        cases value
        exact Nat.not_le_of_lt word_bound_positive large
      exact ⟨front, rest, n, split ▸ written, spells_of_value front n digitsInFront value, large⟩
  · rintro ⟨digits, rest, n, written, spells, large⟩
    obtain ⟨value, c, more, d, same, digit⟩ := spelled_first digits n spells
    have whole : digits ++ rest = c :: (more ++ rest) := by rw [same, List.cons_append]
    rw [word_of_digits text c (more ++ rest) d digit (whole ▸ written), word_from_large_iff 0 _ word_bound_positive]
    exact ⟨digits, rest, n, whole.symm, value, large⟩

theorem word_empty_iff : word text = .error .empty ↔ text = "" := by
  refine ⟨fun read => ?_, fun empty => by rw [empty]; rfl⟩
  rcases word_cases text with ⟨empty, _⟩ | ⟨_, failed⟩ | ⟨digits, _, _, same⟩
  · exact empty
  · cases failed.symm.trans read
  · exact absurd (same.symm.trans read) (word_from_not_empty 0 digits)

theorem word_fault_iff (e : WordError) : word text = .error e ↔ IsFaultOf e text := by
  constructor
  · intro failed
    refine ⟨fun n accepted => ?_, ?_, ?_⟩
    · cases failed.symm.trans ((word_text_iff text n).mpr accepted)
    · rw [← word_empty_iff, failed, Except.error.injEq]
    · rw [← word_large_iff, failed, Except.error.injEq]
  · intro fault
    cases read : word text with
    | ok n => exact absurd ((word_text_iff text n).mp read) (fault.unread n)
    | error other =>
        -- The two faults with a condition of their own tell all three apart.
        have empty : other = .empty ↔ e = .empty := by
          rw [fault.empty, ← word_empty_iff, read, Except.error.injEq]
        have large : other = .tooLarge ↔ e = .tooLarge := by
          rw [fault.tooLarge, ← word_large_iff, read, Except.error.injEq]
        cases e <;> cases other <;> simp_all

end Texts

end Devnet.Numeral
