import Devnet.Json.Scanner
import Mathlib.Data.List.Basic

set_option autoImplicit false

namespace Devnet.Json

def shortEscapes : List (Char × Char) :=
  [('\x22', '\x22'), ('\\', '\\'), ('/', '/'), ('b', '\x08'), ('f', '\x0c'), ('n', '\n'), ('r', '\r'), ('t', '\t')]

structure Code (digits : List Char) (code : Nat) : Prop where
  four : digits.length = 4
  value : Numeral.value? 16 digits = some code

def IsHigh (code : Nat) : Prop := 0xD800 ≤ code ∧ code ≤ 0xDBFF

def IsLow (code : Nat) : Prop := 0xDC00 ≤ code ∧ code ≤ 0xDFFF

def escape (digits : List Char) : List Char := '\\' :: 'u' :: digits

def paired (high low : Nat) : Char := Char.ofNat (0x10000 + (high - 0xD800) * 0x400 + (low - 0xDC00))

inductive StringText : List Char → Text → Prop where
  | nil : StringText [] []
  | plain (c : Char) (chars : List Char) (text : Text) (visible : 0x20 ≤ c.toNat) (unquoted : c ≠ '\x22')
      (unescaped : c ≠ '\\') (rest : StringText chars text) : StringText (c :: chars) (.char c :: text)
  | short (mark c : Char) (chars : List Char) (text : Text) (short : (mark, c) ∈ shortEscapes)
      (rest : StringText chars text) : StringText ('\\' :: mark :: chars) (.char c :: text)
  | code (digits chars : List Char) (code : Nat) (text : Text) (spelled : Code digits code)
      (unpaired : ¬ IsHigh code ∧ ¬ IsLow code) (rest : StringText chars text) :
      StringText (escape digits ++ chars) (.char (Char.ofNat code) :: text)
  | pair (highDigits lowDigits chars : List Char) (high low : Nat) (text : Text) (spelledHigh : Code highDigits high)
      (spelledLow : Code lowDigits low) (isHigh : IsHigh high) (isLow : IsLow low) (rest : StringText chars text) :
      StringText (escape highDigits ++ (escape lowDigits ++ chars)) (.char (paired high low) :: text)
  | lone (digits chars : List Char) (code : Nat) (text : Text) (spelled : Code digits code)
      (surrogate : IsHigh code ∨ IsLow code) (rest : StringText chars text)
      (alone : IsHigh code → ∀ low later, text = .surrogate low :: later → ¬ IsLow low) :
      StringText (escape digits ++ chars) (.surrogate code :: text)

theorem simple_escape_iff (mark c : Char) : simpleEscape? mark = some c ↔ (mark, c) ∈ shortEscapes := by
  rw [simpleEscape?.eq_def]
  split <;> simp_all [shortEscapes, eq_comm]

theorem high_iff (code : Nat) : isHighSurrogate code = true ↔ IsHigh code := by
  simp [isHighSurrogate, IsHigh]

theorem low_iff (code : Nat) : isLowSurrogate code = true ↔ IsLow code := by
  simp [isLowSurrogate, IsLow]

theorem low_not_high (code : Nat) (isLow : IsLow code) : ¬ IsHigh code := by
  intro isHigh
  have above := isLow.left
  have below := isHigh.right
  omega

theorem unit_of_surrogate (code : Nat) (surrogate : IsHigh code ∨ IsLow code) : unitOf code = .surrogate code := by
  rw [unitOf, if_pos]
  simpa only [Bool.or_eq_true, high_iff, low_iff] using surrogate

theorem unit_of_character (code : Nat) (unpaired : ¬ IsHigh code ∧ ¬ IsLow code) :
    unitOf code = .char (Char.ofNat code) := by
  rw [unitOf, if_neg]
  simpa only [Bool.or_eq_true, high_iff, low_iff, not_or] using unpaired

theorem cons_unit_pair (high low : Nat) (text : Text) (isHigh : IsHigh high) (isLow : IsLow low) :
    consUnit high (.surrogate low :: text) = .char (paired high low) :: text := by
  have both : (isHighSurrogate high && isLowSurrogate low) = true := by
    rw [Bool.and_eq_true, high_iff, low_iff]
    exact ⟨isHigh, isLow⟩
  rw [consUnit, if_pos both, paired]

theorem cons_unit_alone (code : Nat) (text : Text)
    (alone : IsHigh code → ∀ low later, text = .surrogate low :: later → ¬ IsLow low) :
    consUnit code text = unitOf code :: text := by
  rw [consUnit.eq_def]
  split
  · rename_i low later
    rw [if_neg]
    rw [Bool.and_eq_true, high_iff, low_iff]
    rintro ⟨isHigh, isLow⟩
    exact alone isHigh low later rfl isLow
  · rfl

theorem surrogate_text (chars : List Char) (code : Nat) (text : Text) (valid : StringText chars (.surrogate code :: text)) :
    ∃ digits rest, chars = escape digits ++ rest ∧ Code digits code ∧ StringText rest text := by
  cases valid with
  | lone digits rest _ _ spelled surrogate valid alone => exact ⟨digits, rest, rfl, spelled, valid⟩

theorem string_text_code (digits chars : List Char) (code : Nat) (text : Text) (spelled : Code digits code)
    (valid : StringText chars text) : StringText (escape digits ++ chars) (consUnit code text) := by
  by_cases joins : IsHigh code ∧ ∃ low later, text = .surrogate low :: later ∧ IsLow low
  · obtain ⟨isHigh, low, later, rfl, isLow⟩ := joins
    obtain ⟨lowDigits, rest, rfl, spelledLow, valid⟩ := surrogate_text chars low later valid
    rw [cons_unit_pair code low later isHigh isLow]
    exact .pair digits lowDigits rest code low later spelled spelledLow isHigh isLow valid
  · have alone : IsHigh code → ∀ low later, text = .surrogate low :: later → ¬ IsLow low :=
      fun isHigh low later same isLow => joins ⟨isHigh, low, later, same, isLow⟩
    rw [cons_unit_alone code text alone]
    by_cases surrogate : IsHigh code ∨ IsLow code
    · rw [unit_of_surrogate code surrogate]
      exact .lone digits chars code text spelled surrogate valid alone
    · have unpaired := not_or.mp surrogate
      rw [unit_of_character code unpaired]
      exact .code digits chars code text spelled unpaired valid

theorem string_sound (input after : List Char) (text : Text) (reads : string? input = some (text, after)) :
    ∃ chars, input = chars ++ '\x22' :: after ∧ StringText chars text := by
  fun_induction string? input generalizing text after with
  | case1 => cases reads
  | case2 rest =>
      cases reads
      exact ⟨[], rfl, .nil⟩
  | case3 a b c d rest code inner left readsRest value ih =>
      cases reads
      obtain ⟨chars, rfl, valid⟩ := ih left inner readsRest
      exact ⟨escape [a, b, c, d] ++ chars, rfl, string_text_code [a, b, c, d] chars code inner ⟨rfl, value⟩ valid⟩
  | case4 => cases reads
  | case5 mark rest _ c inner left readsRest short ih =>
      cases reads
      obtain ⟨chars, rfl, valid⟩ := ih left inner readsRest
      exact ⟨'\\' :: mark :: chars, rfl, .short mark c chars inner ((simple_escape_iff mark c).mp short) valid⟩
  | case6 => cases reads
  | case7 => cases reads
  | case8 => cases reads
  | case9 c rest unquoted _ _ visible unescaped ih =>
      rw [Option.map_eq_some_iff] at reads
      obtain ⟨⟨inner, left⟩, readsRest, same⟩ := reads
      cases same
      obtain ⟨chars, rfl, valid⟩ := ih after inner readsRest
      exact ⟨c :: chars, rfl, .plain c chars inner (Nat.le_of_not_lt visible) unquoted unescaped valid⟩

theorem read_plain (c : Char) (rest : List Char) (visible : 0x20 ≤ c.toNat) (unquoted : c ≠ '\x22')
    (unescaped : c ≠ '\\') :
    string? (c :: rest) = (string? rest).map fun (text, after) => (.char c :: text, after) := by
  rw [string?.eq_def]
  split
  · rename_i same
    cases same
  · rename_i same
    cases same
    exact absurd rfl unquoted
  · rename_i same
    cases same
    exact absurd rfl unescaped
  · rename_i same
    cases same
    exact absurd rfl unescaped
  · rename_i same
    cases same
    rw [if_neg (Nat.not_lt_of_le visible), if_neg unescaped]

theorem read_short (mark c : Char) (rest : List Char) (short : (mark, c) ∈ shortEscapes) :
    string? ('\\' :: mark :: rest) = (string? rest).map fun (text, after) => (.char c :: text, after) := by
  have unnumbered : mark ≠ 'u' := by
    rintro rfl
    exact absurd short (by simp [shortEscapes])
  have simple := (simple_escape_iff mark c).mpr short
  rw [string?.eq_def]
  split
  · rename_i same
    cases same
  · rename_i same
    cases same
  · rename_i same
    cases same
    exact absurd rfl unnumbered
  · rename_i same
    cases same
    rw [simple]
    cases string? rest <;> rfl
  · rename_i clash same
    cases same
    exact absurd rfl (clash mark rest rfl)

theorem read_code (digits rest : List Char) (code : Nat) (spelled : Code digits code) :
    string? (escape digits ++ rest) = (string? rest).map fun (text, after) => (consUnit code text, after) := by
  obtain ⟨a, b, c, d, rfl⟩ : ∃ a b c d, digits = [a, b, c, d] := List.length_eq_four.mp spelled.four
  have value := spelled.value
  rw [escape]
  simp only [List.cons_append, List.nil_append]
  rw [string?, value]
  cases string? rest <;> rfl

theorem string_complete (chars after : List Char) (text : Text) (valid : StringText chars text) :
    string? (chars ++ '\x22' :: after) = some (text, after) := by
  induction valid with
  | nil => rfl
  | plain c chars text visible unquoted unescaped _ ih =>
      rw [List.cons_append, read_plain c _ visible unquoted unescaped, ih]
      rfl
  | short mark c chars text short _ ih =>
      rw [List.cons_append, List.cons_append, read_short mark c _ short, ih]
      rfl
  | code digits chars code text spelled unpaired _ ih =>
      have alone : IsHigh code → ∀ low later, text = .surrogate low :: later → ¬ IsLow low :=
        fun isHigh => absurd isHigh unpaired.left
      rw [List.append_assoc, read_code digits _ code spelled, ih]
      simp only [Option.map_some, cons_unit_alone code text alone, unit_of_character code unpaired]
  | pair highDigits lowDigits chars high low text spelledHigh spelledLow isHigh isLow _ ih =>
      have alone : IsHigh low → ∀ next later, text = .surrogate next :: later → ¬ IsLow next :=
        fun both => absurd both (low_not_high low isLow)
      rw [List.append_assoc, List.append_assoc, read_code highDigits _ high spelledHigh,
        read_code lowDigits _ low spelledLow, ih]
      simp only [Option.map_some, cons_unit_alone low text alone, unit_of_surrogate low (.inr isLow),
        cons_unit_pair high low text isHigh isLow]
  | lone digits chars code text spelled surrogate _ alone ih =>
      rw [List.append_assoc, read_code digits _ code spelled, ih]
      simp only [Option.map_some, cons_unit_alone code text alone, unit_of_surrogate code surrogate]

end Devnet.Json
