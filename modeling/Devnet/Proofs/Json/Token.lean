import Devnet.Json.Scanner
import Mathlib.Data.List.TakeWhile
import Mathlib.Tactic.SplitIfs

set_option autoImplicit false

namespace Devnet.Json

def blanks : List Char := [' ', '\t', '\n', '\r']

def Blanks (text : List Char) : Prop := ∀ c ∈ text, c ∈ blanks

-- By the characters that are there, and not by all of them.
instance (text : List Char) : Decidable (Blanks text) := List.decidableBAll (fun c => c ∈ blanks) text

theorem blank_iff (c : Char) : isBlank c = true ↔ c ∈ blanks := by
  simp [isBlank, blanks, or_assoc]

theorem blanks_taken (text : List Char) : Blanks (text.takeWhile isBlank) := by
  intro c member
  exact (blank_iff c).mp (List.mem_takeWhile_imp member)

theorem skip_blanks_split (text : List Char) : ∃ before, Blanks before ∧ text = before ++ skipBlanks text := by
  refine ⟨text.takeWhile isBlank, blanks_taken text, ?_⟩
  rw [skipBlanks, List.takeWhile_append_dropWhile]

theorem skip_blanks_append (before text : List Char) (blank : Blanks before) :
    skipBlanks (before ++ text) = skipBlanks text := by
  rw [skipBlanks, skipBlanks, List.dropWhile_append_of_pos]
  intro c member
  exact (blank_iff c).mpr (blank c member)

theorem skip_blanks_visible (c : Char) (text : List Char) (visible : c ∉ blanks) :
    skipBlanks (c :: text) = c :: text := by
  rw [skipBlanks, List.dropWhile_cons_of_neg]
  rw [blank_iff]
  exact visible

theorem skip_blanks_empty (text : List Char) : (skipBlanks text).isEmpty = true ↔ Blanks text := by
  rw [skipBlanks, List.isEmpty_iff, List.dropWhile_eq_nil_iff]
  simp only [blank_iff]
  rfl

def IsDigit (c : Char) : Prop := '0' ≤ c ∧ c ≤ '9'

instance (c : Char) : Decidable (IsDigit c) := inferInstanceAs (Decidable (_ ∧ _))

structure Digits (text : List Char) : Prop where
  nonempty : text ≠ []
  every : ∀ c ∈ text, IsDigit c

def Stops (class? : Char → Bool) (text : List Char) : Prop := ∀ c ∈ text.head?, class? c = false

theorem digit_iff (c : Char) : isDigit c = true ↔ IsDigit c := by
  have order : IsDigit c ↔ 0x30 ≤ c.toNat ∧ c.toNat ≤ 0x39 := Iff.rfl
  rw [order, isDigit, Numeral.digit?]
  split_ifs with decimal lower upper
  · simp [decimal]
    omega
  · simp [decimal]
  · simp [decimal]
  · simp [decimal]

theorem digits_sound (text digits rest : List Char) (reads : digits? text = some (digits, rest)) :
    text = digits ++ rest ∧ Digits digits := by
  rw [digits?] at reads
  by_cases empty : (text.takeWhile isDigit).isEmpty = true
  · simp [empty] at reads
  · simp only [empty, Bool.false_eq_true, if_false, Option.some.injEq, Prod.mk.injEq] at reads
    obtain ⟨rfl, rfl⟩ := reads
    refine ⟨List.takeWhile_append_dropWhile.symm, ?_, ?_⟩
    · simpa only [List.isEmpty_iff] using empty
    · intro c member
      exact (digit_iff c).mp (List.mem_takeWhile_imp member)

theorem digits_complete (digits rest : List Char) (valid : Digits digits) (stops : Stops isDigit rest) :
    digits? (digits ++ rest) = some (digits, rest) := by
  have all : ∀ c ∈ digits, isDigit c = true := fun c member => (digit_iff c).mpr (valid.every c member)
  have none : rest.takeWhile isDigit = [] ∧ rest.dropWhile isDigit = rest := by
    cases rest with
    | nil => exact ⟨rfl, rfl⟩
    | cons c rest =>
        have stop := stops c rfl
        simp [stop]
  rw [digits?, List.takeWhile_append_of_pos all, List.dropWhile_append_of_pos all, none.left, none.right,
    List.append_nil]
  simp [valid.nonempty]

structure WholeText (digits : List Char) : Prop extends Digits digits where
  canonical : ∀ rest, digits = '0' :: rest → rest = []

inductive FractionText : List Char → Option (List Char) → Prop where
  | none : FractionText [] none
  | some (digits : List Char) (valid : Digits digits) : FractionText ('.' :: digits) (some digits)

def exponentSigns : List (List Char × Bool) := [([], false), (['+'], false), (['-'], true)]

inductive ExponentText : List Char → Option Exponent → Prop where
  | none : ExponentText [] none
  | some (mark : Char) (sign : List Char) (negative : Bool) (digits : List Char) (marked : mark ∈ ['e', 'E'])
      (signed : (sign, negative) ∈ exponentSigns) (valid : Digits digits) :
      ExponentText (mark :: (sign ++ digits)) (some ⟨negative, digits⟩)

def minus : Bool → List Char
  | true => ['-']
  | false => []

inductive NumberText : List Char → Literal → Prop where
  | mk (negative : Bool) (whole fractionText exponentText : List Char) (fraction : Option (List Char))
      (exponent : Option Exponent) (wholeValid : WholeText whole) (fractionValid : FractionText fractionText fraction)
      (exponentValid : ExponentText exponentText exponent) :
      NumberText (minus negative ++ (whole ++ (fractionText ++ exponentText))) ⟨negative, whole, fraction, exponent⟩

theorem whole_sound (text whole rest : List Char) (reads : whole? text = some (whole, rest)) :
    text = whole ++ rest ∧ WholeText whole := by
  rw [whole?] at reads
  split at reads
  · cases reads
  · rename_i result canonical
    obtain ⟨split, valid⟩ := digits_sound text whole rest reads
    refine ⟨split, valid, ?_⟩
    intro more same
    cases more with
    | nil => rfl
    | cons c more => exact absurd reads (by rw [same]; exact canonical c more rest)

theorem whole_complete (whole rest : List Char) (valid : WholeText whole) (stops : Stops isDigit rest) :
    whole? (whole ++ rest) = some (whole, rest) := by
  have reads := digits_complete whole rest valid.toDigits stops
  rw [whole?]
  split
  · rename_i c more after zero
    rw [reads] at zero
    cases zero
    exact absurd (valid.canonical (c :: more) rfl) (List.cons_ne_nil c more)
  · exact reads

theorem fraction_sound (text rest : List Char) (fraction : Option (List Char))
    (reads : fraction? text = some (fraction, rest)) :
    ∃ chars, text = chars ++ rest ∧ FractionText chars fraction := by
  rw [fraction?.eq_def] at reads
  split at reads
  · rename_i after
    rw [Option.map_eq_some_iff] at reads
    obtain ⟨⟨digits, left⟩, reads, same⟩ := reads
    cases same
    obtain ⟨split, valid⟩ := digits_sound after digits rest reads
    exact ⟨'.' :: digits, by rw [split]; rfl, .some digits valid⟩
  · cases reads
    exact ⟨[], rfl, .none⟩

theorem fraction_complete (chars rest : List Char) (fraction : Option (List Char))
    (valid : FractionText chars fraction) (stops : Stops isDigit rest) (pointless : rest.head? ≠ some '.') :
    fraction? (chars ++ rest) = some (fraction, rest) := by
  cases valid with
  | none =>
      rw [List.nil_append, fraction?.eq_def]
      split
      · exact absurd rfl pointless
      · rfl
  | some digits valid =>
      rw [List.cons_append, fraction?, digits_complete digits rest valid stops]
      rfl

theorem exponent_sign_sound (text : List Char) :
    ∃ sign, text = sign ++ (exponentSign text).2 ∧ (sign, (exponentSign text).1) ∈ exponentSigns := by
  rw [exponentSign.eq_def]
  split
  · exact ⟨['-'], rfl, by simp [exponentSigns]⟩
  · exact ⟨['+'], rfl, by simp [exponentSigns]⟩
  · exact ⟨[], rfl, by simp [exponentSigns]⟩

theorem exponent_sign_complete (sign digits rest : List Char) (negative : Bool)
    (signed : (sign, negative) ∈ exponentSigns) (valid : Digits digits) :
    exponentSign (sign ++ (digits ++ rest)) = (negative, digits ++ rest) := by
  obtain ⟨first, more, rfl⟩ := List.exists_cons_of_ne_nil valid.nonempty
  have digit := valid.every first List.mem_cons_self
  simp only [exponentSigns, List.mem_cons, Prod.mk.injEq, List.not_mem_nil, or_false] at signed
  rcases signed with ⟨rfl, rfl⟩ | ⟨rfl, rfl⟩ | ⟨rfl, rfl⟩
  · rw [List.nil_append, exponentSign.eq_def]
    split
    · rename_i same
      cases same
      exact absurd digit (by decide)
    · rename_i same
      cases same
      exact absurd digit (by decide)
    · rfl
  · rfl
  · rfl

theorem exponent_sound (text rest : List Char) (exponent : Option Exponent)
    (reads : exponent? text = some (exponent, rest)) :
    ∃ chars, text = chars ++ rest ∧ ExponentText chars exponent := by
  cases text with
  | nil =>
      cases reads
      exact ⟨[], rfl, .none⟩
  | cons mark after =>
      by_cases marked : mark = 'e' ∨ mark = 'E'
      · obtain ⟨sign, signedText, signed⟩ := exponent_sign_sound after
        rw [exponent?, if_pos marked, Option.map_eq_some_iff] at reads
        obtain ⟨⟨digits, left⟩, reads, same⟩ := reads
        cases same
        obtain ⟨split, valid⟩ := digits_sound _ digits rest reads
        refine ⟨mark :: (sign ++ digits), ?_, .some mark sign _ digits (by simpa using marked) signed valid⟩
        rw [List.cons_append, List.append_assoc, ← split, ← signedText]
      · rw [exponent?, if_neg marked] at reads
        cases reads
        exact ⟨[], rfl, .none⟩

theorem exponent_complete (chars rest : List Char) (exponent : Option Exponent)
    (valid : ExponentText chars exponent) (stops : Stops isDigit rest)
    (unmarked : Stops (fun c => c == 'e' || c == 'E') rest) :
    exponent? (chars ++ rest) = some (exponent, rest) := by
  cases valid with
  | none =>
      cases rest with
      | nil => rfl
      | cons c rest =>
          have other : ¬ (c = 'e' ∨ c = 'E') := by simpa using unmarked c rfl
          rw [List.nil_append, exponent?, if_neg other]
  | some mark sign negative digits marked signed valid =>
      have marked : mark = 'e' ∨ mark = 'E' := by simpa using marked
      have reads := digits_complete digits rest valid stops
      rw [List.cons_append, List.append_assoc, exponent?, if_pos marked,
        exponent_sign_complete sign digits rest negative signed valid]
      simp only [reads, Option.map_some]

theorem minus_sign_sound (text : List Char) : text = minus (minusSign text).1 ++ (minusSign text).2 := by
  rw [minusSign.eq_def]
  split <;> rfl

theorem minus_sign_complete (negative : Bool) (digits rest : List Char) (valid : Digits digits) :
    minusSign (minus negative ++ (digits ++ rest)) = (negative, digits ++ rest) := by
  obtain ⟨first, more, rfl⟩ := List.exists_cons_of_ne_nil valid.nonempty
  have digit := valid.every first List.mem_cons_self
  cases negative with
  | true => rfl
  | false =>
      rw [minus, List.nil_append, minusSign.eq_def]
      split
      · rename_i same
        cases same
        exact absurd digit (by decide)
      · rfl

theorem literal_sound (text rest : List Char) (literal : Literal) (reads : literal? text = some (literal, rest)) :
    ∃ chars, text = chars ++ rest ∧ NumberText chars literal := by
  simp only [literal?, bind, Option.bind_eq_some_iff, pure, Option.some.injEq, Prod.mk.injEq] at reads
  obtain ⟨⟨whole, afterWhole⟩, readsWhole, ⟨fraction, afterFraction⟩, readsFraction, ⟨exponent, afterExponent⟩,
    readsExponent, rfl, rfl⟩ := reads
  obtain ⟨wholeSplit, wholeValid⟩ := whole_sound _ whole afterWhole readsWhole
  obtain ⟨fractionText, fractionSplit, fractionValid⟩ := fraction_sound afterWhole afterFraction fraction readsFraction
  obtain ⟨exponentText, exponentSplit, exponentValid⟩ := exponent_sound afterFraction _ exponent readsExponent
  refine ⟨_, ?_, .mk (minusSign text).1 whole fractionText exponentText fraction exponent wholeValid fractionValid
    exponentValid⟩
  calc
    text = minus (minusSign text).1 ++ (minusSign text).2 := minus_sign_sound text
    _ = minus (minusSign text).1 ++ (whole ++ (fractionText ++ exponentText)) ++ afterExponent := by
      rw [wholeSplit, fractionSplit, exponentSplit]
      simp only [List.append_assoc]

-- A character that may stand behind a value, the end of a text not counted.
def delimiters : List Char := [' ', '\t', '\n', '\r', ',', ']', '\x7d']

def Delimited (text : List Char) : Prop := ∀ c ∈ text.head?, c ∈ delimiters

def Apart (class? : Char → Bool) (chars : List Char) : Prop := chars.any class? = false

instance (class? : Char → Bool) (chars : List Char) : Decidable (Apart class? chars) :=
  inferInstanceAs (Decidable (_ = _))

theorem apart_member (class? : Char → Bool) (chars : List Char) (c : Char) (apart : Apart class? chars)
    (member : c ∈ chars) : class? c = false :=
  Bool.eq_false_iff.mpr (List.any_eq_false.mp apart c member)

theorem delimited_stops (class? : Char → Bool) (text : List Char) (delimited : Delimited text)
    (apart : Apart class? delimiters) : Stops class? text := by
  intro c head
  exact apart_member class? delimiters c apart (delimited c head)

theorem exponent_text_stops (class? : Char → Bool) (chars rest : List Char) (exponent : Option Exponent)
    (valid : ExponentText chars exponent) (stops : Stops class? rest)
    (unmarked : Apart class? ['e', 'E']) : Stops class? (chars ++ rest) := by
  cases valid with
  | none => exact stops
  | some mark sign negative digits marked signed valid =>
      intro c head
      cases head
      exact apart_member class? _ mark unmarked marked

theorem fraction_text_stops (chars rest : List Char) (fraction : Option (List Char))
    (valid : FractionText chars fraction) (stops : Stops isDigit rest) : Stops isDigit (chars ++ rest) := by
  cases valid with
  | none => exact stops
  | some digits valid =>
      intro c head
      cases head
      rfl

theorem literal_complete (chars rest : List Char) (literal : Literal) (valid : NumberText chars literal)
    (delimited : Delimited rest) : literal? (chars ++ rest) = some (literal, rest) := by
  obtain ⟨negative, whole, fractionText, exponentText, fraction, exponent, wholeValid, fractionValid, exponentValid⟩ :=
    valid
  have restStops : Stops isDigit rest := delimited_stops isDigit rest delimited (by decide)
  have exponentStops : Stops isDigit (exponentText ++ rest) :=
    exponent_text_stops isDigit exponentText rest exponent exponentValid restStops (by decide)
  have fractionStops : Stops isDigit (fractionText ++ (exponentText ++ rest)) :=
    fraction_text_stops fractionText _ fraction fractionValid exponentStops
  have pointless : (exponentText ++ rest).head? ≠ some '.' := by
    have stops := exponent_text_stops (· == '.') exponentText rest exponent exponentValid
      (delimited_stops _ rest delimited (by decide)) (by decide)
    intro head
    exact absurd (stops '.' head) (by decide)
  have readsExponent := exponent_complete exponentText rest exponent exponentValid restStops
    (delimited_stops _ rest delimited (by decide))
  have readsFraction := fraction_complete fractionText _ fraction fractionValid exponentStops pointless
  have readsWhole := whole_complete whole _ wholeValid fractionStops
  simp only [List.append_assoc]
  simp only [literal?, minus_sign_complete negative whole _ wholeValid.toDigits, readsWhole, readsFraction,
    readsExponent, bind, Option.bind_some, pure]

end Devnet.Json
