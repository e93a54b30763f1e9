import Devnet.Proofs.Json.Text
import Devnet.Proofs.Json.Token

set_option autoImplicit false

namespace Devnet.Json

inductive ScalarText : List Char → Scalar → Prop where
  | null : ScalarText ['n', 'u', 'l', 'l'] .null
  | yes : ScalarText ['t', 'r', 'u', 'e'] (.bool true)
  | no : ScalarText ['f', 'a', 'l', 's', 'e'] (.bool false)
  | number (chars : List Char) (literal : Literal) (valid : NumberText chars literal) :
      ScalarText chars (.number literal)
  | string (chars : List Char) (text : Text) (valid : StringText chars text) :
      ScalarText ('\x22' :: (chars ++ ['\x22'])) (.string text)

theorem word_iff (word text rest : List Char) (scalar found : Scalar) :
    word? word scalar text = some (found, rest) ↔ found = scalar ∧ text = word ++ rest := by
  rw [word?]
  by_cases fits : word.isPrefixOf text = true
  · obtain ⟨left, rfl⟩ := List.isPrefixOf_iff_prefix.mp fits
    rw [if_pos fits, List.drop_left]
    simp [eq_comm]
  · rw [if_neg fits]
    constructor
    · intro absent
      cases absent
    · rintro ⟨-, rfl⟩
      exact absurd (List.isPrefixOf_iff_prefix.mpr (List.prefix_append word rest)) fits

def StartsNumber (c : Char) : Prop := c = '-' ∨ IsDigit c

instance (c : Char) : Decidable (StartsNumber c) := inferInstanceAs (Decidable (_ ∨ _))

theorem number_text_head (chars : List Char) (literal : Literal) (valid : NumberText chars literal) :
    ∃ c rest, chars = c :: rest ∧ StartsNumber c := by
  obtain ⟨negative, whole, fractionText, exponentText, fraction, exponent, wholeValid, -, -⟩ := valid
  obtain ⟨first, more, rfl⟩ := List.exists_cons_of_ne_nil wholeValid.nonempty
  cases negative with
  | true => exact ⟨'-', _, rfl, .inl rfl⟩
  | false => exact ⟨first, _, rfl, .inr (wholeValid.every first List.mem_cons_self)⟩

theorem starts_number_apart (c other : Char) (starts : StartsNumber c) (apart : ¬ StartsNumber other) : c ≠ other :=
  fun same => apart (same ▸ starts)

theorem scalar_sound (text rest : List Char) (scalar : Scalar) (reads : scalar? text = some (scalar, rest)) :
    ∃ chars, text = chars ++ rest ∧ ScalarText chars scalar := by
  cases text with
  | nil => cases reads
  | cons c after =>
      rw [scalar?] at reads
      split_ifs at reads with quote null yes no
      · rw [Option.map_eq_some_iff] at reads
        obtain ⟨⟨text, left⟩, reads, same⟩ := reads
        cases same
        obtain ⟨chars, rfl, valid⟩ := string_sound after rest text reads
        refine ⟨'\x22' :: (chars ++ ['\x22']), ?_, .string chars text valid⟩
        rw [quote]
        simp
      · obtain ⟨rfl, rfl⟩ := (word_iff _ _ _ _ _).mp reads
        exact ⟨_, by rw [null]; rfl, .null⟩
      · obtain ⟨rfl, rfl⟩ := (word_iff _ _ _ _ _).mp reads
        exact ⟨_, by rw [yes]; rfl, .yes⟩
      · obtain ⟨rfl, rfl⟩ := (word_iff _ _ _ _ _).mp reads
        exact ⟨_, by rw [no]; rfl, .no⟩
      · rw [Option.map_eq_some_iff] at reads
        obtain ⟨⟨literal, left⟩, reads, same⟩ := reads
        cases same
        obtain ⟨chars, split, valid⟩ := literal_sound (c :: after) rest literal reads
        exact ⟨chars, split, .number chars literal valid⟩

theorem scalar_complete (chars rest : List Char) (scalar : Scalar) (valid : ScalarText chars scalar)
    (delimited : Delimited rest) : scalar? (chars ++ rest) = some (scalar, rest) := by
  cases valid with
  | null => exact (word_iff ['u', 'l', 'l'] _ rest .null .null).mpr ⟨rfl, rfl⟩
  | yes => exact (word_iff ['r', 'u', 'e'] _ rest (.bool true) (.bool true)).mpr ⟨rfl, rfl⟩
  | no => exact (word_iff ['a', 'l', 's', 'e'] _ rest (.bool false) (.bool false)).mpr ⟨rfl, rfl⟩
  | number _ literal valid =>
      have reads := literal_complete chars rest literal valid delimited
      obtain ⟨c, more, rfl, starts⟩ := number_text_head chars literal valid
      rw [List.cons_append] at reads ⊢
      rw [scalar?, if_neg (starts_number_apart c _ starts (by decide)), if_neg (starts_number_apart c _ starts (by decide)),
        if_neg (starts_number_apart c _ starts (by decide)), if_neg (starts_number_apart c _ starts (by decide)), reads]
      rfl
  | string chars text valid =>
      have reads := string_complete chars rest text valid
      rw [List.cons_append, List.append_assoc, List.singleton_append, scalar?, if_pos rfl, reads]
      rfl

theorem scalar_text_head (chars : List Char) (scalar : Scalar) (valid : ScalarText chars scalar) :
    ∃ c rest, chars = c :: rest ∧ c ∉ '[' :: '\x7b' :: ']' :: blanks := by
  cases valid with
  | null => exact ⟨'n', _, rfl, by decide⟩
  | yes => exact ⟨'t', _, rfl, by decide⟩
  | no => exact ⟨'f', _, rfl, by decide⟩
  | number _ literal valid =>
      obtain ⟨c, rest, rfl, starts⟩ := number_text_head chars literal valid
      refine ⟨c, rest, rfl, ?_⟩
      intro member
      have apart : Apart (fun other => decide (StartsNumber other)) ('[' :: '\x7b' :: ']' :: blanks) := by decide
      exact of_decide_eq_false (apart_member _ _ c apart member) starts
  | string chars text valid => exact ⟨'\x22', _, rfl, by decide⟩

theorem start_split (text rest : List Char) (start : Start) (reads : start? text = some (start, rest)) :
    ∃ before, Blanks before ∧
      match start with
      | .scalar scalar => ∃ chars, text = before ++ (chars ++ rest) ∧ ScalarText chars scalar
      | .array => text = before ++ '[' :: rest
      | .object => text = before ++ '\x7b' :: rest := by
  obtain ⟨before, blank, split⟩ := skip_blanks_split text
  refine ⟨before, blank, ?_⟩
  rw [start?] at reads
  cases visible : skipBlanks text with
  | nil => simp [visible] at reads
  | cons c after =>
      rw [visible] at split
      simp only [visible] at reads
      split_ifs at reads with bracket brace
      · cases reads
        rw [bracket] at split
        exact split
      · cases reads
        rw [brace] at split
        exact split
      · rw [Option.map_eq_some_iff] at reads
        obtain ⟨⟨scalar, left⟩, readsScalar, same⟩ := reads
        cases same
        obtain ⟨chars, valueSplit, valid⟩ := scalar_sound (c :: after) left scalar readsScalar
        exact ⟨chars, by rw [split, valueSplit], valid⟩

theorem start_scalar_sound (text rest : List Char) (scalar : Scalar)
    (reads : start? text = some (.scalar scalar, rest)) :
    ∃ before chars, Blanks before ∧ text = before ++ (chars ++ rest) ∧ ScalarText chars scalar := by
  obtain ⟨before, blank, chars, split, valid⟩ := start_split text rest _ reads
  exact ⟨before, chars, blank, split, valid⟩

theorem start_array_sound (text rest : List Char) (reads : start? text = some (.array, rest)) :
    ∃ before, Blanks before ∧ text = before ++ '[' :: rest :=
  start_split text rest _ reads

theorem start_object_sound (text rest : List Char) (reads : start? text = some (.object, rest)) :
    ∃ before, Blanks before ∧ text = before ++ '\x7b' :: rest :=
  start_split text rest _ reads

section Start

variable (before : List Char) (blank : Blanks before)

include blank

theorem start_scalar (chars rest : List Char) (scalar : Scalar) (valid : ScalarText chars scalar)
    (delimited : Delimited rest) : start? (before ++ (chars ++ rest)) = some (.scalar scalar, rest) := by
  have reads := scalar_complete chars rest scalar valid delimited
  obtain ⟨c, more, rfl, apart⟩ := scalar_text_head chars scalar valid
  simp only [List.mem_cons, not_or] at apart
  obtain ⟨bracket, brace, -, visible⟩ := apart
  rw [List.cons_append] at reads ⊢
  rw [start?, skip_blanks_append before _ blank, skip_blanks_visible c _ visible]
  simp only [if_neg bracket, if_neg brace, reads, Option.map_some]

theorem start_array (rest : List Char) : start? (before ++ '[' :: rest) = some (.array, rest) := by
  rw [start?, skip_blanks_append before _ blank, skip_blanks_visible '[' rest (by decide)]
  rfl

theorem start_object (rest : List Char) : start? (before ++ '\x7b' :: rest) = some (.object, rest) := by
  rw [start?, skip_blanks_append before _ blank, skip_blanks_visible '\x7b' rest (by decide)]
  rfl

end Start

theorem expect_sound (expected : Char) (text rest : List Char) (reads : expect? expected text = some rest) :
    ∃ before, Blanks before ∧ text = before ++ expected :: rest := by
  obtain ⟨before, blank, split⟩ := skip_blanks_split text
  refine ⟨before, blank, ?_⟩
  rw [expect?] at reads
  cases visible : skipBlanks text with
  | nil => simp [visible] at reads
  | cons c after =>
      rw [visible] at split
      simp only [visible] at reads
      split_ifs at reads with same
      cases reads
      rw [split, same]

theorem expect_complete (expected : Char) (before rest : List Char) (blank : Blanks before)
    (visible : expected ∉ blanks) : expect? expected (before ++ expected :: rest) = some rest := by
  rw [expect?, skip_blanks_append before _ blank, skip_blanks_visible expected rest visible]
  simp only [if_pos]

theorem expect_other (expected c : Char) (before rest : List Char) (blank : Blanks before) (visible : c ∉ blanks)
    (other : c ≠ expected) : expect? expected (before ++ c :: rest) = none := by
  rw [expect?, skip_blanks_append before _ blank, skip_blanks_visible c rest visible]
  simp only [if_neg other]

section Container

variable {α : Type} (bracket : Char)

theorem inside_sound (text : List Char) (empty filled : List Char → Option α) (result : α)
    (reads : inside? bracket text empty filled = some result) :
    (∃ before after, Blanks before ∧ text = before ++ bracket :: after ∧ empty after = some result) ∨
      filled text = some result := by
  rw [inside?] at reads
  cases closes : expect? bracket text with
  | none =>
      rw [closes] at reads
      exact .inr reads
  | some after =>
      rw [closes] at reads
      obtain ⟨before, blank, split⟩ := expect_sound bracket text after closes
      exact .inl ⟨before, after, blank, split, reads⟩

theorem inside_empty (before after : List Char) (empty filled : List Char → Option α) (blank : Blanks before)
    (visible : bracket ∉ blanks) : inside? bracket (before ++ bracket :: after) empty filled = empty after := by
  rw [inside?, expect_complete bracket before after blank visible]

theorem inside_filled (text : List Char) (empty filled : List Char → Option α) (goes_on : expect? bracket text = none) :
    inside? bracket text empty filled = filled text := by
  rw [inside?, goes_on]

theorem behind_sound (text : List Char) (last more : List Char → Option α) (result : α)
    (reads : behind? bracket text last more = some result) :
    (∃ before after, Blanks before ∧ text = before ++ bracket :: after ∧ last after = some result) ∨
      ∃ before next, Blanks before ∧ text = before ++ ',' :: next ∧ more next = some result := by
  obtain ⟨before, blank, split⟩ := skip_blanks_split text
  rw [behind?, separator?] at reads
  cases visible : skipBlanks text with
  | nil => simp [visible] at reads
  | cons c after =>
      rw [visible] at split
      simp only [visible] at reads
      by_cases close : c = bracket
      · rw [if_pos close] at reads
        exact .inl ⟨before, after, blank, by rw [split, close], reads⟩
      · by_cases comma : c = ','
        · rw [if_neg close, if_pos comma] at reads
          exact .inr ⟨before, after, blank, by rw [split, comma], reads⟩
        · rw [if_neg close, if_neg comma] at reads
          cases reads

variable (before rest : List Char) (last more : List Char → Option α) (blank : Blanks before)

include blank

theorem behind_last (visible : bracket ∉ blanks) : behind? bracket (before ++ bracket :: rest) last more = last rest := by
  rw [behind?, separator?, skip_blanks_append before _ blank, skip_blanks_visible bracket rest visible]
  simp only [if_pos]

theorem behind_more (other : bracket ≠ ',') : behind? bracket (before ++ ',' :: rest) last more = more rest := by
  rw [behind?, separator?, skip_blanks_append before _ blank, skip_blanks_visible ',' rest (by decide)]
  simp only [if_neg other.symm, if_pos]

end Container

inductive KeyText : List Char → Text → Prop where
  | mk (before chars after : List Char) (key : Text) (blankBefore : Blanks before) (valid : StringText chars key)
      (blankAfter : Blanks after) : KeyText (before ++ '\x22' :: (chars ++ '\x22' :: after)) key

theorem key_sound (text rest : List Char) (key : Text) (reads : key? text = some (key, rest)) :
    ∃ chars, text = chars ++ ':' :: rest ∧ KeyText chars key := by
  simp only [key?, Option.bind_eq_some_iff, Option.map_eq_some_iff] at reads
  obtain ⟨quoted, readsQuote, ⟨found, afterKey⟩, readsKey, left, readsColon, same⟩ := reads
  cases same
  obtain ⟨before, blankBefore, rfl⟩ := expect_sound '\x22' text quoted readsQuote
  obtain ⟨chars, rfl, valid⟩ := string_sound quoted afterKey found readsKey
  obtain ⟨after, blankAfter, rfl⟩ := expect_sound ':' afterKey rest readsColon
  refine ⟨_, ?_, .mk before chars after found blankBefore valid blankAfter⟩
  simp

theorem key_complete (chars rest : List Char) (key : Text) (valid : KeyText chars key) :
    key? (chars ++ ':' :: rest) = some (key, rest) := by
  obtain ⟨before, chars, after, key, blankBefore, valid, blankAfter⟩ := valid
  have reads := string_complete chars (after ++ ':' :: rest) key valid
  have quote := expect_complete '\x22' before (chars ++ '\x22' :: (after ++ ':' :: rest)) blankBefore (by decide)
  have colon := expect_complete ':' after rest blankAfter (by decide)
  simp only [List.append_assoc, List.cons_append]
  simp only [key?, quote, reads, colon, Option.bind_some, Option.map_some]

end Devnet.Json
