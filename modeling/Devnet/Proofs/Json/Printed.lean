import Devnet.Json.Printer
import Devnet.Proofs.Json.Meaning
import Devnet.Proofs.Json.Pieces
import Devnet.Proofs.Text.Spelling
import Devnet.Proofs.Text.Utf8

set_option autoImplicit false

namespace Devnet.Json

theorem control_code (n : Nat) (control : n < 0x20) : Code (Numeral.padded 4 (Numeral.hexDigits n)) n where
  four := by
    have short := Numeral.digits_length 16 n 1 (by decide) [] (Nat.lt_trans control (by decide))
    rw [Numeral.padded, List.length_append, List.length_replicate, Numeral.hexDigits]
    simp only [List.length_nil] at short
    omega
  value := by
    have spells := (Numeral.value_iff 16 _ n).mp (Numeral.value_of_hex n)
    exact (Numeral.value_iff 16 _ n).mpr (Numeral.zeros_in_front _ n 16 _ (by decide) spells)

theorem escaped_text (c : Char) (chars : List Char) (text : Text) (rest : StringText chars text) :
    StringText (escaped c ++ chars) (.char c :: text) := by
  have short (mark c : Char) (listed : (mark, c) ∈ shortEscapes) : StringText (['\\', mark] ++ chars) (.char c :: text) :=
    .short mark c chars text listed rest
  rw [escaped.eq_def]
  split
  · exact short _ _ (by decide)
  · exact short _ _ (by decide)
  · exact short _ _ (by decide)
  · exact short _ _ (by decide)
  · exact short _ _ (by decide)
  · exact short _ _ (by decide)
  · exact short _ _ (by decide)
  · rename_i unquoted unescaped _ _ _ _ _
    split_ifs with control
    · have unpaired : ¬ IsHigh c.toNat ∧ ¬ IsLow c.toNat := by
        unfold IsHigh IsLow
        omega
      have code := StringText.code _ chars c.toNat text (control_code c.toNat control) unpaired rest
      rwa [Char.ofNat_toNat] at code
    · exact .plain c chars text (Nat.le_of_not_lt control) unquoted unescaped rest

theorem escaped_string (chars : List Char) : StringText (chars.flatMap escaped) (chars.map TextUnit.char) := by
  induction chars with
  | nil => exact .nil
  | cons c chars ih => exact escaped_text c _ _ ih

theorem quoted_chars (text : String) : (quoted text).toList = '\x22' :: (text.toList.flatMap escaped ++ ['\x22']) := by
  rw [quoted, String.toList_ofList]
  rfl

theorem quoted_string (text : String) : ValueText (quoted text).toList (.ofString text) := by
  rw [quoted_chars]
  exact .scalar _ _ (.string _ _ (escaped_string text.toList))

theorem quoted_key (name : String) : KeyText (quoted name).toList (Text.ofString name) := by
  rw [quoted_chars]
  exact .mk [] _ [] _ (List.forall_mem_nil _) (escaped_string name.toList) (List.forall_mem_nil _)

theorem decimal_whole (n : Nat) : WholeText (Numeral.decimalDigits n) where
  nonempty := Numeral.decimal_nonempty n
  every := by
    have checked : ∀ c ∈ (List.range 10).map Numeral.digitChar, IsDigit c := members_checked _ _ rfl
    exact fun c listed => checked c (Numeral.decimal_members n c listed)
  canonical := by
    intro rest same
    obtain ⟨d, later, small, leading, head, zero⟩ := Numeral.digits_head 10 n (by decide) (by decide) []
    rw [Numeral.decimalDigits, head] at same
    obtain ⟨first, rfl⟩ := List.cons.inj same
    have ground : ∀ d < 10, Numeral.digitChar d = '0' → d = 0 := by decide
    rcases Nat.eq_zero_or_pos n with empty | positive
    · exact (zero empty).right
    · exact absurd (ground d small first) (Nat.ne_of_gt (leading positive))

def IsWord (value : Int) : Prop := -Int.pow 2 63 ≤ value ∧ value < Int.pow 2 64

theorem is_word_iff (value : Int) : IsWord value ↔ -9223372036854775808 ≤ value ∧ value < 18446744073709551616 := by
  have least : Int.pow 2 63 = 9223372036854775808 := by decide
  have beyond : Int.pow 2 64 = 18446744073709551616 := by decide
  rw [IsWord, least, beyond]

def literalOf (value : Int) : Literal := ⟨decide (value < 0), Numeral.decimalDigits value.natAbs, none, none⟩

theorem integer_chars (value : Int) :
    (integerText value).toList = minus (literalOf value).negative ++ (literalOf value).whole := by
  cases value with
  | ofNat n =>
      have digits : (Numeral.decimal n).toList = Numeral.decimalDigits n := String.toList_ofList
      have unsigned : ¬ Int.ofNat n < 0 := Int.not_lt.mpr (Int.natCast_nonneg n)
      simp only [integerText, literalOf, decide_eq_false unsigned, minus, List.nil_append, digits]
      rfl
  | negSucc n =>
      have digits : (Numeral.decimal (n + 1)).toList = Numeral.decimalDigits (n + 1) := String.toList_ofList
      simp only [integerText, literalOf, decide_eq_true (Int.negSucc_lt_zero n), minus, String.toList_append, digits]
      rfl

theorem integer_number (value : Int) : NumberText (integerText value).toList (literalOf value) := by
  have written := NumberText.mk (literalOf value).negative _ [] [] none none (decimal_whole value.natAbs) .none .none
  simp only [List.append_nil] at written
  rw [integer_chars]
  exact written

theorem integer_read (value : Int) (word : IsWord value) : (literalOf value).number? = some (.integer value) := by
  obtain ⟨low, high⟩ := (is_word_iff value).mp word
  have digits := Numeral.value_of_decimal value.natAbs
  have bound : Numeral.wordBound = 2 ^ 64 := rfl
  have greatest : Nat.pow 2 63 = 2 ^ 63 := rfl
  rw [Literal.number?]
  simp only [literalOf, Option.isSome_none, Bool.or_false, Bool.false_eq_true, if_false, digits, Option.getD_some,
    decide_eq_true_eq]
  by_cases negative : value < 0
  · rw [if_pos negative, if_pos (by omega)]
    congr 2
    simp only [Int.ofNat_eq_natCast]
    omega
  · rw [if_neg negative, if_pos (by omega)]
    congr 2
    simp only [Int.ofNat_eq_natCast]
    omega

theorem joined_chars (texts : List String) : (joined texts).toList = commas (texts.map String.toList) := by
  rw [joined, String.toList_intercalate]
  rfl

theorem item_texts (items : List Value) : itemTexts items = items.map Value.text := by
  induction items with
  | nil => rfl
  | cons item rest ih => rw [itemTexts, ih, List.map_cons]

theorem member_texts (members : Members) :
    memberTexts members = members.map fun member => quoted member.1 ++ ":" ++ member.2.text := by
  induction members with
  | nil => rfl
  | cons member rest ih => rw [memberTexts, ih, List.map_cons]

theorem array_chars (items : List Value) :
    (Value.array items).text.toList = '[' :: (commas (items.map fun item => item.text.toList) ++ [']']) := by
  rw [Value.text, String.toList_append, String.toList_append, joined_chars, item_texts, List.map_map]
  rfl

theorem object_chars (members : Members) :
    (Value.object members).text.toList =
      '\x7b' :: (commas (members.map fun member => (quoted member.1).toList ++ ':' :: member.2.text.toList) ++ ['\x7d']) := by
  rw [Value.text, String.toList_append, String.toList_append, joined_chars, member_texts, List.map_map]
  simp only [Function.comp_def, String.toList_append, List.append_assoc]
  rfl

inductive Canonical : Nat → Value → Prop where
  | null (depth : Nat) : Canonical depth .null
  | bool (depth : Nat) (value : Bool) : Canonical depth (.bool value)
  | integer (depth : Nat) (value : Int) (word : IsWord value) : Canonical depth (.number (.integer value))
  | string (depth : Nat) (text : String) : Canonical depth (.string text)
  | array (depth : Nat) (items : List Value) (each : ∀ item ∈ items, Canonical depth item) :
      Canonical (depth + 1) (.array items)
  | object (depth : Nat) (members : Members)
      (increasing : members.Pairwise fun first second => Utf8.encode first.1 < Utf8.encode second.1)
      (silent : ∀ value rest, members ≠ (embeddingKey, value) :: rest)
      (each : ∀ member ∈ members, Canonical depth member.2) : Canonical (depth + 1) (.object members)

instance : Inhabited Tree := ⟨.scalar .null⟩

structure Printed (depth : Nat) (value : Value) (tree : Tree) : Prop where
  text : ValueText value.text.toList tree
  denotes : Denotes tree value
  plain : tree.Everywhere Tree.plain
  shallow : tree.nesting ≤ depth

theorem printed_scalar (depth : Nat) (value : Value) (scalar : Scalar) (text : ScalarText value.text.toList scalar)
    (denotes : Denotes (.scalar scalar) value) : Printed depth value (.scalar scalar) where
  text := .scalar _ _ text
  denotes := denotes
  plain := (everywhere_scalar_iff _ scalar).mpr trivial
  shallow := Nat.zero_le depth

theorem printed_array (depth : Nat) (items : List Value) (trees : List Tree)
    (each : List.Forall₂ (Printed depth) items trees) : Printed (depth + 1) (.array items) (.array trees) where
  text := by
    have pieces : List.Forall₂ ElementText (items.map fun item => item.text.toList) trees :=
      List.forall₂_map_left_iff.mpr (each.imp fun _ _ printed => element_of_value _ _ printed.text)
    rw [array_chars]
    exact array_of_pieces _ trees pieces
  denotes := by
    refine .array trees items ?_
    induction each with
    | nil => exact .nil
    | cons first _ ih => exact .cons _ _ _ _ first.denotes ih
  plain := by
    refine (everywhere_array_iff _ _).mpr ⟨trivial, ?_⟩
    induction each with
    | nil => exact List.forall_mem_nil _
    | cons first _ ih => exact List.forall_mem_cons.mpr ⟨first.plain, ih⟩
  shallow := by
    refine Nat.succ_le_succ ?_
    induction each with
    | nil => exact Nat.zero_le depth
    | cons first _ ih => exact max_le first.shallow ih

theorem lookup_reverse (members : Members) (ordered : Ordered members) (key : String) :
    members.lookup key = members.reverse.lookup key := by
  induction members with
  | nil => rfl
  | cons member rest ih =>
      obtain ⟨name, value⟩ := member
      obtain ⟨above, ordered⟩ := List.pairwise_cons.mp ordered
      rw [List.reverse_cons, List.lookup_append, lookup_member, lookup_member, ← ih ordered, List.lookup_nil]
      by_cases same : key = name
      · rw [if_pos same, if_pos same, same, lookup_above rest name above, Option.none_or]
      · rw [if_neg same, if_neg same, Option.or_none]

theorem increasing_ordered (members : Members) :
    (members.Pairwise fun first second => Utf8.encode first.1 < Utf8.encode second.1) ↔ Ordered members := by
  simp only [Utf8.encode_lt_iff, Ordered]

theorem printed_object (depth : Nat) (members : Members) (trees : List (Text × Tree)) (ordered : Ordered members)
    (silent : ∀ value rest, members ≠ (embeddingKey, value) :: rest)
    (each : List.Forall₂ (fun member tree => tree.1 = Text.ofString member.1 ∧ Printed depth member.2 tree.2) members trees) :
    Printed (depth + 1) (.object members) (.object trees) where
  text := by
    have pieces : List.Forall₂ MemberText
        (members.map fun member => (quoted member.1).toList ++ ':' :: member.2.text.toList) trees := by
      refine List.forall₂_map_left_iff.mpr (each.imp fun member tree written => ?_)
      obtain ⟨key, tree⟩ := tree
      obtain ⟨rfl, printed⟩ := written
      exact .mk _ _ _ _ (quoted_key member.1) (element_of_value _ tree printed.text)
    rw [object_chars]
    exact object_of_pieces _ trees pieces
  denotes := by
    refine .object trees members members ?_ ordered (lookup_reverse members ordered)
    clear silent ordered
    induction each with
    | nil => exact .nil
    | @cons member tree _ _ first _ ih =>
        obtain ⟨key, tree⟩ := tree
        obtain ⟨rfl, printed⟩ := first
        exact .cons _ _ _ _ _ printed.denotes ih
  plain := by
    refine (everywhere_object_iff _ _).mpr ⟨?_, ?_⟩
    · cases each with
      | nil => trivial
      | @cons member tree rest _ first _ =>
          rw [Tree.plain, first.left]
          intro same
          exact silent member.2 rest (congrArg (· :: rest) (Prod.ext (of_string_injective _ _ same) rfl))
    · clear silent ordered
      induction each with
      | nil => exact List.forall_mem_nil _
      | cons first _ ih => exact List.forall_mem_cons.mpr ⟨first.right.plain, ih⟩
  shallow := by
    refine Nat.succ_le_succ ?_
    clear silent ordered
    induction each with
    | nil => exact Nat.zero_le depth
    | cons first _ ih => exact max_le first.right.shallow ih

theorem canonical_printed (depth : Nat) (value : Value) (canonical : Canonical depth value) :
    ∃ tree, Printed depth value tree := by
  induction canonical with
  | null depth => exact ⟨_, printed_scalar depth .null .null .null .null⟩
  | bool depth value =>
      cases value with
      | true => exact ⟨_, printed_scalar depth (.bool true) _ .yes (.bool true)⟩
      | false => exact ⟨_, printed_scalar depth (.bool false) _ .no (.bool false)⟩
  | integer depth value word =>
      exact ⟨_, printed_scalar depth (.number (.integer value)) _ (.number _ _ (integer_number value))
        (.number _ _ (integer_read value word))⟩
  | string depth text =>
      refine ⟨_, printed_scalar depth (.string text) (.string (Text.ofString text)) ?_ (.string text)⟩
      rw [Value.text, quoted_chars]
      exact .string _ _ (escaped_string text.toList)
  | array depth items _ ih =>
      choose! tree printed using ih
      exact ⟨_, printed_array depth items (items.map tree) (List.forall₂_map_right_iff.mpr (List.forall₂_same.mpr printed))⟩
  | object depth members increasing silent _ ih =>
      choose! tree printed using ih
      refine ⟨_, printed_object depth members (members.map fun member => (Text.ofString member.1, tree member))
        ((increasing_ordered members).mp increasing) silent ?_⟩
      exact List.forall₂_map_right_iff.mpr (List.forall₂_same.mpr fun member inside => ⟨rfl, printed member inside⟩)

end Devnet.Json
