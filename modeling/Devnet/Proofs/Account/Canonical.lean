import Devnet.Proofs.Account.Depth
import Devnet.Proofs.Json.Canonical

set_option autoImplicit false

namespace Devnet.Account

open Json (Tree Text Denotes ElementText Canonical)

-- What is kept of a balance, the one of the account that `index` others stand in front of.
structure Kept (body : String) (accounts : List Account) (index : Nat) (tree : Tree) (value : Json.Value) : Prop where
  denotes : Denotes tree value
  canonical : Canonical tree.nesting value
  digits : ∀ literal, .scalar (.number literal) ∈ tree.parts →
    ∃ number, literal.number? = some number ∧
      (Json.Value.number number).text.toList = Json.minus literal.negative ++ literal.whole
  again : ∃ (place : Place) (chars : List Char), body = place.text chars ∧ place.left.length = index ∧
    ElementText chars tree ∧ parseList? (place.text value.text.toList) = some accounts
  anywhere : ∀ (place : Place) (others : List Account), parseList? (place.text "null".toList) = some others →
    ∃ before account after, others = before ++ account :: after ∧ before.length = place.left.length ∧
      parseList? (place.text value.text.toList) = some (before ++ { account with balance := some value } :: after)

theorem keys_paired (draft final : Draft) (members : List (Text × Tree))
    (reads : treeMembersFrom? draft members = some final) : ∀ member ∈ members, member.1.IsPaired := by
  induction members generalizing draft with
  | nil => exact List.forall_mem_nil _
  | cons member rest ih =>
      obtain ⟨key, tree⟩ := member
      simp only [treeMembersFrom?, Option.bind_eq_some_iff] at reads
      obtain ⟨name, named, next, -, reads⟩ := reads
      rw [Json.string_some_iff] at named
      exact List.forall_mem_cons.mpr ⟨named ▸ of_string_paired name, ih next reads⟩

theorem balance_given (item : Tree) (account : Account) (value : Json.Value) (reads : ofTree? item = some account)
    (given : account.balance = some value) : ∃ tree, tree ∈ balancesOf item := by
  cases item with
  | scalar scalar => cases reads
  | object members =>
      rw [ofTree?, Option.bind_eq_some_iff] at reads
      obtain ⟨draft, reads, made⟩ := reads
      have fills := (members_from_iff _ _ members (keys_paired _ _ members reads)).mp reads
      have balance := ((account_of_draft draft account).mp made).right
      rcases fills.balance with ⟨-, absent⟩ | ⟨-, tree, _, only, -, -⟩
      · rw [absent, given] at balance
        cases balance
      · exact ⟨tree, by rw [balancesOf, only, List.mem_singleton]⟩
  | array items =>
      rw [ofTree?, Option.bind_eq_some_iff] at reads
      obtain ⟨draft, reads, made⟩ := reads
      have balance := ((account_of_draft draft account).mp made).right
      obtain ⟨texts, length, ⟨-, rfl⟩ | ⟨tree, _, rfl, -, -⟩⟩ := (items_from_iff _ _ _ items).mp reads
      · rw [with_texts_balance, given] at balance
        cases balance
      · obtain ⟨address, publicKey, privateKey, initialBalance, rfl⟩ := List.length_eq_four.mp length
        exact ⟨tree, List.mem_singleton_self tree⟩

theorem list_splits (items : List Tree) (before after : List Account) (account : Account)
    (reads : listOf? items = some (before ++ account :: after)) :
    ∃ left item right, items = left ++ item :: right ∧ left.length = before.length ∧ ofTree? item = some account := by
  induction before generalizing items with
  | nil =>
      cases items with
      | nil => cases reads
      | cons item rest =>
          simp only [listOf?, Option.bind_eq_some_iff, Option.map_eq_some_iff] at reads
          obtain ⟨first, here, others, -, same⟩ := reads
          cases same
          exact ⟨[], item, rest, rfl, rfl, here⟩
  | cons head before ih =>
      cases items with
      | nil => cases reads
      | cons item rest =>
          simp only [listOf?, Option.bind_eq_some_iff, Option.map_eq_some_iff] at reads
          obtain ⟨first, -, others, later, same⟩ := reads
          cases same
          obtain ⟨left, found, right, rfl, length, here⟩ := ih rest later
          exact ⟨item :: left, found, right, rfl, congrArg (· + 1) length, here⟩

theorem null_of_denoted (tree : Tree) (denotes : Denotes tree .null) : tree = .scalar .null := by
  cases denotes
  rfl

theorem balance_plain (tree : Tree) (balance : Option Json.Value) (reads : treeBalance? tree = some balance)
    (unannounced : tree.Everywhere Tree.unannounced) : tree.Everywhere Tree.plain := by
  rw [treeBalance?.eq_def] at reads
  split at reads
  · exact (Json.everywhere_scalar_iff _ _).mpr trivial
  · obtain ⟨value, reads, -⟩ := Option.map_eq_some_iff.mp reads
    exact Json.value_read_plain _ _ tree value reads unannounced

theorem canonical_balance (tree : Tree) (value : Json.Value) (balance : BalanceOf tree (some value))
    (canonical : Canonical tree.nesting value) (shallow : tree.nesting ≤ balanceDepth) :
    ∃ printed, ElementText value.text.toList printed ∧ treeBalance? printed = some (some value) := by
  obtain ⟨printed, text, denotes, plain, nested⟩ := Json.canonical_printed _ value canonical
  refine ⟨printed, Json.element_of_value _ printed text, ?_⟩
  rw [balance_read_iff printed _ plain]
  refine ⟨nested.trans shallow, .value printed value ?_ denotes⟩
  rintro rfl
  cases denotes
  cases balance with
  | value _ _ other denoted => exact other (null_of_denoted tree denoted)

theorem printed_digits (tree : Tree) (chars : List Char) (written : ElementText chars tree)
    (integral : tree.Everywhere Tree.integral) (literal : Json.Literal) (inside : .scalar (.number literal) ∈ tree.parts) :
    ∃ number, literal.number? = some number ∧
      (Json.Value.number number).text.toList = Json.minus literal.negative ++ literal.whole := by
  obtain ⟨_, chars, _, _, _, valid, _⟩ := written
  obtain ⟨value, word, rfl⟩ :=
    Json.integral_literal literal (Json.value_unpadded chars tree valid _ inside) (integral _ inside)
  exact ⟨.integer value, Json.integer_read value word, Json.integer_chars value⟩

theorem balance_kept_canonical (body : String) (accounts : List Account) (accepted : parseList? body = some accounts) :
    ∀ before account after value, accounts = before ++ account :: after → account.balance = some value →
      ∃ left item right tree, ElementText body.toList (.array (left ++ item :: right)) ∧ left.length = before.length ∧
        tree ∈ balancesOf item ∧
        (tree.Everywhere Tree.integral → tree.Everywhere Tree.unannounced →
          Kept body accounts before.length tree value) := by
  rintro before account after value rfl given
  have parsed := accepted
  rw [parse_list_checked, Option.bind_eq_some_iff] at parsed
  obtain ⟨document, parses, reads⟩ := parsed
  cases document with
  | scalar _ => cases reads
  | object _ => cases reads
  | array items =>
      obtain ⟨left, item, right, rfl, number, here⟩ := list_splits items before after account reads
      obtain ⟨tree, inside⟩ := balance_given item account value here given
      have grammar := (Json.parse_iff body _).mp parses
      refine ⟨left, item, right, tree, grammar, number, inside, fun integral unannounced => ?_⟩
      obtain ⟨place, chars, rfl, position, written⟩ := place_of_balance body left right item tree grammar inside
      obtain ⟨front, found, behind, split, length, keeps, replaced⟩ := place_reads place chars tree _ written accepted
      obtain ⟨rfl, same⟩ := List.append_inj split (by rw [length, position, number])
      obtain ⟨rfl, rfl⟩ := List.cons.inj same
      rw [given] at keeps
      have plain := balance_plain tree _ keeps unannounced
      rw [balance_read_iff tree _ plain] at keeps
      obtain ⟨shallow, balance⟩ := keeps
      have denotes : Denotes tree value := by
        cases balance with
        | value _ _ _ denotes => exact denotes
      have regular : tree.Everywhere Tree.regular := by
        obtain ⟨_, _, _, _, _, valid, _⟩ := written
        exact fun part inside => ⟨Json.value_unpadded _ tree valid part inside, integral part inside, unannounced part inside⟩
      have canonical := Json.denoted_canonical tree value tree.nesting (Nat.le_refl _) denotes regular
      obtain ⟨printed, spelled, kept⟩ := canonical_balance tree value balance canonical shallow
      refine ⟨denotes, canonical, printed_digits tree chars written integral, ⟨place, chars, rfl, ?_, written, ?_⟩, ?_⟩
      · rw [position, number]
      · rw [replaced _ printed spelled, kept, Option.map_some, ← given]
      · intro other others valid
        obtain ⟨front, found, behind, split, length, -, replaced⟩ := place_reads other _ _ others null_written valid
        exact ⟨front, found, behind, split, length, by rw [replaced _ printed spelled, kept, Option.map_some]⟩

theorem digits_spell (digits : List Char) (n : Nat) (value : Numeral.value? 10 digits = some n) : Numeral.Spells 10 digits n :=
  (Numeral.value_iff 10 digits n).mp value

theorem single_balance (chars printed : List Char)
    (kept : (parseList? (rowPlace.text chars)).map
      (List.map fun account => account.balance.map fun value => value.text.toList) = some [some printed]) :
    ∃ account value, parseList? (rowPlace.text chars) = some [account] ∧ account.balance = some value ∧
      value.text.toList = printed := by
  obtain ⟨accounts, accepted, each⟩ := Option.map_eq_some_iff.mp kept
  obtain ⟨account, rfl, only⟩ := List.map_eq_singleton_iff.mp each
  obtain ⟨value, given, same⟩ := Option.map_eq_some_iff.mp only
  exact ⟨account, value, accepted, given, same⟩

section Mixed

def mixedText : List Char :=
  "\x7b\"b\":0, \"\\u0061\":[18446744073709551615,-9223372036854775808],\"b\":\"\\ud83d\\ude00\\n\"\x7d".toList

def mixed : Tree :=
  .object [(Text.ofString "b", .scalar (.number ⟨false, ['0'], none, none⟩)),
    (Text.ofString "a", .array [.scalar (.number ⟨false, "18446744073709551615".toList, none, none⟩),
      .scalar (.number ⟨true, "9223372036854775808".toList, none, none⟩)]),
    (Text.ofString "b", .scalar (.string [.char (Char.ofNat 0x1F600), .char '\n']))]

theorem mixed_written : ElementText mixedText mixed := by
  have limits : ElementText "[18446744073709551615,-9223372036854775808]".toList _ :=
    Json.element_of_value _ _ (Json.array_of_pieces ["18446744073709551615".toList, "-9223372036854775808".toList] _
      (.cons (Json.element_of_scalar _ (.number ⟨false, "18446744073709551615".toList, none, none⟩) (by decide +kernel))
        (.cons (Json.element_of_scalar _ (.number ⟨true, "9223372036854775808".toList, none, none⟩) (by decide +kernel))
          .nil)))
  have first := Json.member_of_key "\"b\":0".toList "0".toList (Text.ofString "b") _ (by decide +kernel)
    (Json.element_of_scalar _ (.number ⟨false, ['0'], none, none⟩) (by decide +kernel))
  have second := Json.member_of_key " \"\\u0061\":[18446744073709551615,-9223372036854775808]".toList _
    (Text.ofString "a") _ (by decide +kernel) limits
  have third := Json.member_of_key "\"b\":\"\\ud83d\\ude00\\n\"".toList "\"\\ud83d\\ude00\\n\"".toList
    (Text.ofString "b") _ (by decide +kernel)
    (Json.element_of_scalar _ (.string [.char (Char.ofNat 0x1F600), .char '\n']) (by decide +kernel))
  exact Json.element_of_value _ _ (Json.object_of_pieces _ _ (.cons first (.cons second (.cons third .nil))))

theorem mixed_integral : mixed.Everywhere Tree.integral := by
  have zero : Json.Literal.IsIntegral ⟨false, ['0'], none, none⟩ := ⟨rfl, rfl, 0, digits_spell _ _ (by decide), by decide⟩
  have greatest : Json.Literal.IsIntegral ⟨false, "18446744073709551615".toList, none, none⟩ :=
    ⟨rfl, rfl, 18446744073709551615, digits_spell _ _ (by decide), by decide⟩
  have least : Json.Literal.IsIntegral ⟨true, "9223372036854775808".toList, none, none⟩ :=
    ⟨rfl, rfl, 9223372036854775808, digits_spell _ _ (by decide), by decide⟩
  simpa [mixed, Json.everywhere_object_iff, Json.everywhere_array_iff, Json.everywhere_scalar_iff, Tree.integral, zero]
    using And.intro greatest least

theorem mixed_unannounced : mixed.Everywhere Tree.unannounced := by
  have apart (key : String) (other : key ≠ Json.embeddingKey) : Text.ofString key ≠ Text.ofString Json.embeddingKey :=
    fun same => other (Json.of_string_injective _ _ same)
  have first := apart "a" (by decide)
  have second := apart "b" (by decide)
  simp [mixed, Json.everywhere_object_iff, Json.everywhere_array_iff, Json.everywhere_scalar_iff, Tree.unannounced,
    first.symm, second.symm]

def mixedPrinted : List Char :=
  "\x7b\"a\":[18446744073709551615,-9223372036854775808],\"b\":\"".toList ++ Char.ofNat 0x1F600 :: "\\n\"\x7d".toList

theorem balance_kept_canonical_mixed :
    ∃ accounts value, parseList? (rowPlace.text mixedText) = some accounts ∧ value.text.toList = mixedPrinted ∧
      Kept (rowPlace.text mixedText) accounts 0 mixed value := by
  have texts : (parseList? (rowPlace.text mixedText)).map
      (List.map fun account => account.balance.map fun value => value.text.toList) = some [some mixedPrinted] := by
    decide +kernel
  obtain ⟨account, value, accepted, given, printed⟩ := single_balance mixedText mixedPrinted texts
  obtain ⟨left, item, right, tree, grammar, front, inside, kept⟩ :=
    balance_kept_canonical _ [account] accepted [] account [] value rfl given
  have same := Json.element_text_unique _ _ _ grammar (row_written mixedText mixed mixed_written)
  rw [List.length_eq_zero_iff.mp front] at same
  cases same
  obtain rfl := List.mem_singleton.mp inside
  exact ⟨[account], value, accepted, printed, kept mixed_integral mixed_unannounced⟩

end Mixed

-- Where the first key in order is the one that announces an embedded text, the text of the value is no longer
-- that of an object.

section Swapped

def swappedText : List Char := "\x7b\"b\":1,\"$serde_json::private::RawValue\":2\x7d".toList

def swappedPrinted : List Char := "\x7b\"$serde_json::private::RawValue\":2,\"b\":1\x7d".toList

def swapped : Tree :=
  .object [(Text.ofString "b", .scalar (.number ⟨false, ['1'], none, none⟩)),
    (Text.ofString Json.embeddingKey, .scalar (.number ⟨false, ['2'], none, none⟩))]

theorem swapped_text_lost :
    ElementText swappedText swapped ∧ swapped.Everywhere Tree.integral ∧
      ∃ account value, parseList? (rowPlace.text swappedText) = some [account] ∧ account.balance = some value ∧
        value.text.toList = swappedPrinted ∧ parseList? (rowPlace.text value.text.toList) = none := by
  have one : Json.Literal.IsIntegral ⟨false, ['1'], none, none⟩ := ⟨rfl, rfl, 1, digits_spell _ _ (by decide), by decide⟩
  have two : Json.Literal.IsIntegral ⟨false, ['2'], none, none⟩ := ⟨rfl, rfl, 2, digits_spell _ _ (by decide), by decide⟩
  have texts : (parseList? (rowPlace.text swappedText)).map
      (List.map fun account => account.balance.map fun value => value.text.toList) = some [some swappedPrinted] := by
    decide +kernel
  have lost : parseList? (rowPlace.text swappedPrinted) = none := Option.isNone_iff_eq_none.mp (by decide +kernel)
  obtain ⟨account, value, accepted, given, printed⟩ := single_balance swappedText swappedPrinted texts
  refine ⟨(Json.parse_iff _ _).mp (by cbv), ?_, account, value, accepted, given, printed, printed ▸ lost⟩
  simp [swapped, Json.everywhere_object_iff, Json.everywhere_scalar_iff, Tree.integral, one, two]

end Swapped

end Devnet.Account
