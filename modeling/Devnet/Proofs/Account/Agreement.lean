import Devnet.Proofs.Account.Listing
import Mathlib.Data.List.Forall2

set_option autoImplicit false

namespace Devnet.Account

open Json (Text Tree ElementText)

theorem list_of_iff (items : List Tree) (accounts : List Account) (paired : ∀ item ∈ items, item.Everywhere Tree.paired)
    (fit : ∀ item ∈ items, ∀ balance ∈ balancesOf item, Fits balance) :
    listOf? items = some accounts ↔ List.Forall₂ Lists items accounts := by
  induction items generalizing accounts with
  | nil => simp [listOf?, eq_comm]
  | cons item rest ih =>
      rw [List.forall_mem_cons] at paired fit
      simp only [listOf?, Option.bind_eq_some_iff, Option.map_eq_some_iff, of_tree_iff item _ paired.left fit.left,
        ih _ paired.right fit.right, List.forall₂_cons_left_iff]
      constructor
      · rintro ⟨account, first, others, rest, rfl⟩
        exact ⟨account, others, first, rest, rfl⟩
      · rintro ⟨account, others, first, rest, rfl⟩
        exact ⟨account, first, others, rest, rfl⟩

theorem shaped_of_list (items : List Tree) (accounts : List Account) (lists : List.Forall₂ Lists items accounts) :
    ∀ item ∈ items, Shaped item := by
  induction lists with
  | nil =>
      intro item member
      cases member
  | cons first _ ih =>
      intro item member
      cases member with
      | head => exact shaped_of_lists _ _ first
      | tail _ member => exact ih item member

theorem list_of_shaped (items : List Tree) (shaped : ∀ item ∈ items, Shaped item)
    (paired : ∀ item ∈ items, item.Everywhere Tree.paired)
    (finite : ∀ item ∈ items, ∀ balance ∈ balancesOf item, balance.Everywhere Tree.finite) :
    ∃ accounts, List.Forall₂ Lists items accounts := by
  induction items with
  | nil => exact ⟨[], .nil⟩
  | cons item rest ih =>
      rw [List.forall_mem_cons] at shaped paired finite
      obtain ⟨account, first⟩ := lists_of_shaped item shaped.left paired.left finite.left
      obtain ⟨accounts, others⟩ := ih shaped.right paired.right finite.right
      exact ⟨account :: accounts, .cons first others⟩

-- A balance is two levels inside the document.
theorem balance_nesting (items : List Tree) (item balance : Tree) (shallow : (Tree.array items).nesting ≤ Json.depthLimit)
    (member : item ∈ items) (inside : balance ∈ balancesOf item) : balance.nesting ≤ balanceDepth := by
  have below : item.nesting < Json.depthLimit := by
    have inner := Json.item_nesting_le items item member
    rw [Tree.nesting] at shallow
    omega
  have deeper : balance.nesting < item.nesting := by
    cases item with
    | scalar scalar => cases inside
    | object members =>
        obtain ⟨member, member_inside, rfl⟩ := mem_values_of balanceKey members balance inside
        exact Nat.lt_succ_of_le (Json.member_nesting_le members member member_inside)
    | array values =>
        rw [balancesOf.eq_def] at inside
        split at inside
        · rename_i same
          cases same
        · rename_i a b c d tree same
          cases same
          rw [List.mem_singleton] at inside
          subst inside
          exact Nat.lt_succ_of_le (Json.item_nesting_le _ _ (by simp))
        · cases inside
  have depth : balanceDepth + 2 = Json.depthLimit := rfl
  omega

theorem parse_list_agrees (body : String) :
    (∀ tree, ElementText body.toList tree → tree.nesting ≤ 127 → tree.Everywhere Tree.paired →
      (∀ balance ∈ balances tree, balance.Everywhere Tree.finite ∧ balance.Everywhere Tree.plain) →
        ((∃ accounts, parseList? body = some accounts) ↔ ∃ items, tree = .array items ∧ ∀ item ∈ items, Shaped item) ∧
        ∀ accounts, parseList? body = some accounts ↔ ∃ items, tree = .array items ∧ List.Forall₂ Lists items accounts) ∧
    ((∀ tree, ¬ ElementText body.toList tree) → parseList? body = none) := by
  rw [parse_list_checked]
  refine ⟨?_, ?_⟩
  · intro tree grammar shallow paired kept
    rw [(Json.parse_iff body tree).mpr grammar, Option.bind_some]
    cases tree with
    | scalar scalar => simp [ofDocument?]
    | object members => simp [ofDocument?]
    | array items =>
        have pairedItems := Json.everywhere_array _ items paired
        have each : ∀ item ∈ items, ∀ balance ∈ balancesOf item,
            balance.Everywhere Tree.finite ∧ balance.Everywhere Tree.plain :=
          fun item member balance inside => kept balance (List.mem_flatMap.mpr ⟨item, member, inside⟩)
        have fit : ∀ item ∈ items, ∀ balance ∈ balancesOf item, Fits balance :=
          fun item member balance inside =>
            ⟨balance_nesting items item balance shallow member inside, (each item member balance inside).right⟩
        simp only [ofDocument?, list_of_iff items _ pairedItems fit, Tree.array.injEq, exists_eq_left', implies_true,
          and_true]
        constructor
        · rintro ⟨accounts, lists⟩
          exact shaped_of_list items accounts lists
        · intro shaped
          exact list_of_shaped items shaped pairedItems fun item member balance inside =>
            (each item member balance inside).left
  · intro absent
    cases parses : Tree.parse? body with
    | none => rfl
    | some tree => exact absurd ((Json.parse_iff body tree).mp parses) (absent tree)

theorem of_string_paired (string : String) : (Text.ofString string).IsPaired := by
  intro code inside
  obtain ⟨c, -, same⟩ := List.mem_map.mp inside
  cases same

def varied : String :=
  "[ [\"0x5\",\"0x6\",\"0x7\",\"8\"], \x7b\"x\\/y\":[1e999],\"address\":\"0x1\",\"x/y\":null,\"public_key\":\"0x2\"," ++
    "\"private_key\":\"0x3\",\"initial_balance\":\"4\",\"balance\":\x7b\"b\":true,\"a\":[],\"b\":false\x7d\x7d]"

def variedBalance : Tree :=
  .object [(Text.ofString "b", .scalar (.bool true)), (Text.ofString "a", .array []),
    (Text.ofString "b", .scalar (.bool false))]

def variedMembers : List (Text × Tree) :=
  [(Text.ofString "x/y", .array [.scalar (.number ⟨false, ['1'], none, some ⟨false, ['9', '9', '9']⟩⟩)]),
    (Text.ofString "address", .ofString "0x1"), (Text.ofString "x/y", .scalar .null),
    (Text.ofString "public_key", .ofString "0x2"), (Text.ofString "private_key", .ofString "0x3"),
    (Text.ofString "initial_balance", .ofString "4"), (Text.ofString "balance", variedBalance)]

def variedItems : List Tree :=
  [.array [.ofString "0x5", .ofString "0x6", .ofString "0x7", .ofString "8"], .object variedMembers]

theorem varied_balance_denotes :
    Json.Denotes variedBalance (.object [("a", .array []), ("b", .bool false)]) := by
  have ordered : Json.Ordered [("a", .array []), ("b", .bool false)] := by
    have before : "a" < "b" := by decide
    refine List.pairwise_cons.mpr ⟨fun member inside => ?_, List.pairwise_singleton _ _⟩
    rw [List.mem_singleton.mp inside]
    exact before
  refine .object _ [("b", .bool true), ("a", .array []), ("b", .bool false)] _ ?_ ordered ?_
  · exact .cons "b" _ _ _ _ (.bool true) (.cons "a" _ _ _ _ (.array [] [] .nil) (.cons "b" _ _ _ _ (.bool false) .nil))
  · intro key
    simp only [List.reverse_cons, List.reverse_nil, List.nil_append, List.cons_append, Json.lookup_member]
    by_cases first : key = "a"
    · simp [first]
    · by_cases last : key = "b" <;> simp [first, last]

theorem varied_lists : List.Forall₂ Lists variedItems
    [⟨"0x5", "0x6", "0x7", "8", none⟩,
      ⟨"0x1", "0x2", "0x3", "4", some (.object [("a", .array []), ("b", .bool false)])⟩] := by
  refine .cons (.items ⟨"0x5", "0x6", "0x7", "8", none⟩ rfl) (.cons (.membersBalance _ variedBalance _ (fun field => ?_) ?_ ?_) .nil)
  · cases field <;> simp [variedMembers, values_of_cons, values_of_nil, Field.key, Account.text]
  · simp [variedMembers, values_of_cons, values_of_nil, balanceKey]
  · exact .value variedBalance _ (by simp [variedBalance]) varied_balance_denotes

theorem parse_list_agrees_varied :
    parseList? varied =
        some [⟨"0x5", "0x6", "0x7", "8", none⟩,
          ⟨"0x1", "0x2", "0x3", "4", some (.object [("a", .array []), ("b", .bool false)])⟩] ∧
      parseList? "[1,]" = none := by
  refine ⟨?_, ?_⟩
  · have grammar : ElementText varied.toList (.array variedItems) := (Json.parse_iff _ _).mp (by cbv)
    have paired : (Tree.array variedItems).Everywhere Tree.paired := by
      simp [-Prod.forall, Tree.Everywhere, Tree.parts, Json.itemParts, Json.memberParts, variedItems, variedMembers,
        variedBalance, Tree.paired, Tree.ofString, of_string_paired]
    have silent : Text.ofString "b" ≠ Text.ofString Json.embeddingKey := by
      intro same
      have keys := Json.of_string_injective _ _ same
      exact absurd keys (by decide)
    have kept : ∀ balance ∈ balances (.array variedItems),
        balance.Everywhere Tree.finite ∧ balance.Everywhere Tree.plain := by
      simp [balances, balancesOf, variedItems, variedMembers, values_of_cons, values_of_nil, balanceKey, variedBalance,
        Tree.Everywhere, Tree.parts, Json.itemParts, Json.memberParts, Tree.finite, Tree.plain, silent]
    exact (((parse_list_agrees varied).left _ grammar (by decide) paired kept).right _).mpr ⟨variedItems, rfl, varied_lists⟩
  · refine (parse_list_agrees "[1,]").right ?_
    intro tree grammar
    have parses := (Json.parse_iff _ _).mpr grammar
    have fails : Tree.parse? "[1,]" = none := by cbv
    rw [fails] at parses
    cases parses

-- What the tree promises is not always kept: an object that announces an embedded text is no object,
-- and doubles are not rounded correctly, so a number just below the greatest one may be lost.

section Promised

def InRange (literal : Json.Literal) : Prop :=
  let digits := (Numeral.value? 10 (literal.whole ++ literal.fraction.getD [])).getD 0
  let places := (literal.fraction.getD []).length
  let shift := (literal.exponent.bind fun exponent => Numeral.value? 10 exponent.digits).getD 0
  let greatest := (2 ^ 53 - 1) * 2 ^ 971
  if literal.exponent.any Json.Exponent.negative then digits ≤ greatest * 10 ^ (places + shift)
  else digits * 10 ^ shift ≤ greatest * 10 ^ places

instance (literal : Json.Literal) : Decidable (InRange literal) := by
  unfold InRange
  infer_instance

def ranged : Tree → Prop
  | .scalar (.number literal) => InRange literal
  | _ => True

structure Promised (body : String) (items : List Tree) : Prop where
  grammar : ElementText body.toList (.array items)
  shallow : (Tree.array items).nesting ≤ 127
  paired : (Tree.array items).Everywhere Tree.paired
  ranged : (Tree.array items).Everywhere ranged
  shaped : ∀ item ∈ items, Shaped item

def announcing : String :=
  "[\x7b\"address\":\"0x1\",\"public_key\":\"0x2\",\"private_key\":\"0x3\",\"initial_balance\":\"4\"," ++
    "\"balance\":\x7b\"$serde_json::private::RawValue\":5\x7d\x7d]"

def extreme : String := "[[\"0x1\",\"0x2\",\"0x3\",\"4\",1.797693134862315708e308]]"

def announcingItems : List Tree :=
  [.object [(Text.ofString "address", .ofString "0x1"), (Text.ofString "public_key", .ofString "0x2"),
    (Text.ofString "private_key", .ofString "0x3"), (Text.ofString "initial_balance", .ofString "4"),
    (Text.ofString "balance",
      .object [(Text.ofString Json.embeddingKey, .scalar (.number ⟨false, ['5'], none, none⟩))])]]

def extremeItems : List Tree :=
  [.array [.ofString "0x1", .ofString "0x2", .ofString "0x3", .ofString "4",
    .scalar (.number ⟨false, ['1'], some "797693134862315708".toList, some ⟨false, ['3', '0', '8']⟩⟩)]]

theorem promised_announcing : Promised announcing announcingItems where
  grammar := (Json.parse_iff _ _).mp (by cbv)
  shallow := by decide
  paired := by
    simp [-Prod.forall, Tree.Everywhere, Tree.parts, Json.itemParts, Json.memberParts, announcingItems, Tree.paired,
      Tree.ofString, of_string_paired]
  ranged := by
    have five : InRange ⟨false, ['5'], none, none⟩ := by decide +kernel
    simp [Tree.Everywhere, Tree.parts, Json.itemParts, Json.memberParts, announcingItems, ranged, Tree.ofString, five]
  shaped := by
    intro item member
    rw [announcingItems, List.mem_singleton] at member
    rw [member]
    refine .members _ (fun field => ?_) ?_
    · cases field <;> simp [values_of_cons, values_of_nil, Field.key, Tree.ofString]
    · simp [values_of_cons, values_of_nil, balanceKey]

theorem promised_extreme : Promised extreme extremeItems where
  grammar := (Json.parse_iff _ _).mp (by cbv)
  shallow := by decide
  paired := by
    simp [Tree.Everywhere, Tree.parts, Json.itemParts, extremeItems, Tree.paired, Tree.ofString, of_string_paired]
  ranged := by
    have greatest : InRange ⟨false, ['1'], some "797693134862315708".toList, some ⟨false, ['3', '0', '8']⟩⟩ := by
      decide +kernel
    simp only [Tree.Everywhere, Tree.parts, Json.itemParts, extremeItems, Tree.ofString, List.append_nil,
      List.singleton_append, List.forall_mem_cons, ranged, greatest]
    simp
  shaped := by
    intro item member
    rw [extremeItems, List.mem_singleton] at member
    rw [member]
    exact .itemsBalance _ _ _ _ _

theorem promises_broken :
    (Promised announcing announcingItems ∧ parseList? announcing = none) ∧
      Promised extreme extremeItems ∧ parseList? extreme = none := by
  refine ⟨⟨promised_announcing, ?_⟩, promised_extreme, ?_⟩
  · cbv
  · exact Option.isNone_iff_eq_none.mp (by decide +kernel)

end Promised

end Devnet.Account
