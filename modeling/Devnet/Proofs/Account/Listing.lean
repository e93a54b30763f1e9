import Devnet.Proofs.Account.Check
import Devnet.Proofs.Json.Meaning

set_option autoImplicit false

namespace Devnet.Account

open Json (Text Tree Denotes ElementText)

def text (account : Account) : Field → String
  | .address => account.address
  | .publicKey => account.publicKey
  | .privateKey => account.privateKey
  | .initialBalance => account.initialBalance

def valuesOf (key : String) (members : List (Text × Tree)) : List Tree :=
  members.filterMap fun member => if member.1 = Text.ofString key then some member.2 else none

inductive BalanceOf : Tree → Option Json.Value → Prop where
  | null : BalanceOf (.scalar .null) none
  | value (tree : Tree) (value : Json.Value) (other : tree ≠ .scalar .null) (denotes : Denotes tree value) :
      BalanceOf tree (some value)

inductive Lists : Tree → Account → Prop where
  | members (members : List (Text × Tree)) (account : Account)
      (texts : ∀ field, valuesOf field.key members = [.ofString (account.text field)])
      (absent : valuesOf balanceKey members = []) (balance : account.balance = none) : Lists (.object members) account
  | membersBalance (members : List (Text × Tree)) (tree : Tree) (account : Account)
      (texts : ∀ field, valuesOf field.key members = [.ofString (account.text field)])
      (given : valuesOf balanceKey members = [tree]) (balance : BalanceOf tree account.balance) :
      Lists (.object members) account
  | items (account : Account) (balance : account.balance = none) :
      Lists (.array [.ofString account.address, .ofString account.publicKey, .ofString account.privateKey,
        .ofString account.initialBalance]) account
  | itemsBalance (tree : Tree) (account : Account) (balance : BalanceOf tree account.balance) :
      Lists (.array [.ofString account.address, .ofString account.publicKey, .ofString account.privateKey,
        .ofString account.initialBalance, tree]) account

-- An object with one text for each field and one balance at most, or four texts and one value at most.
inductive Shaped : Tree → Prop where
  | members (members : List (Text × Tree))
      (texts : ∀ field : Field, ∃ text, valuesOf field.key members = [.scalar (.string text)])
      (balance : (valuesOf balanceKey members).length ≤ 1) : Shaped (.object members)
  | items (address publicKey privateKey initialBalance : Text) :
      Shaped (.array [.scalar (.string address), .scalar (.string publicKey), .scalar (.string privateKey),
        .scalar (.string initialBalance)])
  | itemsBalance (address publicKey privateKey initialBalance : Text) (tree : Tree) :
      Shaped (.array [.scalar (.string address), .scalar (.string publicKey), .scalar (.string privateKey),
        .scalar (.string initialBalance), tree])

def balancesOf : Tree → List Tree
  | .object members => valuesOf balanceKey members
  | .array [_, _, _, _, tree] => [tree]
  | _ => []

def balances : Tree → List Tree
  | .array items => items.flatMap balancesOf
  | _ => []

theorem values_of_nil (key : String) : valuesOf key [] = [] := by rw [valuesOf, List.filterMap_nil]

theorem values_of_cons (key name : String) (tree : Tree) (rest : List (Text × Tree)) :
    valuesOf key ((Text.ofString name, tree) :: rest) =
      if name = key then tree :: valuesOf key rest else valuesOf key rest := by
  rw [valuesOf, List.filterMap_cons]
  by_cases same : name = key
  · rw [if_pos same, same, if_pos rfl]
    rfl
  · rw [if_neg same, if_neg fun texts => same (Json.of_string_injective name key texts)]
    rfl

theorem slot_text (field : Field) : slot field.key = .text field := by
  cases field <;> decide

theorem slot_balance : slot balanceKey = .balance := by decide

theorem key_of_slot (key : String) (field : Field) (named : slot key = .text field) : key = field.key := by
  rw [slot] at named
  split at named
  · rename_i found finds
    cases named
    have same := List.find?_some finds
    exact (beq_iff_eq.mp same).symm
  · split_ifs at named

theorem key_of_balance (key : String) (named : slot key = .balance) : key = balanceKey := by
  rw [slot] at named
  split at named
  · cases named
  · split_ifs at named with same
    exact beq_iff_eq.mp same

-- A field after members with the values `values` for its key: it is given once at most.
def FilledOnce {α : Type} (read : Tree → Option α) (before : Option α) (values : List Tree) (after : Option α) : Prop :=
  (values = [] ∧ after = before) ∨
    (before = none ∧ ∃ tree found, values = [tree] ∧ read tree = some found ∧ after = some found)

section FilledOnce

variable {α : Type} (read : Tree → Option α) (before after : Option α)

theorem filled_once_nil : FilledOnce read before [] after ↔ after = before := by
  simp [FilledOnce]

theorem filled_once_cons (tree : Tree) (values : List Tree) :
    FilledOnce read before (tree :: values) after ↔
      before = none ∧ ∃ found, read tree = some found ∧ FilledOnce read (some found) values after := by
  constructor
  · intro once
    rcases once with ⟨empty, -⟩ | ⟨absent, first, found, same, reads, filled⟩
    · cases empty
    · cases same
      exact ⟨absent, found, reads, .inl ⟨rfl, filled⟩⟩
  · intro once
    rcases once with ⟨absent, found, reads, ⟨rfl, filled⟩ | ⟨given, -⟩⟩
    · exact .inr ⟨absent, tree, found, rfl, reads, filled⟩
    · cases given

end FilledOnce

theorem draft_eq_iff (first second : Draft) :
    first = second ↔ (∀ field, first.texts field = second.texts field) ∧ first.balance = second.balance := by
  obtain ⟨texts, balance⟩ := first
  obtain ⟨otherTexts, otherBalance⟩ := second
  simp only [Draft.mk.injEq, funext_iff]

-- What the members of an object make of a draft.
structure Fills (draft : Draft) (members : List (Text × Tree)) (final : Draft) : Prop where
  texts : ∀ field, FilledOnce Tree.string? (draft.texts field) (valuesOf field.key members) (final.texts field)
  balance : FilledOnce treeBalance? draft.balance (valuesOf balanceKey members) final.balance

theorem fills_nil (draft final : Draft) : Fills draft [] final ↔ draft = final := by
  rw [draft_eq_iff]
  constructor
  · intro fills
    exact ⟨fun field => ((filled_once_nil _ _ _).mp (fills.texts field)).symm,
      ((filled_once_nil _ _ _).mp fills.balance).symm⟩
  · rintro ⟨texts, balance⟩
    exact ⟨fun field => (filled_once_nil _ _ _).mpr (texts field).symm, (filled_once_nil _ _ _).mpr balance.symm⟩

theorem field_keys (field other : Field) (same : field.key = other.key) : field = other := by
  have slots := congrArg slot same
  rw [slot_text, slot_text] at slots
  cases slots
  rfl

theorem field_key_not_balance (field : Field) : field.key ≠ balanceKey := by
  cases field <;> decide

section Cons

variable (draft final : Draft) (name : String) (tree : Tree) (rest : List (Text × Tree))

theorem fills_unknown (unknown : slot name = .unknown) :
    Fills draft ((Text.ofString name, tree) :: rest) final ↔ Fills draft rest final := by
  have fields : ∀ field : Field, name ≠ field.key := by
    rintro field rfl
    rw [slot_text] at unknown
    cases unknown
  have balance : name ≠ balanceKey := by
    rintro rfl
    rw [slot_balance] at unknown
    cases unknown
  constructor
  · intro fills
    refine ⟨fun field => ?_, ?_⟩
    · have texts := fills.texts field
      rwa [values_of_cons, if_neg (fields field)] at texts
    · have given := fills.balance
      rwa [values_of_cons, if_neg balance] at given
  · intro fills
    refine ⟨fun field => ?_, ?_⟩
    · rw [values_of_cons, if_neg (fields field)]
      exact fills.texts field
    · rw [values_of_cons, if_neg balance]
      exact fills.balance

theorem fills_text (field : Field) :
    Fills draft ((Text.ofString field.key, tree) :: rest) final ↔
      draft.texts field = none ∧ ∃ text, tree.string? = some text ∧ Fills (draft.withText field text) rest final := by
  have here : ∀ text, (draft.withText field text).texts field = some text := fun text => if_pos rfl
  have there : ∀ text other, other ≠ field → (draft.withText field text).texts other = draft.texts other :=
    fun text other apart => if_neg apart
  constructor
  · intro fills
    have given := fills.texts field
    rw [values_of_cons, if_pos rfl, filled_once_cons] at given
    obtain ⟨absent, text, reads, filled⟩ := given
    refine ⟨absent, text, reads, fun other => ?_, ?_⟩
    · by_cases same : other = field
      · rw [same, here]
        exact filled
      · have texts := fills.texts other
        rwa [values_of_cons, if_neg fun keys => same (field_keys other field keys.symm), ← there text other same] at texts
    · have balance := fills.balance
      rwa [values_of_cons, if_neg (field_key_not_balance field)] at balance
  · rintro ⟨absent, text, reads, fills⟩
    refine ⟨fun other => ?_, ?_⟩
    · rw [values_of_cons]
      by_cases same : other = field
      · have filled := fills.texts field
        rw [here] at filled
        rw [same, if_pos rfl, filled_once_cons]
        exact ⟨absent, text, reads, filled⟩
      · have filled := fills.texts other
        rw [there text other same] at filled
        rw [if_neg fun keys => same (field_keys other field keys.symm)]
        exact filled
    · rw [values_of_cons, if_neg (field_key_not_balance field)]
      exact fills.balance

theorem fills_balance :
    Fills draft ((Text.ofString balanceKey, tree) :: rest) final ↔
      draft.balance = none ∧ ∃ balance, treeBalance? tree = some balance ∧ Fills (draft.withBalance balance) rest final := by
  constructor
  · intro fills
    have given := fills.balance
    rw [values_of_cons, if_pos rfl, filled_once_cons] at given
    obtain ⟨absent, balance, reads, filled⟩ := given
    refine ⟨absent, balance, reads, fun field => ?_, filled⟩
    have texts := fills.texts field
    rwa [values_of_cons, if_neg (field_key_not_balance field).symm] at texts
  · rintro ⟨absent, balance, reads, fills⟩
    refine ⟨fun field => ?_, ?_⟩
    · rw [values_of_cons, if_neg (field_key_not_balance field).symm]
      exact fills.texts field
    · rw [values_of_cons, if_pos rfl, filled_once_cons]
      exact ⟨absent, balance, reads, fills.balance⟩

end Cons

theorem members_from_iff (draft final : Draft) (members : List (Text × Tree))
    (keys : ∀ member ∈ members, member.1.IsPaired) :
    treeMembersFrom? draft members = some final ↔ Fills draft members final := by
  induction members generalizing draft with
  | nil =>
      rw [treeMembersFrom?, fills_nil, Option.some.injEq]
  | cons member rest ih =>
      obtain ⟨key, tree⟩ := member
      rw [List.forall_mem_cons] at keys
      obtain ⟨name, rfl⟩ := Json.paired_named key keys.left
      rw [treeMembersFrom?, Json.string_of_string, Option.bind_some, treeMember?]
      cases named : slot name with
      | text field =>
          rw [key_of_slot name field named, fills_text]
          cases given : draft.texts field with
          | none => simp [given, Option.bind_eq_some_iff, ih _ keys.right]
          | some text => simp [given]
      | balance =>
          rw [key_of_balance name named, fills_balance]
          cases given : draft.balance with
          | none => simp [Option.bind_eq_some_iff, ih _ keys.right]
          | some balance => simp
      | unknown =>
          rw [fills_unknown draft final name tree rest named, ← ih draft keys.right]
          rfl

structure Fits (tree : Tree) : Prop where
  shallow : tree.nesting ≤ balanceDepth
  plain : tree.Everywhere Tree.plain

theorem balance_read_iff (tree : Tree) (balance : Option Json.Value) (plain : tree.Everywhere Tree.plain) :
    treeBalance? tree = some balance ↔ tree.nesting ≤ balanceDepth ∧ BalanceOf tree balance := by
  by_cases null : tree = .scalar .null
  · rw [null, treeBalance?, Option.some.injEq]
    constructor
    · rintro rfl
      exact ⟨Nat.zero_le balanceDepth, .null⟩
    · rintro ⟨-, given⟩
      cases given with
      | null => rfl
      | value _ value other => exact absurd rfl other
  · have kept : treeBalance? tree = (tree.value? Json.embedded? balanceDepth).map some := by
      rw [treeBalance?.eq_def]
      split
      · exact absurd rfl null
      · rfl
    rw [kept, Option.map_eq_some_iff]
    constructor
    · rintro ⟨value, reads, rfl⟩
      obtain ⟨shallow, denotes⟩ := (Json.value_iff _ _ tree value plain).mp reads
      exact ⟨shallow, .value tree value null denotes⟩
    · rintro ⟨shallow, given⟩
      cases given with
      | null => exact absurd rfl null
      | value _ value other denotes =>
          exact ⟨value, (Json.value_iff _ _ tree value plain).mpr ⟨shallow, denotes⟩, rfl⟩

theorem balance_iff (tree : Tree) (balance : Option Json.Value) (fits : Fits tree) :
    treeBalance? tree = some balance ↔ BalanceOf tree balance := by
  rw [balance_read_iff tree balance fits.plain]
  exact and_iff_right fits.shallow

theorem every_field (P : Field → Prop) :
    (∀ field, P field) ↔ P .address ∧ P .publicKey ∧ P .privateKey ∧ P .initialBalance := by
  constructor
  · intro every
    exact ⟨every .address, every .publicKey, every .privateKey, every .initialBalance⟩
  · intro each field
    cases field with
    | address => exact each.1
    | publicKey => exact each.2.1
    | privateKey => exact each.2.2.1
    | initialBalance => exact each.2.2.2

theorem account_of_draft (draft : Draft) (account : Account) :
    draft.account? = some account ↔
      (∀ field, draft.texts field = some (account.text field)) ∧ draft.balance.join = account.balance := by
  simp only [Draft.account?, bind, Option.bind_eq_some_iff, pure, Option.some.injEq]
  constructor
  · rintro ⟨address, hasAddress, publicKey, hasPublicKey, privateKey, hasPrivateKey, initialBalance, hasInitialBalance, rfl⟩
    exact ⟨(every_field _).mpr ⟨hasAddress, hasPublicKey, hasPrivateKey, hasInitialBalance⟩, rfl⟩
  · rintro ⟨texts, balance⟩
    refine ⟨_, texts .address, _, texts .publicKey, _, texts .privateKey, _, texts .initialBalance, ?_⟩
    rw [balance]
    rfl

theorem filled_text_iff (values : List Tree) (text : String) :
    FilledOnce Tree.string? none values (some text) ↔ values = [.ofString text] := by
  constructor
  · intro once
    rcases once with ⟨-, absent⟩ | ⟨-, tree, found, rfl, reads, same⟩
    · cases absent
    · cases same
      rw [(Json.tree_string_iff tree text).mp reads]
  · rintro rfl
    exact .inr ⟨rfl, _, text, rfl, (Json.tree_string_iff _ text).mpr rfl, rfl⟩

theorem of_members_iff (members : List (Text × Tree)) (account : Account)
    (keys : ∀ member ∈ members, member.1.IsPaired) (fit : ∀ tree ∈ valuesOf balanceKey members, Fits tree) :
    ofTree? (.object members) = some account ↔ Lists (.object members) account := by
  rw [ofTree?, Option.bind_eq_some_iff]
  simp only [members_from_iff _ _ members keys, account_of_draft]
  constructor
  · rintro ⟨draft, fills, texts, balance⟩
    have given : ∀ field, valuesOf field.key members = [.ofString (account.text field)] := by
      intro field
      have filled := fills.texts field
      rw [texts field] at filled
      exact (filled_text_iff _ _).mp filled
    rcases fills.balance with ⟨absent, none⟩ | ⟨-, tree, found, only, reads, some⟩
    · rw [none] at balance
      exact .members members account given absent balance.symm
    · rw [some, Option.join_some] at balance
      have fits : Fits tree := fit tree (by rw [only]; exact List.mem_cons_self)
      exact .membersBalance members tree account given only (balance ▸ (balance_iff tree found fits).mp reads)
  · intro lists
    cases lists with
    | members _ _ texts absent balance =>
        refine ⟨⟨fun field => some (account.text field), none⟩, ⟨fun field => ?_, ?_⟩, fun field => rfl, balance.symm⟩
        · exact (filled_text_iff _ _).mpr (texts field)
        · exact .inl ⟨absent, rfl⟩
    | membersBalance _ tree _ texts given balance =>
        have fits : Fits tree := fit tree (by rw [given]; exact List.mem_cons_self)
        refine ⟨⟨fun field => some (account.text field), some account.balance⟩, ⟨fun field => ?_, ?_⟩, fun field => rfl, rfl⟩
        · exact (filled_text_iff _ _).mpr (texts field)
        · exact .inr ⟨rfl, tree, account.balance, given, (balance_iff tree account.balance fits).mpr balance, rfl⟩

def withTexts (draft : Draft) : List Field → List String → Draft
  | field :: fields, text :: texts => withTexts (draft.withText field text) fields texts
  | _, _ => draft

theorem items_from_iff (fields : List Field) (draft final : Draft) (items : List Tree) :
    treeItemsFrom? fields draft items = some final ↔
      ∃ texts : List String, texts.length = fields.length ∧
        ((items = texts.map Tree.ofString ∧ final = withTexts draft fields texts) ∨
          ∃ tree balance, items = texts.map Tree.ofString ++ [tree] ∧ treeBalance? tree = some balance ∧
            final = (withTexts draft fields texts).withBalance balance) := by
  induction fields generalizing draft items with
  | nil =>
      simp only [List.length_nil, List.length_eq_zero_iff, exists_eq_left, List.map_nil, List.nil_append, withTexts]
      cases items with
      | nil => simp [treeItemsFrom?, eq_comm]
      | cons item rest =>
          rw [treeItemsFrom?, Option.bind_eq_some_iff]
          cases rest <;> simp [eq_comm]
  | cons field fields ih =>
      cases items with
      | nil => simp [treeItemsFrom?, List.length_eq_succ_iff]
      | cons item rest =>
          rw [treeItemsFrom?, Option.bind_eq_some_iff]
          simp only [ih, Json.tree_string_iff]
          constructor
          · intro listed
            rcases listed with ⟨text, rfl, texts, length, ⟨rfl, rfl⟩ | ⟨tree, balance, rfl, reads, rfl⟩⟩
            · exact ⟨text :: texts, by simp [length], .inl ⟨rfl, rfl⟩⟩
            · exact ⟨text :: texts, by simp [length], .inr ⟨tree, balance, rfl, reads, rfl⟩⟩
          · intro listed
            rcases listed with ⟨texts, length, ⟨same, rfl⟩ | ⟨tree, balance, same, reads, rfl⟩⟩
            · obtain ⟨text, texts, rfl⟩ := List.exists_of_length_succ texts length
              cases same
              exact ⟨text, rfl, texts, by simpa using length, .inl ⟨rfl, rfl⟩⟩
            · obtain ⟨text, texts, rfl⟩ := List.exists_of_length_succ texts length
              cases same
              exact ⟨text, rfl, texts, by simpa using length, .inr ⟨tree, balance, rfl, reads, rfl⟩⟩

def textsOf (account : Account) : List String :=
  [account.address, account.publicKey, account.privateKey, account.initialBalance]

theorem with_texts_balance (draft : Draft) (fields : List Field) (texts : List String) :
    (withTexts draft fields texts).balance = draft.balance := by
  induction fields generalizing draft texts with
  | nil => rfl
  | cons field fields ih =>
      cases texts with
      | nil => rfl
      | cons text texts => exact ih (draft.withText field text) texts

theorem with_all_texts (draft : Draft) (texts : List String) (account : Account)
    (same : draft.texts = (withTexts .empty Field.all texts).texts) (length : texts.length = Field.all.length) :
    draft.account? = some account ↔ texts = textsOf account ∧ draft.balance.join = account.balance := by
  obtain ⟨address, publicKey, privateKey, initialBalance, rfl⟩ := List.length_eq_four.mp length
  rw [account_of_draft, same]
  refine and_congr_left' ?_
  constructor
  · intro each
    obtain ⟨address, publicKey, privateKey, initialBalance⟩ := (every_field _).mp each
    simp only [withTexts, Field.all, Draft.withText, Account.text] at address publicKey privateKey initialBalance
    simp_all [textsOf]
  · intro same field
    cases same
    cases field <;> rfl

theorem of_items_iff (items : List Tree) (account : Account) (fit : ∀ tree ∈ balancesOf (.array items), Fits tree) :
    ofTree? (.array items) = some account ↔ Lists (.array items) account := by
  rw [ofTree?, Option.bind_eq_some_iff]
  simp only [items_from_iff]
  constructor
  · intro found
    rcases found with ⟨draft, ⟨texts, length, ⟨rfl, rfl⟩ | ⟨tree, balance, rfl, reads, rfl⟩⟩, made⟩
    · obtain ⟨rfl, absent⟩ := (with_all_texts _ texts account rfl length).mp made
      rw [with_texts_balance] at absent
      exact .items account absent.symm
    · obtain ⟨rfl, given⟩ :=
        (with_all_texts ((withTexts .empty Field.all texts).withBalance balance) texts account rfl length).mp made
      have fits : Fits tree := fit tree List.mem_cons_self
      exact .itemsBalance tree account (given ▸ (balance_iff tree balance fits).mp reads)
  · intro lists
    cases lists with
    | items _ absent =>
        exact ⟨_, ⟨textsOf account, rfl, .inl ⟨rfl, rfl⟩⟩,
          (with_all_texts _ (textsOf account) account rfl rfl).mpr ⟨rfl, absent.symm⟩⟩
    | itemsBalance tree _ given =>
        have fits : Fits tree := fit tree List.mem_cons_self
        have reads := (balance_iff tree account.balance fits).mpr given
        exact ⟨_, ⟨textsOf account, rfl, .inr ⟨tree, account.balance, rfl, reads, rfl⟩⟩,
          (with_all_texts ((withTexts .empty Field.all (textsOf account)).withBalance account.balance) (textsOf account)
            account rfl rfl).mpr ⟨rfl, rfl⟩⟩

theorem of_tree_iff (tree : Tree) (account : Account) (paired : tree.Everywhere Tree.paired)
    (fit : ∀ balance ∈ balancesOf tree, Fits balance) : ofTree? tree = some account ↔ Lists tree account := by
  cases tree with
  | scalar scalar =>
      constructor
      · intro reads
        cases reads
      · intro lists
        cases lists
  | array items => exact of_items_iff items account fit
  | object members => exact of_members_iff members account (Json.everywhere_object _ members paired).left fit

theorem shaped_of_lists (tree : Tree) (account : Account) (lists : Lists tree account) : Shaped tree := by
  cases lists with
  | members members _ texts absent _ =>
      exact .members members (fun field => ⟨_, texts field⟩) (by rw [absent]; exact Nat.zero_le 1)
  | membersBalance members _ _ texts given _ =>
      exact .members members (fun field => ⟨_, texts field⟩) (by rw [given]; exact Nat.le_refl 1)
  | items => exact .items _ _ _ _
  | itemsBalance tree => exact .itemsBalance _ _ _ _ tree

theorem balance_of_total (tree : Tree) (paired : tree.Everywhere Tree.paired) (finite : tree.Everywhere Tree.finite) :
    ∃ balance, BalanceOf tree balance := by
  by_cases null : tree = .scalar .null
  · exact ⟨none, null ▸ .null⟩
  · obtain ⟨value, denotes⟩ := Json.denotes_total tree paired finite
    exact ⟨some value, .value tree value null denotes⟩

theorem mem_values_of (key : String) (members : List (Text × Tree)) (tree : Tree) (inside : tree ∈ valuesOf key members) :
    ∃ member ∈ members, member.2 = tree := by
  obtain ⟨member, member_inside, same⟩ := List.mem_filterMap.mp inside
  split_ifs at same
  exact ⟨member, member_inside, Option.some.inj same⟩

def ofTexts (texts : Field → String) (balance : Option Json.Value) : Account :=
  ⟨texts .address, texts .publicKey, texts .privateKey, texts .initialBalance, balance⟩

theorem text_of_texts (texts : Field → String) (balance : Option Json.Value) (field : Field) :
    (ofTexts texts balance).text field = texts field := by
  cases field <;> rfl

theorem text_of_paired (text : Text) (paired : Tree.Everywhere Tree.paired (.scalar (.string text))) :
    ∃ string, text = Text.ofString string :=
  Json.paired_named text (paired _ List.mem_cons_self)

theorem members_of_shaped (members : List (Text × Tree))
    (texts : ∀ field : Field, ∃ text, valuesOf field.key members = [.scalar (.string text)])
    (once : (valuesOf balanceKey members).length ≤ 1)
    (paired : ∀ member ∈ members, member.2.Everywhere Tree.paired)
    (finite : ∀ balance ∈ valuesOf balanceKey members, balance.Everywhere Tree.finite) :
    ∃ account, Lists (.object members) account := by
  have pairedValues : ∀ key, ∀ tree ∈ valuesOf key members, tree.Everywhere Tree.paired := by
    intro key tree inside
    obtain ⟨member, member_inside, rfl⟩ := mem_values_of key members tree inside
    exact paired member member_inside
  have strings : ∀ field : Field, ∃ string, valuesOf field.key members = [.ofString string] := by
    intro field
    obtain ⟨text, only⟩ := texts field
    have inside : Tree.scalar (.string text) ∈ valuesOf field.key members := by
      rw [only]
      exact List.mem_cons_self
    obtain ⟨string, rfl⟩ := text_of_paired text (pairedValues field.key _ inside)
    exact ⟨string, only⟩
  choose string only using strings
  have given : ∀ balance field, valuesOf field.key members = [.ofString ((ofTexts string balance).text field)] := by
    intro balance field
    rw [text_of_texts]
    exact only field
  match values : valuesOf balanceKey members with
  | [] => exact ⟨_, .members members (ofTexts string none) (given none) values rfl⟩
  | [tree] =>
      have inside : tree ∈ valuesOf balanceKey members := by
        rw [values]
        exact List.mem_cons_self
      obtain ⟨balance, meant⟩ := balance_of_total tree (pairedValues _ tree inside) (finite tree inside)
      exact ⟨_, .membersBalance members tree (ofTexts string balance) (given balance) values meant⟩
  | first :: second :: rest =>
      rw [values, List.length_cons, List.length_cons] at once
      omega

theorem strings_of_paired (address publicKey privateKey initialBalance : Text) (rest : List Tree)
    (paired : (Tree.array (.scalar (.string address) :: .scalar (.string publicKey) :: .scalar (.string privateKey) ::
      .scalar (.string initialBalance) :: rest)).Everywhere Tree.paired) :
    ∃ strings : Field → String, address = .ofString (strings .address) ∧ publicKey = .ofString (strings .publicKey) ∧
      privateKey = .ofString (strings .privateKey) ∧ initialBalance = .ofString (strings .initialBalance) := by
  have every := Json.everywhere_array _ _ paired
  simp only [List.forall_mem_cons] at every
  obtain ⟨first, second, third, fourth, -⟩ := every
  obtain ⟨address, rfl⟩ := text_of_paired address first
  obtain ⟨publicKey, rfl⟩ := text_of_paired publicKey second
  obtain ⟨privateKey, rfl⟩ := text_of_paired privateKey third
  obtain ⟨initialBalance, rfl⟩ := text_of_paired initialBalance fourth
  exact ⟨text ⟨address, publicKey, privateKey, initialBalance, none⟩, rfl, rfl, rfl, rfl⟩

theorem lists_of_shaped (tree : Tree) (shaped : Shaped tree) (paired : tree.Everywhere Tree.paired)
    (finite : ∀ balance ∈ balancesOf tree, balance.Everywhere Tree.finite) : ∃ account, Lists tree account := by
  cases shaped with
  | members members texts once =>
      exact members_of_shaped members texts once (Json.everywhere_object _ members paired).right finite
  | items address publicKey privateKey initialBalance =>
      obtain ⟨strings, rfl, rfl, rfl, rfl⟩ := strings_of_paired _ _ _ _ _ paired
      exact ⟨_, .items (ofTexts strings none) rfl⟩
  | itemsBalance address publicKey privateKey initialBalance tree =>
      have pairedTree : tree.Everywhere Tree.paired := Json.everywhere_array _ _ paired tree (by simp)
      obtain ⟨strings, rfl, rfl, rfl, rfl⟩ := strings_of_paired _ _ _ _ _ paired
      obtain ⟨balance, meant⟩ := balance_of_total tree pairedTree (finite tree List.mem_cons_self)
      exact ⟨_, .itemsBalance tree (ofTexts strings balance) meant⟩

end Devnet.Account
