import Devnet.Proofs.Account.Listing
import Devnet.Proofs.Json.Pieces

set_option autoImplicit false

namespace Devnet.Account

open Json (Text Tree Blanks KeyText MemberText ElementText ValueText commas)

-- An account around its balance: an object, with the members beside it and its key, or an array, with the
-- fields in front of it.
inductive Frame where
  | object (left : List (List Char)) (key : List Char) (right : List (List Char))
  | array (fields : List (List Char))

namespace Frame

def text (balance : List Char) : Frame → List Char
  | .object left key right => '\x7b' :: (commas (left ++ (key ++ ':' :: balance) :: right) ++ ['\x7d'])
  | .array fields => '[' :: (commas (fields ++ [balance]) ++ [']'])

inductive IsWritten : Frame → Prop where
  | object (left : List (List Char)) (key : List Char) (right : List (List Char))
      (members : ∀ piece ∈ left ++ right, ∃ member, MemberText piece member)
      (keyed : KeyText key (Text.ofString balanceKey)) : IsWritten (.object left key right)
  | array (fields : List (List Char)) (number : fields.length = Field.all.length)
      (elements : ∀ piece ∈ fields, ∃ tree, ElementText piece tree) : IsWritten (.array fields)

end Frame

structure Place where
  before : List Char
  left : List (List Char)
  opening : List Char
  frame : Frame
  closing : List Char
  right : List (List Char)
  after : List Char
  blank : Blanks before ∧ Blanks opening ∧ Blanks closing ∧ Blanks after
  elements : ∀ piece ∈ left ++ right, ∃ tree, ElementText piece tree
  written : frame.IsWritten

def Place.text (place : Place) (balance : List Char) : String :=
  String.ofList (place.before ++
    (('[' :: (commas (place.left ++ (place.opening ++ (place.frame.text balance ++ place.closing)) :: place.right) ++ [']'])) ++
      place.after))

inductive Surround where
  | object (left right : List (Text × Tree))
  | array (fields : List Tree) (number : fields.length = Field.all.length)

def Surround.fill (tree : Tree) : Surround → Tree
  | .object left right => .object (left ++ (Text.ofString balanceKey, tree) :: right)
  | .array fields _ => .array (fields ++ [tree])

theorem frame_reads (frame : Frame) (written : frame.IsWritten) :
    ∃ surround : Surround, ∀ balance tree, ElementText balance tree → ValueText (frame.text balance) (surround.fill tree) := by
  cases written with
  | object left key right members keyed =>
      rw [List.forall_mem_append] at members
      obtain ⟨front, leftWritten⟩ := (Json.all_written_iff MemberText left).mp members.left
      obtain ⟨behind, rightWritten⟩ := (Json.all_written_iff MemberText right).mp members.right
      refine ⟨.object front behind, fun balance tree valid => ?_⟩
      exact Json.object_of_pieces _ _ (List.rel_append leftWritten (.cons (.mk key balance _ tree keyed valid) rightWritten))
  | array fields number elements =>
      obtain ⟨front, frontWritten⟩ := (Json.all_written_iff ElementText fields).mp elements
      refine ⟨.array front (frontWritten.length_eq ▸ number), fun balance tree valid => ?_⟩
      exact Json.array_of_pieces _ _ (List.rel_append frontWritten (.cons valid .nil))

theorem place_parses (place : Place) :
    ∃ (left : List Tree) (surround : Surround) (right : List Tree), left.length = place.left.length ∧
      ∀ balance tree, ElementText balance tree →
        Tree.parse? (place.text balance) = some (.array (left ++ surround.fill tree :: right)) := by
  have elements := place.elements
  rw [List.forall_mem_append] at elements
  obtain ⟨left, leftWritten⟩ := (Json.all_written_iff ElementText place.left).mp elements.left
  obtain ⟨right, rightWritten⟩ := (Json.all_written_iff ElementText place.right).mp elements.right
  obtain ⟨surround, filled⟩ := frame_reads place.frame place.written
  obtain ⟨before, opening, closing, after⟩ := place.blank
  refine ⟨left, surround, right, leftWritten.length_eq.symm, fun balance tree valid => ?_⟩
  have account : ElementText (place.opening ++ (place.frame.text balance ++ place.closing)) (surround.fill tree) :=
    .mk place.opening _ place.closing _ opening (filled balance tree valid) closing
  rw [Json.parse_iff, Place.text, String.toList_ofList]
  exact .mk place.before _ place.after _ before
    (Json.array_of_pieces _ _ (List.rel_append leftWritten (.cons account rightWritten))) after

-- The account that is read depends on its balance in one way: the balance is read, and then it is the account's.

section Members

variable (draft : Draft) (balance : Option Json.Value)

theorem account_with_balance :
    (draft.withBalance balance).account? =
      (draft.withBalance none).account?.map fun account => { account with balance } := by
  simp only [Draft.account?, Draft.withBalance, bind, pure, Option.map_bind, Function.comp_def, Option.map_some,
    Option.join_some]

theorem member_with_balance (key : String) (tree : Tree) :
    treeMember? key (draft.withBalance balance) tree =
      (treeMember? key (draft.withBalance none) tree).map fun draft => draft.withBalance balance := by
  have texts (balance : Option Json.Value) : (draft.withBalance balance).texts = draft.texts := rfl
  rw [treeMember?, treeMember?]
  cases slot key with
  | text field =>
      simp only [texts]
      by_cases given : (draft.texts field).isSome = true
      · rw [if_pos given, if_pos given, Option.map_none]
      · rw [if_neg given, if_neg given, Option.map_map]
        rfl
  | balance => rfl
  | unknown => rfl

theorem member_keeps_balance (key : String) (tree : Tree) (next : Draft)
    (reads : treeMember? key (draft.withBalance balance) tree = some next) : next.withBalance balance = next := by
  rw [treeMember?] at reads
  cases named : slot key with
  | text field =>
      simp only [named, Option.ite_none_left_eq_some, Option.map_eq_some_iff] at reads
      obtain ⟨-, text, -, rfl⟩ := reads
      rfl
  | balance =>
      simp only [named] at reads
      cases reads
  | unknown =>
      simp only [named, Option.some.injEq] at reads
      rw [← reads]
      rfl

end Members

theorem members_with_balance (draft : Draft) (balance : Option Json.Value) (members : List (Text × Tree)) :
    treeMembersFrom? (draft.withBalance balance) members =
      (treeMembersFrom? (draft.withBalance none) members).map fun draft => draft.withBalance balance := by
  induction members generalizing draft with
  | nil => rfl
  | cons member rest ih =>
      obtain ⟨key, tree⟩ := member
      rw [treeMembersFrom?, treeMembersFrom?, Option.map_bind]
      congr 1
      funext name
      rw [Function.comp_apply, member_with_balance, Option.map_bind, Option.bind_map]
      cases reads : treeMember? name (draft.withBalance none) tree with
      | none => rfl
      | some next =>
          have kept := member_keeps_balance draft none name tree next reads
          have later := ih next
          rw [kept] at later
          exact later

theorem members_append (draft : Draft) (left right : List (Text × Tree)) :
    treeMembersFrom? draft (left ++ right) =
      (treeMembersFrom? draft left).bind fun draft => treeMembersFrom? draft right := by
  induction left generalizing draft with
  | nil => rfl
  | cons member rest ih =>
      obtain ⟨key, tree⟩ := member
      simp only [List.cons_append, treeMembersFrom?, ih, Option.bind_assoc]

theorem items_with_balance (fields : List Field) (draft : Draft) (items : List Tree) (tree : Tree)
    (number : items.length = fields.length) :
    treeItemsFrom? fields draft (items ++ [tree]) =
      (treeItemsFrom? fields draft items).bind fun draft => (treeBalance? tree).map draft.withBalance := by
  induction fields generalizing draft items with
  | nil =>
      rw [List.length_eq_zero_iff.mp number]
      simp only [List.nil_append, treeItemsFrom?]
      cases treeBalance? tree <;> rfl
  | cons field fields ih =>
      obtain ⟨item, rest, rfl⟩ := List.exists_cons_of_length_eq_add_one number
      simp only [List.cons_append, treeItemsFrom?, Option.bind_assoc]
      congr 1
      funext text
      exact ih _ rest (by simpa using number)

theorem draft_of_surround (surround : Surround) :
    ∃ draft : Option Draft, ∀ tree, ofTree? (surround.fill tree) =
      draft.bind fun draft => (treeBalance? tree).bind fun balance => (draft.withBalance balance).account? := by
  cases surround with
  | object left right =>
      refine ⟨(treeMembersFrom? .empty left).bind fun draft =>
        if draft.balance.isSome then none else treeMembersFrom? (draft.withBalance none) right, fun tree => ?_⟩
      simp only [Surround.fill, ofTree?, members_append, treeMembersFrom?, Json.string_of_string, Option.bind_some,
        treeMember?, slot_balance, Option.bind_assoc]
      congr 1
      funext draft
      by_cases given : draft.balance.isSome = true
      · simp only [if_pos given, Option.bind_none]
      · rw [if_neg given, if_neg given, Option.bind_map]
        cases treeBalance? tree with
        | none => simp
        | some balance =>
            rw [Option.bind_some, Function.comp_apply, members_with_balance draft balance right, Option.bind_map]
            rfl
  | array fields number =>
      refine ⟨treeItemsFrom? Field.all .empty fields, fun tree => ?_⟩
      rw [Surround.fill, ofTree?, items_with_balance Field.all .empty fields tree number, Option.bind_assoc]
      simp only [Option.bind_map, Function.comp_def]

theorem filled_account (surround : Surround) (tree : Tree) :
    ofTree? (surround.fill tree) =
      (ofTree? (surround.fill (.scalar .null))).bind fun account =>
        (treeBalance? tree).map fun balance => { account with balance } := by
  obtain ⟨draft, made⟩ := draft_of_surround surround
  have null : treeBalance? (.scalar .null) = some none := rfl
  rw [made tree, made, null, Option.bind_assoc]
  congr 1
  funext draft
  cases treeBalance? tree with
  | none => simp
  | some balance =>
      rw [Option.bind_some, Option.bind_some, account_with_balance draft balance]
      exact Option.map_eq_bind

theorem list_append (left right : List Tree) :
    listOf? (left ++ right) = (listOf? left).bind fun before => (listOf? right).map fun after => before ++ after := by
  induction left with
  | nil => simp [listOf?]
  | cons item left ih =>
      simp only [List.cons_append, listOf?, ih, Option.map_bind, Option.bind_assoc, Option.bind_map, Option.map_map,
        Function.comp_def]

theorem list_length (items : List Tree) (accounts : List Account) (reads : listOf? items = some accounts) :
    accounts.length = items.length := by
  induction items generalizing accounts with
  | nil =>
      cases reads
      rfl
  | cons item rest ih =>
      simp only [listOf?, Option.bind_eq_some_iff, Option.map_eq_some_iff] at reads
      obtain ⟨account, -, others, later, rfl⟩ := reads
      rw [List.length_cons, List.length_cons, ih others later]

theorem list_of_parts (left right : List Tree) (item : Tree) :
    listOf? (left ++ item :: right) =
      (listOf? left).bind fun before => (ofTree? item).bind fun account =>
        (listOf? right).map fun after => before ++ account :: after := by
  simp only [list_append, listOf?, Option.map_bind, Option.map_map, Function.comp_def]

theorem place_reads (place : Place) (chars : List Char) (tree : Tree) (accounts : List Account)
    (written : ElementText chars tree) (valid : parseList? (place.text chars) = some accounts) :
    ∃ before account after, accounts = before ++ account :: after ∧ before.length = place.left.length ∧
      treeBalance? tree = some account.balance ∧ ∀ balance other, ElementText balance other →
        parseList? (place.text balance) =
          (treeBalance? other).map fun balance => before ++ { account with balance } :: after := by
  obtain ⟨left, surround, right, number, parses⟩ := place_parses place
  rw [parse_list_checked, parses chars tree written, Option.bind_some, ofDocument?, list_of_parts, filled_account] at valid
  simp only [Option.bind_eq_some_iff, Option.map_eq_some_iff] at valid
  obtain ⟨before, readsLeft, account, ⟨draft, readsAccount, balance, reads, rfl⟩, after, readsRight, rfl⟩ := valid
  refine ⟨before, { draft with balance }, after, rfl, (list_length left before readsLeft).trans number, reads, ?_⟩
  intro balance other spelled
  rw [parse_list_checked, parses balance other spelled, Option.bind_some, ofDocument?, list_of_parts, filled_account,
    readsLeft, readsAccount, readsRight]
  simp only [Option.bind_some, Option.map_some]
  cases treeBalance? other <;> rfl

theorem null_written : ElementText "null".toList (.scalar .null) :=
  Json.element_of_value _ _ (.scalar _ _ .null)

theorem frame_of_balance (chars : List Char) (item tree : Tree) (valid : ValueText chars item)
    (inside : tree ∈ balancesOf item) :
    ∃ (frame : Frame) (balance : List Char), frame.IsWritten ∧ chars = frame.text balance ∧ ElementText balance tree := by
  rw [balancesOf.eq_def] at inside
  split at inside
  case h_1 members =>
    obtain ⟨member, listed, same⟩ := List.mem_filterMap.mp inside
    have named : member = (Text.ofString balanceKey, tree) := by
      split_ifs at same with named
      exact Prod.ext named (Option.some.inj same)
    obtain ⟨left, right, rfl⟩ := List.append_of_mem listed
    obtain ⟨pieces, split, each⟩ := Json.pieces_of_object chars _ (by simp) valid
    obtain ⟨front, piece, behind, rfl, leftWritten, here, rightWritten⟩ := Json.piece_at _ pieces left right _ each
    have members : ∀ piece ∈ front ++ behind, ∃ member, MemberText piece member :=
      (Json.all_written_iff _ _).mpr ⟨_, List.rel_append leftWritten rightWritten⟩
    rw [named] at here
    cases here with
    | mk key balance _ _ keyed valid => exact ⟨.object front key behind, balance, .object _ _ _ members keyed, split, valid⟩
  case h_2 first second third fourth fifth =>
    cases List.mem_singleton.mp inside
    obtain ⟨pieces, split, each⟩ := Json.pieces_of_array chars _ (by simp) valid
    obtain ⟨front, piece, behind, rfl, leftWritten, here, rightWritten⟩ :=
      Json.piece_at _ pieces [first, second, third, fourth] [] tree each
    cases rightWritten
    exact ⟨.array front, piece, .array _ leftWritten.length_eq ((Json.all_written_iff _ _).mpr ⟨_, leftWritten⟩), split, here⟩
  case h_3 => cases inside

theorem place_of_balance (body : String) (left right : List Tree) (item tree : Tree)
    (grammar : ElementText body.toList (.array (left ++ item :: right))) (inside : tree ∈ balancesOf item) :
    ∃ (place : Place) (balance : List Char), body = place.text balance ∧ place.left.length = left.length ∧
      ElementText balance tree := by
  generalize text : body.toList = chars at grammar
  obtain ⟨before, chars, after, _, blankBefore, valid, blankAfter⟩ := grammar
  obtain ⟨elements, array, each⟩ := Json.pieces_of_array chars _ (by simp) valid
  obtain ⟨front, piece, behind, rfl, leftWritten, element, rightWritten⟩ := Json.piece_at _ elements left right _ each
  obtain ⟨opening, inner, closing, _, blankOpening, account, blankClosing⟩ := element
  obtain ⟨frame, balance, written, rfl, valid⟩ := frame_of_balance inner item tree account inside
  have others : ∀ other ∈ front ++ behind, ∃ tree, ElementText other tree :=
    (Json.all_written_iff _ _).mpr ⟨_, List.rel_append leftWritten rightWritten⟩
  refine ⟨⟨before, front, opening, frame, closing, behind, after, ⟨blankBefore, blankOpening, blankClosing, blankAfter⟩,
    others, written⟩, balance, ?_, leftWritten.length_eq, valid⟩
  rw [Place.text, ← array, ← text, String.ofList_toList]

end Devnet.Account
