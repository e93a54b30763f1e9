import Devnet.Proofs.Account.Check
import Devnet.Proofs.Json.Meaning
import Devnet.Proofs.Json.Pieces

set_option autoImplicit false

namespace Devnet.Account

open Json (Tree Text Blanks ElementText MemberText ValueText commas)

def fieldNames : List String := Field.all.map Field.key ++ [balanceKey]

theorem slot_unknown (key : String) (unnamed : key ∉ fieldNames) : slot key = .unknown := by
  have none : Field.all.find? (fun field => field.key == key) = none := by
    rw [List.find?_eq_none]
    intro field listed same
    exact unnamed (List.mem_append_left _ (beq_iff_eq.mp same ▸ List.mem_map_of_mem listed))
  have other : key ≠ balanceKey := fun same => unnamed (List.mem_append_right _ (List.mem_singleton.mpr same))
  have apart : (key == balanceKey) = false := beq_eq_false_iff_ne.mpr other
  rw [slot, none, apart]
  rfl

section Edits

-- A member whose key is spelled with characters and names no field; its value may be any.
def IsUnknown (piece : List Char) : Prop :=
  ∃ key value, key ∉ fieldNames ∧ MemberText piece (Text.ofString key, value)

inductive Edit : List (List Char) → List (List Char) → Prop where
  | insert (left right : List (List Char)) (piece : List Char) (unknown : IsUnknown piece) :
      Edit (left ++ right) (left ++ piece :: right)
  | remove (left right : List (List Char)) (piece : List Char) (unknown : IsUnknown piece) :
      Edit (left ++ piece :: right) (left ++ right)
  | replace (left right : List (List Char)) (piece other : List Char) (unknown : IsUnknown piece)
      (another : IsUnknown other) : Edit (left ++ piece :: right) (left ++ other :: right)

def Unread (pieces edited : List (List Char)) : Prop :=
  ∀ members, List.Forall₂ MemberText pieces members →
    ∃ others, List.Forall₂ MemberText edited others ∧
      ∀ draft, treeMembersFrom? draft others = treeMembersFrom? draft members

theorem unknown_unread (key : String) (value : Tree) (unnamed : key ∉ fieldNames) (draft : Draft)
    (members : List (Text × Tree)) :
    treeMembersFrom? draft ((Text.ofString key, value) :: members) = treeMembersFrom? draft members := by
  have kept : treeMember? key draft value = some draft := by
    rw [treeMember?, slot_unknown key unnamed]
  rw [treeMembersFrom?, Json.string_of_string, Option.bind_some, kept, Option.bind_some]

theorem unread_trans (pieces between edited : List (List Char)) (first : Unread pieces between)
    (second : Unread between edited) : Unread pieces edited := by
  intro members each
  obtain ⟨middle, reads, same⟩ := first members each
  obtain ⟨others, written, alike⟩ := second middle reads
  exact ⟨others, written, fun draft => (alike draft).trans (same draft)⟩

theorem unread_behind (piece : List Char) (pieces edited : List (List Char)) (unread : Unread pieces edited) :
    Unread (piece :: pieces) (piece :: edited) := by
  intro members each
  cases each with
  | cons valid rest =>
      rename_i member _
      obtain ⟨others, written, same⟩ := unread _ rest
      refine ⟨member :: others, .cons valid written, ?_⟩
      intro draft
      obtain ⟨key, value⟩ := member
      simp only [treeMembersFrom?, same]

theorem unread_after (left pieces edited : List (List Char)) (unread : Unread pieces edited) :
    Unread (left ++ pieces) (left ++ edited) := by
  induction left with
  | nil => exact unread
  | cons piece left ih => exact unread_behind piece _ _ ih

theorem unread_insert (right : List (List Char)) (piece : List Char) (unknown : IsUnknown piece) :
    Unread right (piece :: right) := by
  obtain ⟨key, value, unnamed, valid⟩ := unknown
  intro members each
  exact ⟨_, .cons valid each, fun draft => unknown_unread key value unnamed draft members⟩

theorem unread_remove (right : List (List Char)) (piece : List Char) (unknown : IsUnknown piece) :
    Unread (piece :: right) right := by
  obtain ⟨key, value, unnamed, valid⟩ := unknown
  intro members each
  cases each with
  | cons other rest =>
      obtain rfl := Json.member_text_unique piece _ _ valid other
      exact ⟨_, rest, fun draft => (unknown_unread key value unnamed draft _).symm⟩

theorem edit_unread (pieces edited : List (List Char)) (edit : Edit pieces edited) : Unread pieces edited := by
  cases edit with
  | insert left right piece unknown => exact unread_after left _ _ (unread_insert right piece unknown)
  | remove left right piece unknown => exact unread_after left _ _ (unread_remove right piece unknown)
  | replace left right piece other unknown another =>
      exact unread_after left _ _
        (unread_trans _ _ _ (unread_remove right piece unknown) (unread_insert right other another))

end Edits

structure Site where
  before : List Char
  left : List (List Char)
  opening : List Char
  closing : List Char
  right : List (List Char)
  after : List Char
  blank : Blanks before ∧ Blanks opening ∧ Blanks closing ∧ Blanks after
  elements : ∀ piece ∈ left ++ right, ∃ tree, ElementText piece tree

namespace Site

variable (site : Site)

def account (pieces : List (List Char)) : List Char :=
  site.opening ++ (('\x7b' :: (commas pieces ++ ['\x7d'])) ++ site.closing)

def text (pieces : List (List Char)) : String :=
  String.ofList (site.before ++ (('[' :: (commas (site.left ++ site.account pieces :: site.right) ++ [']'])) ++ site.after))

theorem text_parses : ∃ left right, ∀ pieces members, List.Forall₂ MemberText pieces members →
    Tree.parse? (site.text pieces) = some (.array (left ++ .object members :: right)) := by
  obtain ⟨left, leftWritten⟩ := (Json.all_written_iff ElementText site.left).mp fun piece member =>
    site.elements piece (List.mem_append_left _ member)
  obtain ⟨right, rightWritten⟩ := (Json.all_written_iff ElementText site.right).mp fun piece member =>
    site.elements piece (List.mem_append_right _ member)
  obtain ⟨before, opening, closing, after⟩ := site.blank
  refine ⟨left, right, ?_⟩
  intro pieces members each
  have account : ElementText (site.account pieces) (.object members) :=
    .mk site.opening _ site.closing _ opening (Json.object_of_pieces pieces members each) closing
  have items : List.Forall₂ ElementText (site.left ++ site.account pieces :: site.right) (left ++ .object members :: right) :=
    List.rel_append leftWritten (.cons account rightWritten)
  rw [Json.parse_iff, text, String.toList_ofList]
  exact .mk site.before _ site.after _ before (Json.array_of_pieces _ _ items) after

end Site

theorem list_of_replaced (left right : List Tree) (first second : Tree) (same : ofTree? first = ofTree? second) :
    listOf? (left ++ first :: right) = listOf? (left ++ second :: right) := by
  induction left with
  | nil => rw [List.nil_append, List.nil_append, listOf?, listOf?, same]
  | cons item left ih => rw [List.cons_append, List.cons_append, listOf?, listOf?, ih]

theorem list_accepts (items : List Tree) (accounts : List Account) (reads : listOf? items = some accounts) :
    ∀ item ∈ items, ∃ account, ofTree? item = some account := by
  induction items generalizing accounts with
  | nil => exact fun _ member => nomatch member
  | cons item items ih =>
      rw [listOf?, Option.bind_eq_some_iff] at reads
      obtain ⟨account, first, rest⟩ := reads
      obtain ⟨others, later, _⟩ := Option.map_eq_some_iff.mp rest
      rw [List.forall_mem_cons]
      exact ⟨⟨account, first⟩, ih others later⟩

theorem edited_list (site : Site) (pieces edited : List (List Char))
    (written : ∀ piece ∈ pieces, ∃ member, MemberText piece member) (edit : Edit pieces edited) :
    parseList? (site.text edited) = parseList? (site.text pieces) := by
  obtain ⟨members, each⟩ := (Json.all_written_iff MemberText pieces).mp written
  obtain ⟨others, reads, same⟩ := edit_unread pieces edited edit members each
  obtain ⟨left, right, parses⟩ := site.text_parses
  have alike : ofTree? (.object others) = ofTree? (.object members) := by
    rw [ofTree?, ofTree?, same]
  rw [parse_list_checked, parse_list_checked, parses edited others reads, parses pieces members each]
  exact list_of_replaced left right _ _ alike

theorem object_site (body : String) (items left right : List Tree) (members : List (Text × Tree)) (accounts : List Account)
    (grammar : ElementText body.toList (.array items)) (reads : listOf? items = some accounts)
    (here : items = left ++ .object members :: right) :
    ∃ (site : Site) (pieces : List (List Char)), body = site.text pieces ∧ site.left.length = left.length ∧
      List.Forall₂ MemberText pieces members := by
  have filled : members ≠ [] := by
    intro none
    obtain ⟨account, accepts⟩ := list_accepts items accounts reads (.object members) (by simp [here])
    rw [none] at accepts
    cases accepts
  generalize text : body.toList = chars at grammar
  obtain ⟨before, chars, after, _, blankBefore, valid, blankAfter⟩ := grammar
  obtain ⟨elements, array, each⟩ := Json.pieces_of_array chars items (by simp [here]) valid
  rw [here] at each
  obtain ⟨front, piece, behind, split, leftWritten, element, rightWritten⟩ := Json.piece_at _ elements left right _ each
  obtain ⟨opening, inner, closing, _, blankOpening, object, blankClosing⟩ := element
  obtain ⟨pieces, braces, written⟩ := Json.pieces_of_object inner members filled object
  have others : ∀ other ∈ front ++ behind, ∃ tree, ElementText other tree :=
    (Json.all_written_iff _ _).mpr ⟨_, List.rel_append leftWritten rightWritten⟩
  refine ⟨⟨before, front, opening, closing, behind, after, ⟨blankBefore, blankOpening, blankClosing, blankAfter⟩, others⟩,
    pieces, ?_, leftWritten.length_eq, written⟩
  rw [Site.text, Site.account, ← braces, ← split, ← array, ← text, String.ofList_toList]

theorem unknown_members_unread (body : String) (accounts : List Account) (accepted : parseList? body = some accounts) :
    (∃ items, ElementText body.toList (.array items) ∧
      ∀ left members right, items = left ++ .object members :: right →
        ∃ (site : Site) (pieces : List (List Char)), body = site.text pieces ∧ site.left.length = left.length ∧
          List.Forall₂ MemberText pieces members) ∧
    ∀ (site : Site) pieces edited, body = site.text pieces → (∀ piece ∈ pieces, ∃ member, MemberText piece member) →
      Edit pieces edited → parseList? (site.text edited) = some accounts := by
  constructor
  · rw [parse_list_checked, Option.bind_eq_some_iff] at accepted
    obtain ⟨tree, parses, reads⟩ := accepted
    cases tree with
    | scalar _ => cases reads
    | object _ => cases reads
    | array items =>
        have grammar := (Json.parse_iff body _).mp parses
        exact ⟨items, grammar, fun left members right => object_site body items left right members accounts grammar reads⟩
  · intro site pieces edited same written edit
    rw [edited_list site pieces edited written edit, ← same, accepted]

section Spiced

def plainPieces : List (List Char) :=
  ["\"address\":\"0x1\"".toList, "\"public_key\":\"0x2\"".toList, "\"private_key\":\"0x3\"".toList,
    "\"initial_balance\":\"4\"".toList]

-- Numbers beyond every range and half of a pair, two levels deep.
def spice : List Char := " \"class\" : [\x7b\"\":-1e999\x7d, [\"\\uD800\"] ]".toList

def spiceTree : Tree :=
  .array [.object [([], .scalar (.number ⟨true, ['1'], none, some ⟨false, ['9', '9', '9']⟩⟩))],
    .array [.scalar (.string [.surrogate 0xD800])]]

theorem spice_unknown : IsUnknown spice :=
  ⟨"class", spiceTree, by decide,
    Json.member_of_readers spice " [\x7b\"\":-1e999\x7d, [\"\\uD800\"] ]".toList _ _ (by cbv) (by cbv)⟩

def plainSite : Site where
  before := []
  left := []
  opening := []
  closing := [' ']
  right := ["[\"0x5\",\"0x6\",\"0x7\",\"8\"]".toList]
  after := ['\n']
  blank := by simp [Blanks, Json.blanks]
  elements := by
    intro piece listed
    obtain rfl := List.mem_singleton.mp listed
    refine ⟨.array [.ofString "0x5", .ofString "0x6", .ofString "0x7", .ofString "8"], ?_⟩
    rw [← String.toList_ofList (l := "[\"0x5\",\"0x6\",\"0x7\",\"8\"]".toList)]
    exact (Json.parse_iff _ _).mp (by cbv)

theorem plain_written : ∀ piece ∈ plainPieces, ∃ member, MemberText piece member := by
  have field (key text : String) (behind : List Char) (piece : List Char) (keyed : Json.key? piece = some (Text.ofString key, behind))
      (parses : Tree.parse? (String.ofList behind) = some (.ofString text)) : ∃ member, MemberText piece member :=
    ⟨_, Json.member_of_readers piece behind _ _ keyed parses⟩
  intro piece listed
  simp only [plainPieces, List.mem_cons, List.not_mem_nil, or_false] at listed
  rcases listed with rfl | rfl | rfl | rfl
  · exact field "address" "0x1" "\"0x1\"".toList _ (by cbv) (by cbv)
  · exact field "public_key" "0x2" "\"0x2\"".toList _ (by cbv) (by cbv)
  · exact field "private_key" "0x3" "\"0x3\"".toList _ (by cbv) (by cbv)
  · exact field "initial_balance" "4" "\"4\"".toList _ (by cbv) (by cbv)

theorem unknown_members_unread_spiced :
    ∃ accounts, accounts.map address = ["0x1", "0x5"] ∧ parseList? (plainSite.text plainPieces) = some accounts ∧
      parseList? (plainSite.text (plainPieces.take 3 ++ spice :: plainPieces.drop 3)) = some accounts := by
  have addresses : (parseList? (plainSite.text plainPieces)).map (List.map address) = some ["0x1", "0x5"] := by
    decide +kernel
  obtain ⟨accounts, accepted, same⟩ := Option.map_eq_some_iff.mp addresses
  have edit : Edit plainPieces (plainPieces.take 3 ++ spice :: plainPieces.drop 3) :=
    .insert (plainPieces.take 3) (plainPieces.drop 3) spice spice_unknown
  exact ⟨accounts, same, accepted, (unknown_members_unread _ accounts accepted).2 plainSite plainPieces _ rfl plain_written edit⟩

end Spiced

end Devnet.Account
