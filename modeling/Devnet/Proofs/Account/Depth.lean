import Devnet.Proofs.Account.Places
import Devnet.Proofs.Account.Unknown
import Devnet.Proofs.Account.Agreement
import Devnet.Proofs.Json.Printed

set_option autoImplicit false

namespace Devnet.Account

open Json (Tree Text ElementText ValueText commas)

theorem balance_read_deep (tree : Tree) (paired : tree.Everywhere Tree.paired) (finite : tree.Everywhere Tree.finite)
    (plain : tree.Everywhere Tree.plain) : (treeBalance? tree).isSome = true ↔ tree.nesting + 2 ≤ Json.depthLimit := by
  have inside : tree.nesting + 2 ≤ Json.depthLimit ↔ tree.nesting ≤ balanceDepth := by
    have depth : balanceDepth + 2 = Json.depthLimit := rfl
    omega
  rw [inside, Option.isSome_iff_exists]
  simp only [balance_read_iff tree _ plain, exists_and_left, and_iff_left (balance_of_total tree paired finite)]

theorem balance_depth_exact :
    (∀ (place : Place) (accounts : List Account), parseList? (place.text "null".toList) = some accounts →
      ∃ before account after, accounts = before ++ account :: after ∧ before.length = place.left.length ∧
        ∀ chars tree, ElementText chars tree → tree.Everywhere Tree.paired → tree.Everywhere Tree.finite →
          tree.Everywhere Tree.plain →
            ((parseList? (place.text chars)).isSome = true ↔ tree.nesting + 2 ≤ 127) ∧
            ∀ found, parseList? (place.text chars) = some found →
              ∃ balance, BalanceOf tree balance ∧ found = before ++ { account with balance } :: after) ∧
    ∀ (body : String) (left right : List Tree) (item tree : Tree),
      ElementText body.toList (.array (left ++ item :: right)) → tree ∈ balancesOf item →
        ∃ (place : Place) (chars : List Char), body = place.text chars ∧ place.left.length = left.length ∧
          ElementText chars tree := by
  refine ⟨fun place accounts valid => ?_, place_of_balance⟩
  obtain ⟨before, account, after, split, number, -, reads⟩ := place_reads place _ _ accounts null_written valid
  refine ⟨before, account, after, split, number, fun chars tree written paired finite plain => ?_⟩
  rw [reads chars tree written]
  constructor
  · rw [Option.isSome_map]
    exact balance_read_deep tree paired finite plain
  · intro found accepted
    obtain ⟨balance, kept, rfl⟩ := Option.map_eq_some_iff.mp accepted
    exact ⟨balance, ((balance_read_iff tree balance plain).mp kept).right, rfl⟩

section Towers

def tower : Nat → Tree
  | 0 => .array []
  | height + 1 => .array [tower height, .array []]

def towerText : Nat → List Char
  | 0 => ['[', ']']
  | height + 1 => '[' :: (commas [towerText height, ['[', ']']] ++ [']'])

theorem tower_written (height : Nat) : ElementText (towerText height) (tower height) := by
  have ground : ValueText ['[', ']'] (.array []) := Json.array_of_pieces [] [] .nil
  induction height with
  | zero => exact Json.element_of_value _ _ ground
  | succ height ih =>
      exact Json.element_of_value _ _ (Json.array_of_pieces _ _ (.cons ih (.cons (Json.element_of_value _ _ ground) .nil)))

theorem tower_nesting (height : Nat) : (tower height).nesting = height + 1 := by
  induction height with
  | zero => rfl
  | succ height ih =>
      rw [tower, Tree.nesting]
      simp only [Json.itemNesting, ih, Tree.nesting]
      omega

theorem tower_everywhere (node : Tree → Prop) (arrays : ∀ items, node (.array items)) (height : Nat) :
    (tower height).Everywhere node := by
  have ground : (Tree.array []).Everywhere node := (Json.everywhere_array_iff _ _).mpr ⟨arrays _, List.forall_mem_nil _⟩
  induction height with
  | zero => exact ground
  | succ height ih => simp [tower, Json.everywhere_array_iff, arrays, ih]

def plainPlace : Place where
  before := []
  left := []
  opening := []
  frame := .object plainPieces (Json.quoted balanceKey).toList []
  closing := []
  right := plainSite.right
  after := []
  blank := by simp [Json.Blanks]
  elements := plainSite.elements
  written := .object _ _ _ (fun piece listed => plain_written piece (List.append_nil plainPieces ▸ listed))
    (Json.quoted_key balanceKey)

theorem plain_place_valid : ∃ accounts, parseList? (plainPlace.text "null".toList) = some accounts := by
  rw [← Option.isSome_iff_exists]
  decide +kernel

theorem balance_depth_exact_towers :
    (parseList? (plainPlace.text (towerText 124))).isSome = true ∧ parseList? (plainPlace.text (towerText 125)) = none := by
  obtain ⟨accounts, valid⟩ := plain_place_valid
  obtain ⟨before, account, after, -, -, exact⟩ := balance_depth_exact.left plainPlace accounts valid
  have deep (height : Nat) : (parseList? (plainPlace.text (towerText height))).isSome = true ↔ height + 3 ≤ 127 := by
    have bound := (exact _ _ (tower_written height) (tower_everywhere _ (fun _ => trivial) height)
      (tower_everywhere _ (fun _ => trivial) height) (tower_everywhere _ (fun _ => trivial) height)).left
    rwa [tower_nesting] at bound
  refine ⟨(deep 124).mpr (by decide), ?_⟩
  rw [← Option.not_isSome_iff_eq_none, deep 125]
  decide

end Towers

-- Within the limit a value may be lost all the same: an object that announces an embedded text stands for the
-- text, and a number is no text; a number just below the greatest double is rounded out of range.

section Lost

def rowPlace : Place where
  before := []
  left := []
  opening := []
  frame := .array (["0x1", "0x2", "0x3", "4"].map fun text => (Json.quoted text).toList)
  closing := []
  right := []
  after := []
  blank := by simp [Json.Blanks]
  elements := List.forall_mem_nil _
  written := by
    refine .array _ rfl fun piece listed => ?_
    obtain ⟨text, -, rfl⟩ := List.mem_map.mp listed
    exact ⟨_, Json.element_of_value _ _ (Json.quoted_string text)⟩

theorem row_written (chars : List Char) (tree : Tree) (written : ElementText chars tree) :
    ElementText (rowPlace.text chars).toList
      (.array [.array [.ofString "0x1", .ofString "0x2", .ofString "0x3", .ofString "4", tree]]) := by
  have quoted (text : String) := Json.element_of_value _ _ (Json.quoted_string text)
  have row := Json.element_of_value _ _ (Json.array_of_pieces _ _
    (.cons (quoted "0x1") (.cons (quoted "0x2") (.cons (quoted "0x3") (.cons (quoted "4") (.cons written .nil))))))
  have list := Json.element_of_value _ _ (Json.array_of_pieces _ _ (.cons row .nil))
  simpa [Place.text, rowPlace, Frame.text] using list

def announced : Tree := .object [(Text.ofString Json.embeddingKey, .scalar (.number ⟨false, ['5'], none, none⟩))]

def announcedText : List Char := "\x7b\"$serde_json::private::RawValue\":5\x7d".toList

def extremeText : List Char := "1.797693134862315708e308".toList

def extremeNumber : Tree := .scalar (.number ⟨false, ['1'], some "797693134862315708".toList, some ⟨false, ['3', '0', '8']⟩⟩)

structure Lost (place : Place) (chars : List Char) (tree : Tree) : Prop where
  grammar : ElementText chars tree
  paired : tree.Everywhere Tree.paired
  ranged : tree.Everywhere ranged
  shallow : tree.nesting + 2 ≤ 127
  lost : parseList? (place.text chars) = none

theorem announced_lost : Lost rowPlace announcedText announced where
  grammar := (Json.parse_iff _ _).mp (by cbv)
  paired := by simp [announced, Json.everywhere_object_iff, Json.everywhere_scalar_iff, Tree.paired, of_string_paired]
  ranged := by
    have five : InRange ⟨false, ['5'], none, none⟩ := by decide +kernel
    simp [announced, Json.everywhere_object_iff, Json.everywhere_scalar_iff, ranged, five]
  shallow := by decide
  lost := Option.isNone_iff_eq_none.mp (by decide +kernel)

theorem extreme_lost : Lost rowPlace extremeText extremeNumber where
  grammar := (Json.parse_iff _ _).mp (by cbv)
  paired := (Json.everywhere_scalar_iff _ _).mpr trivial
  ranged := by
    have greatest : InRange ⟨false, ['1'], some "797693134862315708".toList, some ⟨false, ['3', '0', '8']⟩⟩ := by
      decide +kernel
    exact (Json.everywhere_scalar_iff _ _).mpr greatest
  shallow := by decide
  lost := Option.isNone_iff_eq_none.mp (by decide +kernel)

theorem shallow_balances_lost :
    (∃ accounts, parseList? (rowPlace.text "null".toList) = some accounts) ∧
      Lost rowPlace announcedText announced ∧ Lost rowPlace extremeText extremeNumber := by
  refine ⟨?_, announced_lost, extreme_lost⟩
  rw [← Option.isSome_iff_exists]
  decide +kernel

end Lost

end Devnet.Account
