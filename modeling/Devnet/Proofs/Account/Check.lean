import Devnet.Account
import Devnet.Proofs.Json.Check

set_option autoImplicit false

namespace Devnet.Account

open Json (Tree Text tree? treeItems? treeMembers? checked)

def treeBalance? : Tree → Option (Option Json.Value)
  | .scalar .null => some none
  | tree => (tree.value? Json.embedded? balanceDepth).map some

def treeMember? (key : String) (draft : Draft) (tree : Tree) : Option Draft :=
  match slot key with
  | .text field => if (draft.texts field).isSome then none else tree.string?.map (draft.withText field)
  | .balance => if draft.balance.isSome then none else (treeBalance? tree).map draft.withBalance
  | .unknown => some draft

def treeMembersFrom? (draft : Draft) : List (Text × Tree) → Option Draft
  | [] => some draft
  | (key, tree) :: rest =>
      key.string?.bind fun key => (treeMember? key draft tree).bind fun draft => treeMembersFrom? draft rest

def treeItemsFrom? (fields : List Field) (draft : Draft) : List Tree → Option Draft
  | [] => if fields.isEmpty then some draft else none
  | item :: rest =>
      match fields with
      | field :: fields => item.string?.bind fun text => treeItemsFrom? fields (draft.withText field text) rest
      | [] => (treeBalance? item).bind fun balance => if rest.isEmpty then some (draft.withBalance balance) else none

def ofTree? : Tree → Option Account
  | .object members => (treeMembersFrom? .empty members).bind Draft.account?
  | .array items => (treeItemsFrom? Field.all .empty items).bind Draft.account?
  | _ => none

def listOf? : List Tree → Option (List Account)
  | [] => some []
  | item :: rest => (ofTree? item).bind fun account => (listOf? rest).map fun accounts => account :: accounts

def ofDocument? : Tree → Option (List Account)
  | .array items => listOf? items
  | _ => none

theorem balance_at_checked (fuel : Nat) (text : List Char) :
    balanceAt? fuel text = (tree? fuel text).bind (checked treeBalance?) := by
  cases fuel with
  | zero => rfl
  | succ fuel =>
      rw [balanceAt?, (Json.kept_checked Json.embedded? (fuel + 1)).left, tree?]
      cases Json.start? text with
      | none => rfl
      | some found =>
          obtain ⟨start, rest⟩ := found
          cases start with
          | scalar scalar => cases scalar <;> simp [checked, treeBalance?, Function.comp_def]
          | array =>
              simp [Json.inside_bind, Json.inside_map, checked, treeBalance?, Option.bind_map, Option.map_bind,
                Function.comp_def]
          | object =>
              simp [Json.inside_bind, Json.inside_map, checked, treeBalance?, Option.bind_map, Option.map_bind,
                Function.comp_def]

theorem member_at_checked (fuel : Nat) (key : String) (draft : Draft) (text : List Char) :
    memberAt? fuel key draft text = (tree? fuel text).bind (checked (treeMember? key draft)) := by
  rw [memberAt?, Json.text_at_checked, balance_at_checked, (Json.skip_checked fuel).left]
  cases tree? fuel text with
  | none => cases slot key <;> simp
  | some found =>
      obtain ⟨tree, rest⟩ := found
      cases named : slot key with
      | text field =>
          by_cases given : (draft.texts field).isSome = true
          · simp [checked, treeMember?, named, given]
          · simp [checked, treeMember?, named, given, Function.comp_def]
      | balance =>
          by_cases given : draft.balance.isSome = true
          · simp [checked, treeMember?, named, given]
          · simp [checked, treeMember?, named, given, Function.comp_def]
      | unknown => simp [checked, treeMember?, named]

theorem members_at_checked (fuel : Nat) (draft : Draft) (text : List Char) :
    membersAt? fuel draft text = (treeMembers? fuel text).bind (checked (treeMembersFrom? draft)) := by
  induction fuel generalizing draft text with
  | zero => rfl
  | succ fuel ih =>
      rw [membersAt?, treeMembers?, Option.bind_assoc]
      congr 1
      funext pair
      obtain ⟨key, afterColon⟩ := pair
      simp only [member_at_checked, Option.bind_assoc]
      cases tree? fuel afterColon with
      | none => cases key.string? <;> simp
      | some pair =>
          obtain ⟨tree, rest⟩ := pair
          simp only [Option.bind_some, Json.behind_bind]
          cases named : key.string? with
          | none =>
              simp only [checked, treeMembersFrom?, named, Option.bind_map, Function.comp_def, Option.bind_none,
                Option.map_none, Option.bind_fun_none, Json.behind_none]
          | some name =>
              cases checks : treeMember? name draft tree with
              | none =>
                  simp only [checked, treeMembersFrom?, named, checks, Option.bind_map, Function.comp_def,
                    Option.bind_none, Option.bind_some, Option.map_none, Option.bind_fun_none, Json.behind_none]
              | some next =>
                  simp only [checked, treeMembersFrom?, named, checks, ih, Option.bind_some, Option.map_some,
                    Option.bind_map, Function.comp_def]
                  rfl

theorem items_nonempty (fuel : Nat) (text : List Char) (found : List Tree × List Char)
    (reads : treeItems? fuel text = some found) : found.1 ≠ [] := by
  cases fuel with
  | zero => cases reads
  | succ fuel =>
      simp only [treeItems?, Option.bind_eq_some_iff] at reads
      obtain ⟨⟨item, rest⟩, -, reads⟩ := reads
      rcases Json.behind_sound ']' rest _ _ _ reads with ⟨before, after, -, -, same⟩ | ⟨before, next, -, -, reads⟩
      · cases same
        exact List.cons_ne_nil _ _
      · rw [Option.map_eq_some_iff] at reads
        obtain ⟨others, -, same⟩ := reads
        cases same
        exact List.cons_ne_nil _ _

theorem items_at_checked (fuel : Nat) (fields : List Field) (draft : Draft) (text : List Char) :
    itemsAt? fuel fields draft text = (treeItems? fuel text).bind (checked (treeItemsFrom? fields draft)) := by
  induction fuel generalizing fields draft text with
  | zero => rfl
  | succ fuel ih =>
      cases fields with
      | nil =>
          have crowded : ∀ item next, ((treeItems? fuel next).map fun others => (item :: others.1, others.2)).bind
              (checked (treeItemsFrom? [] draft)) = none := by
            intro item next
            cases reads : treeItems? fuel next with
            | none => rfl
            | some others =>
                have nonempty := items_nonempty fuel next others reads
                simp [checked, treeItemsFrom?, nonempty]
          rw [itemsAt?, treeItems?, balance_at_checked, Option.bind_assoc, Option.bind_assoc]
          congr 1
          funext pair
          obtain ⟨item, rest⟩ := pair
          simp only [Json.behind_bind, crowded]
          cases checks : treeBalance? item with
          | none => simp [checked, treeItemsFrom?, checks, Json.behind_none]
          | some balance => simp [checked, treeItemsFrom?, checks]
      | cons field fields =>
          rw [itemsAt?, treeItems?, Json.text_at_checked, Option.bind_assoc, Option.bind_assoc]
          congr 1
          funext pair
          obtain ⟨item, rest⟩ := pair
          rw [Json.behind_bind]
          cases string : item.string? with
          | none => simp [checked, treeItemsFrom?, string, Option.bind_map, Function.comp_def, Json.behind_none]
          | some text =>
              simp only [checked, treeItemsFrom?, string, ih, Option.bind_some, Option.map_some, Option.bind_map,
                Function.comp_def]
              cases fields <;> rfl

theorem draft_checked {α : Type} (check : α → Option Draft) (found : α × List Char) :
    ((checked check found).bind fun (draft, after) => draft.account?.map fun account => (account, after)) =
      checked (fun content => (check content).bind Draft.account?) found := by
  rw [checked, checked]
  cases check found.1 <;> rfl

theorem account_at_checked (fuel : Nat) (text : List Char) :
    accountAt? fuel text = (tree? fuel text).bind (checked ofTree?) := by
  cases fuel with
  | zero => rfl
  | succ fuel =>
      rw [accountAt?, tree?]
      cases Json.start? text with
      | none => rfl
      | some found =>
          obtain ⟨start, rest⟩ := found
          cases start with
          | scalar scalar => rfl
          | array =>
              simp only [items_at_checked, Json.inside_bind, Option.bind_assoc, Option.bind_map, draft_checked]
              rfl
          | object =>
              simp only [members_at_checked, Json.inside_bind, Option.bind_assoc, Option.bind_map, draft_checked]
              rfl

theorem accounts_at_checked (fuel : Nat) (text : List Char) :
    accountsAt? fuel text = (treeItems? fuel text).bind (checked listOf?) := by
  induction fuel generalizing text with
  | zero => rfl
  | succ fuel ih =>
      rw [accountsAt?, treeItems?, account_at_checked, Option.bind_assoc, Option.bind_assoc]
      congr 1
      funext pair
      obtain ⟨item, rest⟩ := pair
      rw [Json.behind_bind]
      cases checks : ofTree? item with
      | none => simp [checked, listOf?, checks, Option.bind_map, Function.comp_def, Json.behind_none]
      | some account =>
          simp [checked, listOf?, checks, ih, Option.bind_map, Option.map_bind, Function.comp_def]

theorem list_at_checked (fuel : Nat) (text : List Char) :
    listAt? fuel text = (tree? fuel text).bind (checked ofDocument?) := by
  cases fuel with
  | zero => rfl
  | succ fuel =>
      rw [listAt?, tree?]
      cases Json.start? text with
      | none => rfl
      | some found =>
          obtain ⟨start, rest⟩ := found
          cases start with
          | scalar scalar => rfl
          | array =>
              simp only [accounts_at_checked, Json.inside_bind, Option.bind_map, Function.comp_def]
              rfl
          | object =>
              simp [Json.inside_bind, checked, ofDocument?, Option.bind_map, Function.comp_def, Json.inside_none]

theorem parse_list_checked (body : String) : parseList? body = (Tree.parse? body).bind ofDocument? :=
  Json.document_checked tree? listAt? ofDocument? list_at_checked body

end Devnet.Account
