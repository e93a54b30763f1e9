import Devnet.Json.Kept
import Devnet.Json.Scanner

set_option autoImplicit false

namespace Devnet

structure Account where
  address : String
  publicKey : String
  privateKey : String
  initialBalance : String
  balance : Option Json.Value
  deriving Repr

namespace Account

inductive Field where
  | address
  | publicKey
  | privateKey
  | initialBalance
  deriving DecidableEq, Repr

def Field.all : List Field := [.address, .publicKey, .privateKey, .initialBalance]

def Field.key : Field → String
  | .address => "address"
  | .publicKey => "public_key"
  | .privateKey => "private_key"
  | .initialBalance => "initial_balance"

def balanceKey : String := "balance"

inductive Slot where
  | text (field : Field)
  | balance
  | unknown
  deriving DecidableEq, Repr

def slot (key : String) : Slot :=
  match Field.all.find? fun field => field.key == key with
  | some field => .text field
  | none => if key == balanceKey then .balance else .unknown

structure Draft where
  texts : Field → Option String
  balance : Option (Option Json.Value)

namespace Draft

def empty : Draft := ⟨fun _ => none, none⟩

def withText (draft : Draft) (field : Field) (text : String) : Draft :=
  { draft with texts := fun other => if other = field then some text else draft.texts other }

def withBalance (draft : Draft) (balance : Option Json.Value) : Draft :=
  { draft with balance := some balance }

def account? (draft : Draft) : Option Account := do
  let address ← draft.texts .address
  let publicKey ← draft.texts .publicKey
  let privateKey ← draft.texts .privateKey
  let initialBalance ← draft.texts .initialBalance
  return { address, publicKey, privateKey, initialBalance, balance := draft.balance.join }

end Draft

def balanceDepth : Nat := Json.depthLimit - 2

def balanceAt? : Nat → List Char → Option (Option Json.Value × List Char)
  | 0, _ => none
  | fuel + 1, text =>
      match Json.start? text with
      | some (.scalar .null, rest) => some (none, rest)
      | _ => (Json.kept? Json.embedded? (fuel + 1) balanceDepth text).map fun (value, rest) => (some value, rest)

-- The value of a member, put into the draft. A field may be given once.
def memberAt? (fuel : Nat) (key : String) (draft : Draft) (text : List Char) : Option (Draft × List Char) :=
  match slot key with
  | .text field =>
      if (draft.texts field).isSome then none
      else (Json.textAt? fuel text).map fun (text, rest) => (draft.withText field text, rest)
  | .balance =>
      if draft.balance.isSome then none
      else (balanceAt? fuel text).map fun (balance, rest) => (draft.withBalance balance, rest)
  | .unknown => (Json.skip? fuel text).map fun rest => (draft, rest)

def membersAt? : Nat → Draft → List Char → Option (Draft × List Char)
  | 0, _, _ => none
  | fuel + 1, draft, text =>
      (Json.key? text).bind fun (key, afterColon) =>
        key.string?.bind fun key =>
          (memberAt? fuel key draft afterColon).bind fun (draft, rest) =>
            Json.behind? '\x7d' rest (fun after => some (draft, after)) fun next => membersAt? fuel draft next

def itemsAt? : Nat → List Field → Draft → List Char → Option (Draft × List Char)
  | 0, _, _, _ => none
  | fuel + 1, [], draft, text =>
      (balanceAt? fuel text).bind fun (balance, rest) =>
        Json.behind? ']' rest (fun after => some (draft.withBalance balance, after)) fun _ => none
  | fuel + 1, field :: fields, draft, text =>
      (Json.textAt? fuel text).bind fun (text, rest) =>
        Json.behind? ']' rest
          (fun after => if fields.isEmpty then some (draft.withText field text, after) else none)
          fun next => itemsAt? fuel fields (draft.withText field text) next

def accountAt? : Nat → List Char → Option (Account × List Char)
  | 0, _ => none
  | fuel + 1, text =>
      match Json.start? text with
      | some (.object, rest) =>
          Json.inside? '\x7d' rest (fun _ => none) fun rest =>
            (membersAt? fuel .empty rest).bind fun (draft, after) => draft.account?.map fun account => (account, after)
      | some (.array, rest) =>
          Json.inside? ']' rest (fun _ => none) fun rest =>
            (itemsAt? fuel Field.all .empty rest).bind fun (draft, after) =>
              draft.account?.map fun account => (account, after)
      | _ => none

def accountsAt? : Nat → List Char → Option (List Account × List Char)
  | 0, _ => none
  | fuel + 1, text =>
      (accountAt? fuel text).bind fun (account, rest) =>
        Json.behind? ']' rest (fun after => some ([account], after)) fun next =>
          (accountsAt? fuel next).map fun (accounts, after) => (account :: accounts, after)

def listAt? : Nat → List Char → Option (List Account × List Char)
  | 0, _ => none
  | fuel + 1, text =>
      match Json.start? text with
      | some (.array, rest) => Json.inside? ']' rest (fun after => some ([], after)) fun rest => accountsAt? fuel rest
      | _ => none

def parseList? (body : String) : Option (List Account) := Json.document? listAt? body

end Account
end Devnet
