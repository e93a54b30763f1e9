import Devnet.Deployment
import Devnet.Proofs.Text.Decimal
import Devnet.Proofs.Text.Digits

set_option autoImplicit false

namespace Devnet.Deployment

def count? (text : String) : Option Nat :=
  (Numeral.value? 10 text.toList).filter fun n => toString n = text

-- Takes a deployment off the front of texts: its class hash, its salt, the flag, the count, and as many
-- elements as the count says.
def decode : List String → Option (Deployment × List String)
  | classHash :: salt :: flag :: count :: behind =>
      match count? count with
      | none => none
      | some n =>
          if flag = "0x0" ∧ n ≤ behind.length then some (⟨classHash, salt, behind.take n⟩, behind.drop n) else none
  | _ => none

theorem count_iff (text : String) (n : Nat) : count? text = some n ↔ text = toString n := by
  rw [count?, Option.filter_eq_some_iff, decide_eq_true_iff]
  refine ⟨fun read => read.2.symm, ?_⟩
  intro same
  have chars : text.toList = Numeral.decimalDigits n := by
    rw [same, ← Numeral.decimal_standard, Numeral.decimal, String.toList_ofList]
  rw [chars]
  exact ⟨Numeral.value_of_decimal n, same.symm⟩

theorem calldata_parts (deployment : Deployment) :
    deployment.calldata =
      deployment.classHash :: deployment.salt :: "0x0" :: toString deployment.constructorCalldata.length ::
        deployment.constructorCalldata := by
  rw [calldata, Numeral.decimal_standard]
  rfl

theorem decode_calldata (deployment : Deployment) (rest : List String) :
    decode (deployment.calldata ++ rest) = some (deployment, rest) := by
  have counted := (count_iff (toString deployment.constructorCalldata.length) _).mpr rfl
  have fits : deployment.constructorCalldata.length ≤ (deployment.constructorCalldata ++ rest).length := by
    rw [List.length_append]
    omega
  rw [calldata_parts]
  simp only [List.cons_append, decode, counted, true_and, if_pos fits, List.take_left, List.drop_left]

theorem calldata_of_decode (texts rest : List String) (deployment : Deployment)
    (read : decode texts = some (deployment, rest)) : texts = deployment.calldata ++ rest := by
  unfold decode at read
  split at read
  case h_1 classHash salt flag count behind =>
    cases counted : count? count with
    | none =>
        rw [counted] at read
        cases read
    | some n =>
        simp only [counted] at read
        by_cases good : flag = "0x0" ∧ n ≤ behind.length
        · rw [if_pos good] at read
          obtain ⟨same, left⟩ := Prod.mk.inj (Option.some.inj read)
          have length : (behind.take n).length = n := List.length_take_of_le good.2
          rw [← same, ← left, calldata_parts, good.1, (count_iff count n).mp counted]
          simp only [length, List.cons_append, List.take_append_drop]
        · rw [if_neg good] at read
          cases read
  case h_2 => cases read

theorem decode_iff (texts rest : List String) (deployment : Deployment) :
    decode texts = some (deployment, rest) ↔ texts = deployment.calldata ++ rest :=
  ⟨calldata_of_decode texts rest deployment, fun same => same ▸ decode_calldata deployment rest⟩

-- The elements end where the count says, whatever the texts behind look like.
example :
    decode ["0xabc", "0x7", "0x0", "2", "0x0", "1", "1", "0x0"] =
      some (⟨"0xabc", "0x7", ["0x0", "1"]⟩, ["1", "0x0"]) ∧
    decode ["0xabc", "0x7", "0x0", "02", "0x0", "1"] = none ∧
    decode ["0xabc", "0x7", "0x0", "2", "0x0"] = none := by
  decide +kernel

theorem calldata_determines (a b : Deployment) (same : a.calldata = b.calldata) : a = b := by
  have read := decode_calldata a []
  rw [same, decode_calldata b []] at read
  exact (Prod.mk.inj (Option.some.inj read)).1.symm

section History

inductive Edit where
  | giveSalt (salt : String)
  | setClassHash (classHash : String)
  | push (element : String)
  | pop
  deriving DecidableEq, Repr

def edited (deployment : Deployment) : Edit → Deployment
  | .giveSalt salt => deployment.withSalt salt
  | .setClassHash classHash => { deployment with classHash }
  | .push element => { deployment with constructorCalldata := deployment.constructorCalldata ++ [element] }
  | .pop => { deployment with constructorCalldata := deployment.constructorCalldata.dropLast }

def afterHistory (classHash : String) (elements : List String) (history : List Edit) : Deployment :=
  history.foldl edited (ofClass classHash elements)

def editedElements (elements : List String) : Edit → List String
  | .push element => elements ++ [element]
  | .pop => elements.dropLast
  | _ => elements

theorem elements_edited (deployment : Deployment) (edit : Edit) :
    (deployment.edited edit).constructorCalldata = editedElements deployment.constructorCalldata edit := by
  cases edit with
  | giveSalt salt => rfl
  | setClassHash classHash => rfl
  | push element => rfl
  | pop => rfl

theorem elements_after_history (deployment : Deployment) (history : List Edit) :
    (history.foldl edited deployment).constructorCalldata =
      history.foldl editedElements deployment.constructorCalldata := by
  induction history generalizing deployment with
  | nil => rfl
  | cons edit later ih => rw [List.foldl_cons, ih, elements_edited, List.foldl_cons]

end History

theorem calldata_self_delimiting (classHash : String) (elements : List String) (history : List Edit) :
    (∀ texts rest, decode texts = some (afterHistory classHash elements history, rest) ↔
      texts = (afterHistory classHash elements history).calldata ++ rest) ∧
    (afterHistory classHash elements history).calldata.drop 4 = history.foldl editedElements elements ∧
    (afterHistory classHash elements history).calldata[3]? =
      some (toString (history.foldl editedElements elements).length) ∧
    ∀ a b : Deployment, a = b ↔ a.calldata = b.calldata := by
  have left : (afterHistory classHash elements history).constructorCalldata = history.foldl editedElements elements :=
    elements_after_history (ofClass classHash elements) history
  refine ⟨fun texts rest => decode_iff texts rest _, left, ?_, ?_⟩
  · rw [calldata_parts, ← left]
    rfl
  · intro a b
    exact ⟨congrArg calldata, calldata_determines a b⟩

end Devnet.Deployment
