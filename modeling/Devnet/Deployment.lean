import Devnet.Defaults
import Devnet.Felt.Pedersen

set_option autoImplicit false

namespace Devnet

structure Deployment where
  classHash : String
  salt : String
  constructorCalldata : List String
  deriving DecidableEq, Repr

namespace Deployment

def ofClass (classHash : String) (constructorCalldata : List String) : Deployment :=
  ⟨classHash, Default.salt, constructorCalldata⟩

def withSalt (deployment : Deployment) (salt : String) : Deployment := { deployment with salt }

-- The address does not depend on the caller.
def notUnique : String := "0x0"

-- The calldata of the call: class hash, salt, uniqueness flag, and the constructor's calldata
-- behind its length.
def calldata (deployment : Deployment) : List String :=
  [deployment.classHash, deployment.salt, notUnique,
    Numeral.decimal deployment.constructorCalldata.length] ++ deployment.constructorCalldata

inductive Part where
  | classHash
  | salt
  | constructorCalldata
  deriving DecidableEq, Repr

def Part.name : Part → String
  | .classHash => "class hash"
  | .salt => "salt"
  | .constructorCalldata => "constructor calldata"

structure InvalidFelt where
  part : Part
  value : String
  deriving DecidableEq, Repr

def InvalidFelt.message (e : InvalidFelt) : String :=
  s!"`{e.value}` is not a valid field element ({e.part.name})"

def felt (part : Part) (value : String) : Except InvalidFelt Felt :=
  match Felt.parse? value with
  | some x => .ok x
  | none => .error ⟨part, value⟩

def felts (part : Part) : List String → Except InvalidFelt (List Felt)
  | [] => .ok []
  | value :: rest => do
      let x ← felt part value
      let xs ← felts part rest
      return x :: xs

def addressDomain : Felt := Felt.ofNat 0x535441524b4e45545f434f4e54524143545f41444452455353

def addressBound : Nat := Nat.pow 2 251 - 256

def contractAddress (salt classHash : Felt) (constructorCalldata : List Felt) : Felt :=
  Felt.ofNat
    ((Pedersen.hashList [addressDomain, 0, salt, classHash, Pedersen.hashList constructorCalldata]).val %
      addressBound)

def expectedAddress (deployment : Deployment) : Except InvalidFelt Felt := do
  let classHash ← felt .classHash deployment.classHash
  let salt ← felt .salt deployment.salt
  let constructorCalldata ← felts .constructorCalldata deployment.constructorCalldata
  return contractAddress salt classHash constructorCalldata

end Deployment
end Devnet
