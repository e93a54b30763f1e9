import Devnet.Deployment
import Devnet.Url.Printer

set_option autoImplicit false

namespace Devnet

structure Invoke where
  contract : String
  entrypoint : String
  calldata : List String
  rpcUrl : Url
  account : String
  privateKey : String
  deriving DecidableEq, Repr

def Deployment.invoke (deployment : Deployment) (rpcUrl : Url) (account privateKey : String) : Invoke :=
  { contract := deployerAddress, entrypoint := deployEntrypoint, calldata := deployment.calldata,
    rpcUrl, account, privateKey }

structure Wallet where
  program : String
  launcher : Option String
  deriving DecidableEq, Repr

structure Command where
  program : String
  arguments : List String
  deriving DecidableEq, Repr

def Invoke.arguments (invoke : Invoke) : List String :=
  ["invoke", invoke.contract, invoke.entrypoint] ++ invoke.calldata ++
    ["--rpc", invoke.rpcUrl.text, "--account", invoke.account, "--private-key", invoke.privateKey]

def Wallet.command (wallet : Wallet) (invoke : Invoke) : Command :=
  match wallet.launcher with
  | some launcher => ⟨launcher, wallet.program :: invoke.arguments⟩
  | none => ⟨wallet.program, invoke.arguments⟩

def Command.text (command : Command) : String :=
  command.program ++ String.join (command.arguments.map fun argument => " " ++ argument)

end Devnet
