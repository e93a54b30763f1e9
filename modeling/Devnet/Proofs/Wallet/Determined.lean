import Devnet.Wallet.Command
import Devnet.Proofs.Deployment.Calldata

set_option autoImplicit false

namespace Devnet

namespace Invoke

-- Three texts in front of the calldata and six behind it leave it no choice of its place.
theorem arguments_determine (a b : Invoke) (same : a.arguments = b.arguments) :
    a.contract = b.contract ∧ a.entrypoint = b.entrypoint ∧ a.calldata = b.calldata ∧
      a.rpcUrl.text = b.rpcUrl.text ∧ a.account = b.account ∧ a.privateKey = b.privateKey := by
  have ends := List.append_inj' same rfl
  have front := List.append_inj ends.1 rfl
  have target : a.contract = b.contract ∧ a.entrypoint = b.entrypoint := by
    simpa only [List.cons.injEq, true_and, and_true] using front.1
  have call : a.rpcUrl.text = b.rpcUrl.text ∧ a.account = b.account ∧ a.privateKey = b.privateKey := by
    simpa only [List.cons.injEq, true_and, and_true] using ends.2
  exact ⟨target.1, target.2, front.2, call⟩

-- Behind the program of a wallet the word `invoke` stands where the contract stands without it.
theorem arguments_apart (a b : Invoke) (program : String) (other : b.contract ≠ "invoke") :
    program :: a.arguments ≠ b.arguments := by
  intro same
  have second := congrArg (fun texts => texts[1]?) same
  have confused : some "invoke" = some b.contract := second
  exact other (Option.some.inj confused).symm

end Invoke

namespace Wallet

theorem command_determines (wallet other : Wallet) (a b : Invoke) (left : a.contract ≠ "invoke")
    (right : b.contract ≠ "invoke") (same : wallet.command a = other.command b) :
    wallet = other ∧ a.arguments = b.arguments := by
  obtain ⟨program, launcher⟩ := wallet
  obtain ⟨otherProgram, otherLauncher⟩ := other
  cases launcher with
  | none =>
      cases otherLauncher with
      | none =>
          have parts : program = otherProgram ∧ a.arguments = b.arguments := Command.mk.inj same
          rw [parts.1]
          exact ⟨rfl, parts.2⟩
      | some _ =>
          have confused := (Command.mk.inj same).2
          exact absurd confused.symm (Invoke.arguments_apart b a otherProgram left)
  | some first =>
      cases otherLauncher with
      | none =>
          have confused := (Command.mk.inj same).2
          exact absurd confused (Invoke.arguments_apart a b program right)
      | some second =>
          have parts : first = second ∧ program :: a.arguments = otherProgram :: b.arguments :=
            Command.mk.inj same
          have behind := List.cons.inj parts.2
          rw [parts.1, behind.1]
          exact ⟨rfl, behind.2⟩

end Wallet

structure Order where
  launcher : Option String
  walletPath : String
  deployment : Deployment
  rpcUrl : Url
  account : String
  privateKey : String

def Order.command (order : Order) : Command :=
  (Wallet.mk order.walletPath order.launcher).command
    (order.deployment.invoke order.rpcUrl order.account order.privateKey)

theorem command_determines_order (a b : Order) :
    a.command = b.command ↔
      a.launcher = b.launcher ∧ a.walletPath = b.walletPath ∧ a.deployment = b.deployment ∧
        a.rpcUrl.text = b.rpcUrl.text ∧ a.account = b.account ∧ a.privateKey = b.privateKey := by
  have named : deployerAddress ≠ "invoke" := by decide
  constructor
  · intro same
    obtain ⟨wallets, arguments⟩ := Wallet.command_determines _ _ _ _ named named same
    obtain ⟨paths, launchers⟩ := Wallet.mk.inj wallets
    obtain ⟨-, -, calldata, call⟩ := Invoke.arguments_determine _ _ arguments
    exact ⟨launchers, paths, Deployment.calldata_determines _ _ calldata, call⟩
  · rintro ⟨launchers, paths, deployments, urls, accounts, keys⟩
    have arguments : (a.deployment.invoke a.rpcUrl a.account a.privateKey).arguments =
        (b.deployment.invoke b.rpcUrl b.account b.privateKey).arguments := by
      simp only [Invoke.arguments, Deployment.invoke, deployments, urls, accounts, keys]
    simp only [Order.command, Wallet.command, launchers, paths, arguments]

end Devnet
