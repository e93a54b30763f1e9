import Devnet.Deploy.Run
import Devnet.Discover.Run
import Devnet.Http.Scripted

set_option autoImplicit false

namespace Devnet

def bareMachine : Machine := fun _ => .error .notFound

def dispatch? (environment : CommandLine.Environment) : List String → Option Execution
  | [] => none
  | name :: words =>
      if name = Deploy.programName then some (Deploy.execute bareMachine environment words)
      else if name = Discover.programName then
        some (Discover.execute (.scripted .unreachable) .unlimited environment words)
      else none

def variableNames : List String :=
  [Variable.rpcUrl, Variable.accountAddress, Variable.privateKey, Variable.walletPath, Variable.launcher,
    Variable.logFilter]

def environmentOf (settings : List (String × String)) : CommandLine.Environment := fun name =>
  (settings.find? fun setting => setting.1 == name).map Prod.snd

end Devnet

def main (words : List String) : IO UInt32 := do
  let settings ← Devnet.variableNames.filterMapM fun name => do
    return (← IO.getEnv name).map fun value => (name, value)
  match Devnet.dispatch? (Devnet.environmentOf settings) words with
  | none =>
      IO.eprintln s!"usage: {Devnet.Deploy.programName} | {Devnet.Discover.programName}, and its arguments"
      return 2
  | some execution =>
      (← IO.getStdout).write (ByteArray.mk execution.stdout.toArray)
      for line in execution.stderr do
        IO.eprintln line
      return (execution.code.getD 0).toUInt32
