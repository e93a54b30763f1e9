import Devnet.Execution
import Devnet.Deploy.Arguments
import Devnet.Wallet.Run

set_option autoImplicit false

namespace Devnet.Deploy

open CommandLine

def programName : String := "deploy_udc"

def logTargets : List String := [programName, "devnet_utils"]

def line (text : String) : Effect := .print (Utf8.encode (text ++ "\n"))

def exitEvent (output : WalletOutput) : Log.Event :=
  if output.success then
    ⟨.info, programName, "Wallet exited.", [⟨"status", statusText output.status⟩]⟩
  else
    ⟨.warn, programName, "Wallet exited with a failure status.",
      [⟨"status", statusText output.status⟩]⟩

def addressReport (deployment : Deployment) : Effect :=
  match deployment.expectedAddress with
  | .ok address => line ("Expected contract address: " ++ address.text)
  | .error e =>
      .log ⟨.warn, programName, "Cannot compute the expected contract address.", [⟨"e", e.message⟩]⟩

def checkHint : String := "Check the transaction on the devnet to confirm the contract address."

def vaultHint : String :=
  "Then deploy the vault with that address as constructor argument: " ++
    "`deploy_udc --contract vault --constructor-calldata <MOCK_BTC_ADDRESS>`"

def afterWallet (arguments : Arguments) (output : WalletOutput) : List Effect :=
  [line output.stdout, line output.stderr, .log (exitEvent output), addressReport arguments.deployment,
      line "", line checkHint] ++
    if arguments.deploysToken then [line vaultHint] else []

def spawnComplaint (e : SpawnError) : String :=
  s!"Failed to run the wallet: {e.message}: {e.reason.message}"

def run (machine : Machine) (arguments : Arguments) : List Effect :=
  let (result, events) := arguments.command.run machine
  [line s!"Deploying {arguments.targetName}...", line s!"Running: {arguments.command.text}",
      .start arguments.command] ++
    events.map Effect.log ++
    (match result with
      | .ok output => afterWallet arguments output
      | .error e => [.complain (spawnComplaint e)])

def program (machine : Machine) : Program Opt Arguments :=
  { Arguments.reader with name := programName, logTargets, stdout := .unlimited, run := run machine }

def execute (machine : Machine) : Environment → List String → Execution := (program machine).execute

end Devnet.Deploy
