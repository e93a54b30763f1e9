import Devnet.CommandLine.Options
import Devnet.Wallet.Command

set_option autoImplicit false

namespace Devnet.Deploy

open CommandLine

inductive Preset where
  | mockBtc
  | vault
  deriving DecidableEq, Repr

namespace Preset

def name : Preset → String
  | .mockBtc => "MockBTC"
  | .vault => "Vault"

def classHash : Preset → String
  | .mockBtc => mockBtcClassHash
  | .vault => vaultClassHash

def choice : Preset → String
  | .mockBtc => "mock-btc"
  | .vault => "vault"

def ofChoice? (text : String) : Option Preset :=
  [Preset.mockBtc, Preset.vault].find? fun preset => preset.choice == text

end Preset

inductive Opt where
  | rpcUrl
  | accountAddress
  | privateKey
  | walletPath
  | launcher
  | noLauncher
  | contract
  | classHash
  | salt
  | constructorCalldata
  | verbose
  | quiet
  | help
  | version
  deriving DecidableEq, Repr

def checkPreset (text : String) : Except ValueError Unit :=
  if (Preset.ofChoice? text).isSome then .ok () else .error .notAChoice

def spec : Opt → Spec Opt
  | .rpcUrl => rpcUrlSpec Opt
  | .accountAddress => textSpec Opt "account-address" "ADDRESS" (some Variable.accountAddress)
  | .privateKey => textSpec Opt "private-key" "PRIVATE_KEY" (some Variable.privateKey)
  | .walletPath => textSpec Opt "wallet-path" "PATH" (some Variable.walletPath)
  | .launcher =>
      { textSpec Opt "launcher" "PROGRAM" (some Variable.launcher) with excludes := [.noLauncher] }
  | .noLauncher => plainSpec Opt "no-launcher" none .flag
  | .contract =>
      { textSpec Opt "contract" "CONTRACT" none with check := checkPreset, excludes := [.classHash] }
  | .classHash => textSpec Opt "class-hash" "CLASS_HASH" none
  | .salt => textSpec Opt "salt" "SALT" none
  | .constructorCalldata => { textSpec Opt "constructor-calldata" "ARG" none with arity := .many }
  | .verbose => verboseSpec .quiet
  | .quiet => quietSpec .verbose
  | .help => helpSpec Opt
  | .version => versionSpec Opt

-- The vault has a constructor, so its calldata has to be given.
def interface : Interface Opt :=
  { options :=
      [.rpcUrl, .accountAddress, .privateKey, .walletPath, .launcher, .noLauncher, .contract, .classHash,
        .salt, .constructorCalldata, .verbose, .quiet, .help, .version]
    spec
    requirements := [⟨.constructorCalldata, .contract, Preset.vault.choice⟩] }

structure Arguments where
  rpcUrl : Url
  accountAddress : String
  privateKey : String
  walletPath : String
  launcher : Option String
  noLauncher : Bool
  preset : Preset
  classHash : Option String
  salt : String
  constructorCalldata : Option (List String)
  verbosity : Log.Threshold
  deriving DecidableEq, Repr

namespace Arguments

def ofMatches (found : Matches Opt) : Except Stop Arguments :=
  let urlText := (found.value? .rpcUrl).getD Default.rpcUrl
  match Url.parse urlText with
  | .error e => .error (.rejected (.malformedValue (interface.display .rpcUrl) urlText e.message))
  | .ok rpcUrl =>
      .ok
        { rpcUrl
          accountAddress := (found.value? .accountAddress).getD Default.accountAddress
          privateKey := (found.value? .privateKey).getD Default.privateKey
          walletPath := (found.value? .walletPath).getD Default.walletPath
          launcher := found.value? .launcher
          noLauncher := found.given .noLauncher
          preset := ((found.value? .contract).bind Preset.ofChoice?).getD .mockBtc
          classHash := found.value? .classHash
          salt := (found.value? .salt).getD Default.salt
          constructorCalldata := found.values? .constructorCalldata
          verbosity := Log.verbosity (found.uses .verbose) (found.uses .quiet) }

def reader : Reader Opt Arguments := ⟨interface, ofMatches, verbosity⟩

def parse : Environment → List String → Except Stop Arguments := reader.parse

def targetName (arguments : Arguments) : String :=
  match arguments.classHash with
  | some classHash => classHash
  | none => arguments.preset.name

def deploysToken (arguments : Arguments) : Bool :=
  arguments.classHash.isNone && arguments.preset == .mockBtc

-- The token is owned by the deploying account unless other calldata is given.
def deployment (arguments : Arguments) : Deployment :=
  let calldata :=
    match arguments.constructorCalldata with
    | some calldata => calldata
    | none => if arguments.deploysToken then [arguments.accountAddress] else []
  (Deployment.ofClass (arguments.classHash.getD arguments.preset.classHash) calldata).withSalt
    arguments.salt

def effectiveLauncher (arguments : Arguments) : Option String :=
  if arguments.noLauncher then none else arguments.launcher.or Default.launcher

def command (arguments : Arguments) : Command :=
  (Wallet.mk arguments.walletPath arguments.effectiveLauncher).command
    (arguments.deployment.invoke arguments.rpcUrl arguments.accountAddress arguments.privateKey)

end Arguments
end Devnet.Deploy
