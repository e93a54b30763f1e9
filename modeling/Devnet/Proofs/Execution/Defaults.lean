import Devnet.Deploy.Arguments
import Devnet.Discover.Arguments
import Devnet.Proofs.CommandLine.Reader

set_option autoImplicit false

namespace Devnet

open CommandLine

namespace Deploy

def backing : List (Opt × String) :=
  [(.rpcUrl, Variable.rpcUrl), (.accountAddress, Variable.accountAddress), (.privateKey, Variable.privateKey),
    (.walletPath, Variable.walletPath), (.launcher, Variable.launcher)]

theorem options_complete (option : Opt) : option ∈ interface.options := by
  cases option <;> decide

theorem spellable : interface.Spellable :=
  ⟨fun option => by cases option <;> decide, fun option => by cases option <;> decide,
    fun option => by cases option <;> decide, by decide⟩

theorem variables_apart :
    ∀ pair ∈ backing, ∀ x ∈ interface.options, (interface.spec x).variableName = some pair.2 → x = pair.1 := by
  decide

theorem backed (pair : Opt × String) (member : pair ∈ backing) : interface.Backed pair.1 pair.2 := by
  have own (x : Opt) := variables_apart pair member x (options_complete x)
  simp only [backing, List.mem_cons, List.not_mem_nil, or_false] at member
  rcases member with rfl | rfl | rfl | rfl | rfl <;>
    exact ⟨⟨by decide, rfl, by decide⟩, rfl, rfl, own, options_complete⟩

theorem of_matches_recounted (found other : Matches Opt) (same : ∀ x, x ≠ .verbose → other.find? x = found.find? x) :
    Arguments.ofMatches other = (Arguments.ofMatches found).map fun arguments =>
      { arguments with verbosity := Log.verbosity (other.uses .verbose) (other.uses .quiet) } := by
  have value (x : Opt) (apart : x ≠ .verbose) := Matches.value_same found other x (same x apart)
  simp (disch := decide) only [Arguments.ofMatches, value, Matches.values?, Matches.given, same]
  cases Url.parse ((found.value? .rpcUrl).getD Default.rpcUrl) <;> rfl

theorem reader_lawful : Arguments.reader.Lawful .verbose .quiet fun arguments threshold =>
    { arguments with verbosity := threshold } where
  spellable := spellable
  complete := options_complete
  counted := ⟨rfl, rfl, rfl, fun other => by cases other <;> decide, by decide⟩
  apart := by decide
  unfiltered := fun option => by cases option <;> decide
  recounted := of_matches_recounted
  level := fun _ _ => rfl

end Deploy

namespace Discover

theorem options_complete (option : Opt) : option ∈ interface.options := by
  cases option <;> decide

theorem spellable : interface.Spellable :=
  ⟨fun option => by cases option <;> decide, fun option => by cases option <;> decide,
    fun option => by cases option <;> decide, by decide⟩

theorem backed : interface.Backed .rpcUrl Variable.rpcUrl := by
  refine ⟨⟨by decide, rfl, by decide⟩, rfl, rfl, ?_, options_complete⟩
  intro x named
  cases x <;> first | rfl | cases named

theorem of_matches_recounted (found other : Matches Opt) (same : ∀ x, x ≠ .verbose → other.find? x = found.find? x) :
    Arguments.ofMatches other = (Arguments.ofMatches found).map fun arguments =>
      { arguments with verbosity := Log.verbosity (other.uses .verbose) (other.uses .quiet) } := by
  have value (x : Opt) (apart : x ≠ .verbose) := Matches.value_same found other x (same x apart)
  simp (disch := decide) only [Arguments.ofMatches, value, Matches.given, same]
  cases Url.parse ((found.value? .rpcUrl).getD Default.rpcUrl) <;> rfl

theorem reader_lawful : Arguments.reader.Lawful .verbose .quiet fun arguments threshold =>
    { arguments with verbosity := threshold } where
  spellable := spellable
  complete := options_complete
  counted := ⟨rfl, rfl, rfl, fun other => by cases other <;> decide, by decide⟩
  apart := by decide
  unfiltered := fun option => by cases option <;> decide
  recounted := of_matches_recounted
  level := fun _ _ => rfl

end Discover

theorem variables_are_defaults (environment : Environment) (words : List String) :
    (∀ pair ∈ Deploy.backing,
      IsDefault Deploy.interface Deploy.Arguments.parse environment words pair.1 pair.2) ∧
    IsDefault Discover.interface Discover.Arguments.parse environment words .rpcUrl Variable.rpcUrl :=
  ⟨fun pair member => Deploy.reader_lawful.is_default (Deploy.backed pair member) environment words,
    Discover.reader_lawful.is_default Discover.backed environment words⟩

def mixedEnvironment : Environment := fun name =>
  if name = Variable.rpcUrl then some "no url" else if name = Variable.launcher then some "" else none

def mixedWords : List String := ["--rpc-url", "http://h/", "-vvv"]

def mixedUrl : Url := ⟨"http", some ⟨"", "", .name "h", none⟩, "/", none, none⟩

def mixedDeployment : Deploy.Arguments :=
  ⟨mixedUrl, Default.accountAddress, Default.privateKey, Default.walletPath, some "", false, .mockBtc, none,
    Default.salt, none, .upTo .debug⟩

theorem variables_are_defaults_mixed :
    (∀ value, Deploy.Arguments.parse (mixedEnvironment.assign Variable.rpcUrl value) mixedWords = .ok mixedDeployment) ∧
    Deploy.Arguments.parse (mixedEnvironment.assign Variable.launcher none) ("--launcher=" :: mixedWords) =
      .ok mixedDeployment ∧
    ∀ value, Discover.Arguments.parse (mixedEnvironment.assign Variable.rpcUrl value) mixedWords =
      .ok ⟨mixedUrl, none, false, .upTo .debug⟩ := by
  have deployed : Deploy.Arguments.parse mixedEnvironment mixedWords = .ok mixedDeployment := by decide +kernel
  have discovered : Discover.Arguments.parse mixedEnvironment mixedWords = .ok ⟨mixedUrl, none, false, .upTo .debug⟩ := by
    decide +kernel
  have typed : Deploy.interface.mentions .rpcUrl "--rpc-url" = true := by decide
  have asked : Discover.interface.mentions .rpcUrl "--rpc-url" = true := by decide
  have untyped : ∀ word ∈ mixedWords, Deploy.interface.mentions .launcher word = false := by decide
  obtain ⟨deploys, discovers⟩ := variables_are_defaults mixedEnvironment mixedWords
  refine ⟨?_, ?_, ?_⟩
  · exact (deploys (.rpcUrl, Variable.rpcUrl) (by decide)).unused _ deployed ⟨"--rpc-url", by decide, typed⟩
  · exact ((deploys (.launcher, Variable.launcher) (by decide)).standsIn "" (by decide) untyped _).mp deployed
  · exact discovers.unused _ discovered ⟨"--rpc-url", by decide, asked⟩

end Devnet
