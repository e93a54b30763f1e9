import Devnet.Proofs.CommandLine.Occurrences
import Devnet.Proofs.Execution.Defaults

set_option autoImplicit false

namespace Devnet.Deploy

open CommandLine

-- The value of an option at its only occurrence, or another one where the option does not occur.
def Stands (line : List (WordGroup Opt)) (option : Opt) (otherwise value : String) : Prop :=
  interface.occurrences line option = [[value]] ∨ interface.occurrences line option = [] ∧ value = otherwise

-- What a line of groups asks for. A class hash and a preset exclude each other, and calldata that does not
-- occur is what the preset has instead.
structure Asked (environment : Environment) (line : List (WordGroup Opt)) (arguments : Arguments) : Prop where
  preset : Stands line .contract "mock-btc" arguments.preset.choice
  target :
    (∃ text, interface.occurrences line .classHash = [[text]] ∧ interface.occurrences line .contract = [] ∧
      arguments.deployment.classHash = text ∧ arguments.targetName = text) ∨
    interface.occurrences line .classHash = [] ∧ arguments.deployment.classHash = arguments.preset.classHash ∧
      arguments.targetName = arguments.preset.name
  vault : arguments.preset = .vault → interface.occurrences line .constructorCalldata ≠ []
  calldata : interface.occurrences line .constructorCalldata ≠ [] →
    arguments.deployment.constructorCalldata = (interface.occurrences line .constructorCalldata).flatten
  owner : interface.occurrences line .constructorCalldata = [] →
    ∃ account, Stands line .accountAddress ((environment Variable.accountAddress).getD Default.accountAddress) account ∧
      arguments.deployment.constructorCalldata =
        if interface.occurrences line .classHash = [] then [account] else []
  salt : Stands line .salt "0x0" arguments.deployment.salt

section Matched

variable (found : Matches Opt) (option : Opt)

theorem given_of_value (value : String) (held : found.value? option = some value) : found.given option = true := by
  obtain ⟨entry, hit, _⟩ := Option.bind_eq_some_iff.mp held
  rw [Matches.given, hit]
  rfl

theorem contains_of_value (value : String) (held : found.value? option = some value) :
    ((found.values? option).getD []).contains value = true := by
  obtain ⟨entry, hit, first⟩ := Option.bind_eq_some_iff.mp held
  rw [Matches.values?, hit, List.contains_iff_mem]
  exact List.mem_of_head? first

end Matched

structure Read (found : Matches Opt) (arguments : Arguments) : Prop where
  account : arguments.accountAddress = (found.value? .accountAddress).getD Default.accountAddress
  preset : arguments.preset = ((found.value? .contract).bind Preset.ofChoice?).getD .mockBtc
  classHash : arguments.classHash = found.value? .classHash
  salt : arguments.salt = (found.value? .salt).getD Default.salt
  calldata : arguments.constructorCalldata = found.values? .constructorCalldata

theorem read_of_matches (found : Matches Opt) (arguments : Arguments) (read : Arguments.ofMatches found = .ok arguments) :
    Read found arguments := by
  simp only [Arguments.ofMatches] at read
  split at read
  case h_1 => cases read
  case h_2 =>
    rw [← Except.ok.inj read]
    exact ⟨rfl, rfl, rfl, rfl, rfl⟩

theorem choice_of_text (text : String) (preset : Preset) (chosen : Preset.ofChoice? text = some preset) :
    preset.choice = text := by
  simpa using List.find?_some chosen

section Line

variable {environment : Environment} {line : List (WordGroup Opt)} {words : List String} {found : Matches Opt}
  (spells : interface.Spells line words) (parsed : interface.parse environment words = .ok found)
include spells parsed

theorem once (option : Opt) (single : (interface.spec option).arity = .one) :
    interface.occurrences line option = [] ∧ found.value? option = interface.setting? environment option ∨
      ∃ value, interface.checkValues option [value] = .ok () ∧ interface.occurrences line option = [[value]] ∧
        found.value? option = some value :=
  interface.found_once spellable line words spells environment found options_complete parsed option single

theorem stands_of_found (option : Opt) (otherwise : String) (single : (interface.spec option).arity = .one) :
    Stands line option ((interface.setting? environment option).getD otherwise) ((found.value? option).getD otherwise) := by
  rcases once spells parsed option single with ⟨absent, held⟩ | ⟨value, _, occurs, held⟩
  · rw [held]
    exact .inr ⟨absent, rfl⟩
  · rw [held]
    exact .inl occurs

theorem collected :
    found.values? .constructorCalldata =
      if interface.occurrences line .constructorCalldata = [] then none
      else some (interface.occurrences line .constructorCalldata).flatten :=
  interface.found_collected spellable line words spells environment found options_complete parsed .constructorCalldata
    rfl rfl

theorem preset_stands :
    Stands line .contract "mock-btc" (((found.value? .contract).bind Preset.ofChoice?).getD .mockBtc).choice := by
  rcases once spells parsed .contract rfl with ⟨absent, held⟩ | ⟨value, passes, occurs, held⟩
  · rw [held]
    exact .inr ⟨absent, rfl⟩
  · have checked : (Preset.ofChoice? value).isSome = true := by
      by_contra other
      simp [Interface.checkValues, interface, spec, checkPreset, other] at passes
    obtain ⟨preset, chosen⟩ := Option.isSome_iff_exists.mp checked
    rw [held, Option.bind_some, chosen, Option.getD_some, choice_of_text value preset chosen]
    exact .inl occurs

theorem class_alone (value : String) (held : found.value? .classHash = some value) :
    interface.occurrences line .contract = [] := by
  rcases once spells parsed .contract rfl with ⟨absent, _⟩ | ⟨other, _, _, chosen⟩
  · exact absent
  · obtain ⟨_, _, _, checked⟩ := (interface.parse_iff environment words found).mp parsed
    obtain ⟨_, free, _⟩ := (interface.check_together_iff found found).mp checked
    have peace := (interface.conflict_free_iff found).mp free .contract .classHash (given_of_value found _ other chosen)
      (given_of_value found _ value held) (by decide)
    cases peace

theorem vault_listed (held : found.value? .contract = some Preset.vault.choice) :
    interface.occurrences line .constructorCalldata ≠ [] := by
  obtain ⟨_, _, _, checked⟩ := (interface.parse_iff environment words found).mp parsed
  obtain ⟨_, _, met⟩ := (interface.check_together_iff found found).mp checked
  have unmet := List.any_eq_false.mp met ⟨.constructorCalldata, .contract, Preset.vault.choice⟩ (List.mem_singleton_self _)
  rw [Interface.isUnmet, contains_of_value found _ _ held, Bool.true_and, Matches.given_iff_values,
    collected spells parsed] at unmet
  intro absent
  rw [if_pos absent] at unmet
  exact unmet rfl

theorem vault_found (arguments : Arguments) (read : Read found arguments) (vault : arguments.preset = .vault) :
    interface.occurrences line .constructorCalldata ≠ [] := by
  rw [read.preset] at vault
  cases held : found.value? .contract with
  | none =>
      rw [held] at vault
      cases vault
  | some text =>
      rw [held, Option.bind_some] at vault
      cases chosen : Preset.ofChoice? text with
      | none =>
          rw [chosen] at vault
          cases vault
      | some preset =>
          rw [chosen, Option.getD_some] at vault
          have same := choice_of_text text preset chosen
          rw [vault] at same
          exact vault_listed spells parsed (same ▸ held)

theorem target_found (arguments : Arguments) (read : Read found arguments) :
    (∃ text, interface.occurrences line .classHash = [[text]] ∧ interface.occurrences line .contract = [] ∧
      arguments.deployment.classHash = text ∧ arguments.targetName = text) ∨
    interface.occurrences line .classHash = [] ∧ arguments.deployment.classHash = arguments.preset.classHash ∧
      arguments.targetName = arguments.preset.name := by
  have hash : arguments.deployment.classHash = arguments.classHash.getD arguments.preset.classHash := rfl
  rcases once spells parsed .classHash rfl with ⟨absent, held⟩ | ⟨text, _, occurs, held⟩
  · have missing : arguments.classHash = none := read.classHash.trans held
    refine .inr ⟨absent, ?_, ?_⟩
    · rw [hash, missing, Option.getD_none]
    · rw [Arguments.targetName, missing]
  · have present : arguments.classHash = some text := read.classHash.trans held
    refine .inl ⟨text, occurs, class_alone spells parsed text held, ?_, ?_⟩
    · rw [hash, present, Option.getD_some]
    · rw [Arguments.targetName, present]

-- A vault does not come without calldata, so that what comes without is a token or a class.
theorem owner_found (arguments : Arguments) (read : Read found arguments)
    (absent : interface.occurrences line .constructorCalldata = []) :
    arguments.deployment.constructorCalldata =
      if interface.occurrences line .classHash = [] then [arguments.accountAddress] else [] := by
  have missing : arguments.constructorCalldata = none := by rw [read.calldata, collected spells parsed, if_pos absent]
  have token : arguments.preset = .mockBtc := by
    cases chosen : arguments.preset with
    | mockBtc => rfl
    | vault => exact absurd absent (vault_found spells parsed arguments read chosen)
  have elements : arguments.deployment.constructorCalldata =
      if arguments.deploysToken = true then [arguments.accountAddress] else [] := by
    rw [Arguments.deployment, missing]
    rfl
  rw [elements, Arguments.deploysToken, token, read.classHash]
  rcases once spells parsed .classHash rfl with ⟨none, held⟩ | ⟨text, _, occurs, held⟩
  · rw [held, none]
    rfl
  · rw [held, occurs]
    rfl

theorem asked_of_found (arguments : Arguments) (read : Read found arguments) : Asked environment line arguments := by
  refine ⟨?_, target_found spells parsed arguments read, vault_found spells parsed arguments read, ?_, ?_, ?_⟩
  · rw [read.preset]
    exact preset_stands spells parsed
  · intro occurs
    have present := read.calldata.trans ((collected spells parsed).trans (if_neg occurs))
    rw [Arguments.deployment, present]
    rfl
  · intro absent
    refine ⟨arguments.accountAddress, ?_, owner_found spells parsed arguments read absent⟩
    have stands := stands_of_found spells parsed .accountAddress Default.accountAddress rfl
    rw [← read.account] at stands
    exact stands
  · have stands := stands_of_found spells parsed .salt Default.salt rfl
    rw [← read.salt] at stands
    exact stands

end Line

theorem accepted_line_asks (environment : Environment) (words : List String) (arguments : Arguments)
    (accepted : Arguments.parse environment words = .ok arguments) :
    (∃ line, interface.Spells line words) ∧
    ∀ line, interface.Spells line words → Asked environment line arguments := by
  obtain ⟨found, parsed, matched⟩ :=
    (bind_ok_iff (interface.parse environment words) Arguments.ofMatches arguments).mp accepted
  refine ⟨interface.grouped_of_parse words environment found parsed, fun line spells => ?_⟩
  exact asked_of_found spells parsed arguments (read_of_matches found arguments matched)

def owned : Environment := fun name => if name = Variable.accountAddress then some "0xacc" else none

def vaultWords : List String :=
  ["--constructor-calldata", "0x123", "-", "--contract", "vault", "--constructor-calldata", "-v",
    "--constructor-calldata=--salt", "--salt", "7", "--"]

def vaultLine : List (WordGroup Opt) :=
  [.named .constructorCalldata ["0x123", "-"], .named .contract ["vault"], .named .constructorCalldata [],
    .letters ['v'], .attached .constructorCalldata "--salt", .named .salt ["7"]]

def vaultArguments : Arguments :=
  ⟨⟨"http", some ⟨"", "", .ipv4 2130706433, some 5060⟩, "/", none, none⟩, "0xacc", Default.privateKey, Default.walletPath,
    none, false, .vault, none, "7", some ["0x123", "-", "--salt"], .upTo .warn⟩

theorem accepted_line_asks_vault :
    Arguments.parse owned vaultWords = .ok vaultArguments ∧ Asked owned vaultLine vaultArguments ∧
    vaultArguments.deployment.constructorCalldata = ["0x123", "-"] ++ [] ++ ["--salt"] := by
  have accepted : Arguments.parse owned vaultWords = .ok vaultArguments := by decide +kernel
  have spells : interface.Spells vaultLine vaultWords := ⟨by decide, .inr (by decide)⟩
  have asked := (accepted_line_asks owned vaultWords vaultArguments accepted).2 vaultLine spells
  exact ⟨accepted, asked, asked.calldata (by decide)⟩

end Devnet.Deploy
