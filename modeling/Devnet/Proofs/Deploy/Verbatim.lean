import Devnet.Deploy.Run
import Devnet.Proofs.CommandLine.Attached
import Devnet.Proofs.Text.Decimal
import Mathlib.Data.List.Perm.Basic

set_option autoImplicit false

namespace Devnet.Deploy

open CommandLine

structure Typed where
  classHash : String
  salt : String
  accountAddress : String
  privateKey : String
  walletPath : String
  rpcUrl : String
  launcher : Option String
  calldata : List String

namespace Typed

def calldataWords (typed : Typed) : List String := typed.calldata.map ("--constructor-calldata=" ++ ·)

def words (typed : Typed) : List String :=
  ["--class-hash=" ++ typed.classHash, "--salt=" ++ typed.salt,
    "--account-address=" ++ typed.accountAddress, "--private-key=" ++ typed.privateKey,
    "--wallet-path=" ++ typed.walletPath, "--rpc-url=" ++ typed.rpcUrl] ++
    typed.launcher.toList.map ("--launcher=" ++ ·) ++ typed.calldataWords

def command (typed : Typed) (url : Url) : Command :=
  { program := typed.launcher.getD typed.walletPath
    arguments :=
      (if typed.launcher.isSome then [typed.walletPath] else []) ++
        ["invoke", deployerAddress, "deployContract", typed.classHash, typed.salt, "0x0",
          toString typed.calldata.length] ++ typed.calldata ++
        ["--rpc", url.text, "--account", typed.accountAddress, "--private-key", typed.privateKey] }

def fixed (typed : Typed) : List (Opt × String) :=
  [(.classHash, typed.classHash), (.salt, typed.salt), (.accountAddress, typed.accountAddress),
    (.privateKey, typed.privateKey), (.walletPath, typed.walletPath), (.rpcUrl, typed.rpcUrl)]

def assignments (typed : Typed) : List (Opt × String) :=
  typed.fixed ++ typed.launcher.toList.map (Opt.launcher, ·) ++ typed.calldata.map (Opt.constructorCalldata, ·)

theorem calldata_words_attached (typed : Typed) :
    typed.calldataWords = (typed.calldata.map (Opt.constructorCalldata, ·)).map interface.attached := by
  rw [List.map_map]
  rfl

theorem words_attached (typed : Typed) : typed.words = typed.assignments.map interface.attached := by
  rw [words, assignments, fixed, calldata_words_attached, List.map_append, List.map_append,
    List.map_map (f := (Opt.launcher, ·))]
  rfl

end Typed

theorem attachable_of_value (option : Opt) (takes : (spec option).takesValue = true) :
    interface.Attachable option := by
  cases option with
  | noLauncher => cases takes
  | verbose => cases takes
  | quiet => cases takes
  | help => cases takes
  | version => cases takes
  | _ => exact ⟨by decide, rfl, by decide⟩

def typedOptions : List Opt :=
  [.classHash, .salt, .accountAddress, .privateKey, .walletPath, .rpcUrl, .launcher, .constructorCalldata]

theorem typed_options_attachable (option : Opt) (member : option ∈ typedOptions) :
    interface.Attachable option :=
  attachable_of_value option ((by decide : ∀ option ∈ typedOptions, (spec option).takesValue = true) option member)

theorem typed_options_compatible :
    ∀ a ∈ typedOptions, ∀ b ∈ typedOptions, interface.areExclusive a b = false := by
  decide

theorem typed_options_unchecked (option : Opt) (member : option ∈ typedOptions) (other : option ≠ .rpcUrl) :
    (spec option).check = anyText := by
  simp only [typedOptions, List.mem_cons, List.not_mem_nil, or_false] at member
  rcases member with rfl | rfl | rfl | rfl | rfl | rfl | rfl | rfl <;> first | rfl | contradiction

namespace Typed

theorem assigned (typed : Typed) (assignment : Opt × String) (member : assignment ∈ typed.assignments) :
    assignment.1 ∈ typedOptions ∧ (assignment.1 = .rpcUrl → assignment.2 = typed.rpcUrl) := by
  simp only [assignments, fixed, List.mem_append, List.mem_cons, List.not_mem_nil, or_false, List.mem_map] at member
  rcases member with ((rfl | rfl | rfl | rfl | rfl | rfl) | ⟨_, _, rfl⟩) | ⟨_, _, rfl⟩ <;> simp [typedOptions]

theorem assignments_once (typed : Typed) : interface.Once typed.assignments := by
  have any : typed.calldata.Pairwise fun _ _ => True := List.pairwise_of_forall fun _ _ => trivial
  cases launcher : typed.launcher <;>
    simp [Interface.Once, assignments, fixed, launcher, List.pairwise_map, interface, spec, any]

theorem assignments_accepted (typed : Typed) (url : Url) (parses : Url.parse typed.rpcUrl = .ok url)
    (assignment : Opt × String) (member : assignment ∈ typed.assignments) :
    (interface.spec assignment.1).check assignment.2 = .ok () := by
  obtain ⟨known, address⟩ := typed.assigned assignment member
  by_cases isUrl : assignment.1 = .rpcUrl
  · have checked : checkUrl typed.rpcUrl = .ok () := by simp [checkUrl, parses]
    rw [isUrl, address isUrl]
    exact checked
  · change (spec assignment.1).check assignment.2 = .ok ()
    rw [typed_options_unchecked assignment.1 known isUrl, anyText]

theorem rearranged (typed : Typed) (words : List String) (arranged : words.Perm typed.words) :
    ∃ assignments : List (Opt × String),
      assignments.Perm typed.assignments ∧ words = assignments.map interface.attached := by
  rw [words_attached] at arranged
  have spelled : List.Forall₂ (fun word assignment => word = interface.attached assignment)
      (typed.assignments.map interface.attached) typed.assignments := by
    rw [List.forall₂_map_left_iff]
    exact List.forall₂_same.mpr fun _ _ => rfl
  obtain ⟨assignments, same, perm⟩ := List.perm_comp_forall₂ arranged spelled
  refine ⟨assignments, perm, ?_⟩
  rw [← List.forall₂_eq_eq_eq, List.forall₂_map_right_iff]
  exact same

theorem attachable_of_perm (typed : Typed) (assignments : List (Opt × String))
    (perm : assignments.Perm typed.assignments) :
    ∀ assignment ∈ assignments, interface.Attachable assignment.1 := by
  intro assignment member
  exact typed_options_attachable _ (typed.assigned assignment (perm.subset member)).1

theorem values_of_perm (a b : List (Opt × String)) (same : a.Perm b) (option : Opt) :
    (Matches.valuesIn a option).Perm (Matches.valuesIn b option) :=
  (same.filter _).map _

theorem calldata_assigned (typed : Typed) :
    Matches.valuesIn typed.assignments .constructorCalldata = typed.calldata := by
  cases launcher : typed.launcher <;>
    simp [Matches.valuesIn, assignments, fixed, launcher, List.filter_map, Function.comp_def]

theorem launcher_assigned (typed : Typed) :
    Matches.valuesIn typed.assignments .launcher = typed.launcher.toList := by
  cases launcher : typed.launcher <;>
    simp [Matches.valuesIn, assignments, fixed, launcher, List.filter_map, Function.comp_def]

theorem fixed_assigned (typed : Typed) (assignment : Opt × String) (member : assignment ∈ typed.fixed) :
    Matches.valuesIn typed.assignments assignment.1 = [assignment.2] := by
  simp only [fixed, List.mem_cons, List.not_mem_nil, or_false] at member
  rcases member with rfl | rfl | rfl | rfl | rfl | rfl <;> cases launcher : typed.launcher <;>
    simp [Matches.valuesIn, assignments, fixed, launcher, List.filter_map, Function.comp_def]

theorem untyped_unassigned (typed : Typed) (option : Opt) (untyped : option ∉ typedOptions) :
    Matches.valuesIn typed.assignments option = [] := by
  rw [Matches.valuesIn, List.map_eq_nil_iff, List.filter_eq_nil_iff]
  intro assignment member same
  have known := (typed.assigned assignment member).1
  rw [of_decide_eq_true same] at known
  exact untyped known

theorem calldata_in_order (typed : Typed) (assignments : List (Opt × String))
    (perm : assignments.Perm typed.assignments)
    (ordered : typed.calldataWords.Sublist (assignments.map interface.attached)) :
    Matches.valuesIn assignments .constructorCalldata = typed.calldata := by
  have listed : (typed.calldata.map (Opt.constructorCalldata, ·)).Sublist assignments := by
    have spelled := ordered.filterMap interface.spelled?
    rw [calldata_words_attached, interface.spelled_words assignments (typed.attachable_of_perm assignments perm),
      interface.spelled_words] at spelled
    · exact spelled
    · intro assignment member
      obtain ⟨_, _, rfl⟩ := List.mem_map.mp member
      exact attachable_of_value _ rfl
  have values : typed.calldata.Sublist (Matches.valuesIn assignments .constructorCalldata) := by
    have kept := (listed.filter fun assignment => assignment.1 = Opt.constructorCalldata).map Prod.snd
    simpa [Matches.valuesIn, List.filter_map, Function.comp_def] using kept
  have lengths := (values_of_perm _ _ perm .constructorCalldata).length_eq
  rw [calldata_assigned] at lengths
  exact (values.eq_of_length lengths.symm).symm

def arguments (typed : Typed) (url : Url) : Arguments :=
  { rpcUrl := url
    accountAddress := typed.accountAddress
    privateKey := typed.privateKey
    walletPath := typed.walletPath
    launcher := typed.launcher
    noLauncher := false
    preset := .mockBtc
    classHash := some typed.classHash
    salt := typed.salt
    constructorCalldata := if typed.calldata = [] then none else some typed.calldata
    verbosity := Log.verbosity 0 0 }

theorem arguments_command (typed : Typed) (url : Url) :
    (typed.arguments url).command = typed.command url := by
  have calldata : (typed.arguments url).deployment = ⟨typed.classHash, typed.salt, typed.calldata⟩ := by
    by_cases empty : typed.calldata = [] <;>
      simp [Arguments.deployment, arguments, empty, Arguments.deploysToken, Deployment.ofClass, Deployment.withSalt]
  have launcher : (typed.arguments url).effectiveLauncher = typed.launcher := by
    simp [Arguments.effectiveLauncher, arguments, Default.launcher]
  rw [Arguments.command, calldata, launcher]
  cases started : typed.launcher <;>
    simp [Wallet.command, Invoke.arguments, Deployment.invoke, Deployment.calldata, Deployment.notUnique,
      deployEntrypoint, Numeral.decimal_standard, command, started, arguments]

section Read

variable (typed : Typed) (assignments : List (Opt × String)) (perm : assignments.Perm typed.assignments)
include perm

theorem fixed_read (assignment : Opt × String) (member : assignment ∈ typed.fixed) :
    (Matches.appendAll [] assignments).value? assignment.1 = some assignment.2 := by
  have values : Matches.valuesIn assignments assignment.1 = [assignment.2] :=
    List.perm_singleton.mp (typed.fixed_assigned assignment member ▸ values_of_perm _ _ perm assignment.1)
  simp [Matches.value_of_values, Matches.values_of_assigned, values]

theorem launcher_read : (Matches.appendAll [] assignments).value? .launcher = typed.launcher := by
  have values := values_of_perm _ _ perm .launcher
  rw [launcher_assigned] at values
  cases launcher : typed.launcher with
  | none =>
      rw [launcher] at values
      simp [Matches.value_of_values, Matches.values_of_assigned, List.perm_nil.mp values]
  | some program =>
      rw [launcher] at values
      simp [Matches.value_of_values, Matches.values_of_assigned, List.perm_singleton.mp values]

theorem untyped_read (option : Opt) (untyped : option ∉ typedOptions) :
    (Matches.appendAll [] assignments).find? option = none := by
  have values : Matches.valuesIn assignments option = [] :=
    List.perm_nil.mp (typed.untyped_unassigned option untyped ▸ values_of_perm _ _ perm option)
  have absent := Matches.values_of_assigned assignments option
  rw [if_pos values, Matches.values?] at absent
  exact Option.map_eq_none_iff.mp absent

theorem checked_together : interface.checkTogether (Matches.appendAll [] assignments) =
    .ok (Matches.appendAll [] assignments) := by
  have known (option : Opt) (present : (Matches.appendAll [] assignments).given option = true) :
      option ∈ typedOptions := by
    obtain ⟨assignment, member, rfl⟩ := Matches.assigned_of_given assignments option present
    exact (typed.assigned assignment (perm.subset member)).1
  have compatible := interface.no_conflict (Matches.appendAll [] assignments) fun a b left right =>
    typed_options_compatible a (known a left) b (known b right)
  have noPreset := typed.untyped_read assignments perm .contract (by decide)
  rw [Interface.checkTogether, compatible]
  simp [interface, Interface.isUnmet, Matches.values?, noPreset]

theorem arguments_read (url : Url) (parses : Url.parse typed.rpcUrl = .ok url)
    (calldata : Matches.valuesIn assignments .constructorCalldata = typed.calldata) :
    Arguments.ofMatches (Matches.appendAll [] assignments) = .ok (typed.arguments url) := by
  have read := typed.fixed_read assignments perm
  have absent := typed.untyped_read assignments perm
  have urlText := read (.rpcUrl, typed.rpcUrl) (by simp [fixed])
  rw [Arguments.ofMatches, urlText]
  simp only [Option.getD_some, parses]
  rw [read (.accountAddress, typed.accountAddress) (by simp [fixed]),
    read (.privateKey, typed.privateKey) (by simp [fixed]),
    read (.walletPath, typed.walletPath) (by simp [fixed]), read (.classHash, typed.classHash) (by simp [fixed]),
    read (.salt, typed.salt) (by simp [fixed]), typed.launcher_read assignments perm,
    Matches.values_of_assigned, calldata]
  simp [Matches.given, Matches.value?, Matches.uses, absent .noLauncher (by decide), absent .contract (by decide),
    absent .verbose (by decide), absent .quiet (by decide), arguments]

end Read

def optionVariables : List String :=
  [Variable.rpcUrl, Variable.accountAddress, Variable.privateKey, Variable.walletPath, Variable.launcher]

theorem variable_unset (environment : Environment) (unset : ∀ name ∈ optionVariables, environment name = none)
    (option : Opt) : (interface.spec option).variableName.bind environment = none := by
  cases option with
  | rpcUrl => exact unset _ (by simp [optionVariables])
  | accountAddress => exact unset _ (by simp [optionVariables])
  | privateKey => exact unset _ (by simp [optionVariables])
  | walletPath => exact unset _ (by simp [optionVariables])
  | launcher => exact unset _ (by simp [optionVariables])
  | _ => rfl

-- The words may stand in any order, but those of the calldata in its own.
theorem values_reach_wallet (environment : Environment) (typed : Typed) (url : Url) (words : List String)
    (unset : ∀ name ∈ optionVariables, environment name = none)
    (parses : Url.parse typed.rpcUrl = .ok url)
    (arranged : words.Perm typed.words) (ordered : typed.calldataWords.Sublist words) :
    ∃ arguments, Arguments.parse environment words = .ok arguments ∧
      arguments.command = typed.command url := by
  obtain ⟨assignments, perm, rfl⟩ := typed.rearranged words arranged
  refine ⟨typed.arguments url, ?_, typed.arguments_command url⟩
  have read := interface.read_attached [] assignments (typed.attachable_of_perm assignments perm)
    (fun assignment member => typed.assignments_accepted url parses assignment (perm.subset member))
    (interface.once_of_perm _ _ perm typed.assignments_once) (fun _ _ _ => rfl)
  have unused := interface.environment_unused environment (Matches.appendAll [] assignments) interface.options
    fun option _ => variable_unset environment unset option
  have parsed : interface.parse environment (assignments.map interface.attached) =
      .ok (Matches.appendAll [] assignments) := by
    rw [Interface.parse, read]
    simp [bind, Except.bind, unused, typed.checked_together assignments perm]
  exact (congrArg (·.bind Arguments.ofMatches) parsed).trans
    (typed.arguments_read assignments perm url parses (typed.calldata_in_order assignments perm ordered))

theorem values_reach_wallet_hostile :
    ∃ arguments, Arguments.parse (fun _ => none)
        ["--constructor-calldata=--rpc", "--salt=", "--launcher=--no-launcher", "--rpc-url=http://h:80/a b",
          "--class-hash=--salt=1", "--constructor-calldata=", "--private-key=a=b", "--wallet-path=-v",
          "--account-address= "] = .ok arguments ∧
      arguments.command =
        ⟨"--no-launcher", ["-v", "invoke", deployerAddress, "deployContract", "--salt=1", "", "0x0", "2", "--rpc",
          "", "--rpc", "http://h/a%20b", "--account", " ", "--private-key", "a=b"]⟩ :=
  values_reach_wallet (fun _ => none)
    ⟨"--salt=1", "", " ", "a=b", "-v", "http://h:80/a b", some "--no-launcher", ["--rpc", ""]⟩
    ⟨"http", some ⟨"", "", .name "h", none⟩, "/a%20b", none, none⟩ _ (fun _ _ => rfl) (by decide +kernel)
    (by decide) (by decide)

end Typed
end Devnet.Deploy
