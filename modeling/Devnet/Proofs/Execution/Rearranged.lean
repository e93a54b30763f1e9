import Devnet.Proofs.Execution.Defaults

set_option autoImplicit false

namespace Devnet

open CommandLine

namespace Deploy

theorem collects_calldata (option : Opt) (many : (interface.spec option).arity = .many) : option = .constructorCalldata := by
  cases option <;> first | rfl | cases many

end Deploy

namespace Discover

theorem collects_nothing (option : Opt) (many : (interface.spec option).arity = .many) : False := by
  cases option <;> cases many

end Discover

theorem order_of_options_free (environment : Environment) :
    (∀ line other : List (WordGroup Deploy.Opt), (∀ group ∈ line, Deploy.interface.Forms group) → line.Perm other →
      line.filter (Deploy.interface.gives .constructorCalldata) =
        other.filter (Deploy.interface.gives .constructorCalldata) →
      ∀ arguments, Deploy.Arguments.parse environment (line.flatMap Deploy.interface.words) = .ok arguments ↔
        Deploy.Arguments.parse environment (other.flatMap Deploy.interface.words) = .ok arguments) ∧
    ∀ line other : List (WordGroup Discover.Opt), (∀ group ∈ line, Discover.interface.Forms group) → line.Perm other →
      ∀ arguments, Discover.Arguments.parse environment (line.flatMap Discover.interface.words) = .ok arguments ↔
        Discover.Arguments.parse environment (other.flatMap Discover.interface.words) = .ok arguments := by
  refine ⟨?_, ?_⟩
  · intro line other formed same kept arguments
    exact Deploy.reader_lawful.rearranged_iff environment line other arguments formed same
      fun option many => Deploy.collects_calldata option many ▸ kept
  · intro line other formed same arguments
    exact Discover.reader_lawful.rearranged_iff environment line other arguments formed same
      fun option many => (Discover.collects_nothing option many).elim

def typedGroups : List (WordGroup Deploy.Opt) :=
  [.letters ['v'], .named .constructorCalldata ["7", "-"], .attached .launcher "--x=", .named .constructorCalldata [],
    .named .salt ["0x5"], .named .verbose [], .attached .constructorCalldata "-v"]

def mixedGroups : List (WordGroup Deploy.Opt) :=
  [.named .salt ["0x5"], .named .constructorCalldata ["7", "-"], .named .verbose [], .named .constructorCalldata [],
    .attached .constructorCalldata "-v", .attached .launcher "--x=", .letters ['v']]

def mixedArguments : Deploy.Arguments :=
  ⟨⟨"http", some ⟨"", "", .ipv4 2130706433, some 5060⟩, "/", none, none⟩, Default.accountAddress, Default.privateKey,
    Default.walletPath, some "--x=", false, .mockBtc, none, "0x5", some ["7", "-", "-v"], .upTo .info⟩

theorem order_of_options_free_mixed :
    Deploy.Arguments.parse (fun _ => none)
      ["-v", "--constructor-calldata", "7", "-", "--launcher=--x=", "--constructor-calldata", "--salt", "0x5",
        "--verbose", "--constructor-calldata=-v"] = .ok mixedArguments ∧
    Deploy.Arguments.parse (fun _ => none)
      ["--salt", "0x5", "--constructor-calldata", "7", "-", "--verbose", "--constructor-calldata",
        "--constructor-calldata=-v", "--launcher=--x=", "-v"] = .ok mixedArguments ∧
    Discover.Arguments.parse (fun _ => none) ["--rpc-url=http://h/", "-qq", "--stop-on-success", "--timeout", "+5"] =
      .ok ⟨mixedUrl, some 5, true, .off⟩ := by
  have typed : Deploy.Arguments.parse (fun _ => none) (typedGroups.flatMap Deploy.interface.words) = .ok mixedArguments := by
    decide +kernel
  have found : Discover.Arguments.parse (fun _ => none) ["--timeout", "+5", "-qq", "--rpc-url=http://h/", "--stop-on-success"] =
      .ok ⟨mixedUrl, some 5, true, .off⟩ := by decide +kernel
  obtain ⟨deploys, discovers⟩ := order_of_options_free fun _ => none
  refine ⟨typed, ?_, ?_⟩
  · exact (deploys typedGroups mixedGroups (by decide) (by decide) (by decide) mixedArguments).mp typed
  · exact (discovers [.named .timeout ["+5"], .letters ['q', 'q'], .attached .rpcUrl "http://h/", .named .stopOnSuccess []]
      [.attached .rpcUrl "http://h/", .letters ['q', 'q'], .named .stopOnSuccess [], .named .timeout ["+5"]]
      (by decide) (by decide) _).mp found

end Devnet
