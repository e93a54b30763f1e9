import Devnet.Proofs.Execution.Logging
import Devnet.Proofs.Log.Directives

set_option autoImplicit false

namespace Devnet

open CommandLine

namespace Log

variable (text : String) (threshold : Threshold) (targets : List String)

theorem in_force_well_formed (wellFormed : IsFilterText text) (other : Threshold) :
    filterInForce (some text) threshold targets = filterInForce (some text) other targets := by
  obtain ⟨filter, read⟩ := (is_filter_text_iff text).mp wellFormed
  rw [filterInForce, filterInForce, Option.bind_some, read]

theorem in_force_malformed (malformed : ¬ IsFilterText text) :
    filterInForce (some text) threshold targets = filterInForce none threshold targets := by
  have unread : Filter.parse? text = none :=
    Option.eq_none_iff_forall_ne_some.mpr fun filter read => malformed ((is_filter_text_iff text).mpr ⟨filter, read⟩)
  rw [filterInForce, filterInForce, Option.bind_some, Option.bind_none, unread]

end Log

-- What the filter that the environment names is to a program. Arguments that `agree` differ in their verbosity
-- alone.
structure Overriding {α : Type} (parse : Environment → List String → Except Stop α)
    (execute : Environment → List String → Execution) (agree : α → α → Prop) : Prop where
  replaces : ∀ environment other words otherWords a b, parse environment words = .ok a →
    parse other otherWords = .ok b → agree a b →
      ∀ text, environment Variable.logFilter = some text → other Variable.logFilter = some text → Log.IsFilterText text →
        execute environment words = execute other otherWords
  ignored : ∀ environment words text, environment Variable.logFilter = some text → ¬ Log.IsFilterText text →
    execute environment words = execute (environment.assign Variable.logFilter none) words

theorem Program.Lawful.overriding {ι α : Type} [DecidableEq ι] {program : Program ι α} {verbose quiet : ι}
    {leveled : α → Log.Threshold → α} (lawful : program.Lawful verbose quiet leveled) :
    Overriding program.parse program.execute fun a b => leveled a (program.verbosity b) = b := by
  constructor
  · intro environment other words otherWords a b accepted otherAccepted agreed text set otherSet wellFormed
    rw [program.execute_accepted environment words a accepted, program.execute_accepted other otherWords b otherAccepted,
      lawful.run_same_beside_verbosity a b agreed, set, otherSet,
      Log.in_force_well_formed text (program.verbosity a) _ wellFormed (program.verbosity b)]
  · intro environment words text set malformed
    have unset : environment.assign Variable.logFilter none Variable.logFilter = none := if_pos rfl
    rw [Program.execute, Program.execute, lawful.log_filter_unread, set, unset]
    cases program.parse environment words with
    | error stop => rfl
    | ok arguments => simp only [Log.in_force_malformed text _ _ malformed]

theorem log_filter_replaces_verbosity (machine : Machine) (client : Http.Client) (stdout : Sink) :
    (Overriding Deploy.Arguments.parse (Deploy.execute machine) fun a b => { a with verbosity := b.verbosity } = b) ∧
    Overriding Discover.Arguments.parse (Discover.execute client stdout) fun a b =>
      { a with verbosity := b.verbosity } = b :=
  ⟨(Deploy.lawful machine).overriding, (Discover.lawful client stdout).overriding⟩

theorem log_filter_replaces_verbosity_loud :
    (Deploy.execute (fun _ => .error .notFound) (filtering (some "trace")) ["-q"] =
        Deploy.execute (fun _ => .error .notFound) (filtering (some "trace")) ["-vv", "-v"] ∧
      Deploy.execute (fun _ => .error .notFound) (filtering (some "[")) ["-vv"] =
        Deploy.execute (fun _ => .error .notFound) (filtering none) ["-vv"]) ∧
    Discover.execute (.scripted .unreachable) .unlimited (filtering (some "trace")) ["-q"] =
        Discover.execute (.scripted .unreachable) .unlimited (filtering (some "trace")) ["-vv", "-v"] ∧
      Discover.execute (.scripted .unreachable) .unlimited (filtering (some "[")) ["-vv"] =
        Discover.execute (.scripted .unreachable) .unlimited (filtering none) ["-vv"] := by
  have wellFormed : Log.IsFilterText "trace" := by decide +kernel
  have malformed : ¬ Log.IsFilterText "[" := by decide +kernel
  have quiet : Deploy.Arguments.parse (filtering (some "trace")) ["-q"] = .ok (defaultDeployment .off) := by
    decide +kernel
  have loud : Deploy.Arguments.parse (filtering (some "trace")) ["-vv", "-v"] =
      .ok (defaultDeployment (.upTo .debug)) := by
    decide +kernel
  have quietly : Discover.Arguments.parse (filtering (some "trace")) ["-q"] = .ok ⟨defaultUrl, none, false, .off⟩ := by
    decide +kernel
  have loudly : Discover.Arguments.parse (filtering (some "trace")) ["-vv", "-v"] =
      .ok ⟨defaultUrl, none, false, .upTo .debug⟩ := by
    decide +kernel
  have unset : (filtering (some "[")).assign Variable.logFilter none = filtering none := by
    funext name
    by_cases named : name = Variable.logFilter
    · rw [Environment.assign, if_pos named, filtering, if_pos named]
    · rw [Environment.assign, if_neg named, filtering, if_neg named, filtering, if_neg named]
  obtain ⟨deploying, discovering⟩ :=
    log_filter_replaces_verbosity (fun _ => .error .notFound) (.scripted .unreachable) .unlimited
  refine ⟨⟨?_, ?_⟩, ?_, ?_⟩
  · exact deploying.replaces _ _ _ _ _ _ quiet loud rfl "trace" rfl rfl wellFormed
  · exact unset ▸ deploying.ignored (filtering (some "[")) ["-vv"] "[" rfl malformed
  · exact discovering.replaces _ _ _ _ _ _ quietly loudly rfl "trace" rfl rfl wellFormed
  · exact unset ▸ discovering.ignored (filtering (some "[")) ["-vv"] "[" rfl malformed

end Devnet
