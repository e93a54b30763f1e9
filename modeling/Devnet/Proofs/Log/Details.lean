import Devnet.Execution
import Devnet.Proofs.Log.Default

set_option autoImplicit false

namespace Devnet

namespace Log

def libraryName : String := "devnet_utils"

def IsDetail (event : Event) : Prop :=
  libraryName.toList <+: event.target.toList ∧ (event.level = .debug ∨ event.level = .trace)

instance (event : Event) : Decidable (IsDetail event) := inferInstanceAs (Decidable (_ ∧ _))

-- An event of a program that logs under these targets: one of them begins its target, and only the library has
-- events that are finer than pieces of information.
structure IsOwn (targets : List String) (event : Event) : Prop where
  listed : ∃ name ∈ targets, name.toList <+: event.target.toList
  plain : ¬ "none".toList <+: event.target.toList
  fine : Level.info.rank < event.level.rank → libraryName.toList <+: event.target.toList

theorem fine_iff (level : Level) : Level.info.rank < level.rank ↔ level = .debug ∨ level = .trace := by
  cases level <;> decide

section Targets

variable (targets : List String) (event : Event)

theorem own_of_target (named : event.target ∈ targets) (plain : ¬ "none".toList <+: event.target.toList)
    (level : event.level.rank ≤ Level.info.rank) : IsOwn targets event :=
  ⟨⟨event.target, named, List.prefix_rfl⟩, plain, fun fine => absurd level (Nat.not_le_of_lt fine)⟩

theorem own_of_library (listed : libraryName ∈ targets) (under : libraryName.toList <+: event.target.toList) :
    IsOwn targets event := by
  refine ⟨⟨libraryName, listed, under⟩, fun plain => ?_, fun _ => under⟩
  rcases List.prefix_or_prefix_of_prefix plain under with inside | inside
  · exact absurd inside (by decide)
  · exact absurd inside (by decide)

variable (crates : AreCrates targets)
include crates

theorem own_told_iff (verbose : Bool) (own : IsOwn targets event) :
    (Filter.parseLenient (defaultFilterText verbose targets)).admits event = true ↔
      (IsDetail event → verbose = true) := by
  rw [default_filter_admits_iff verbose targets event
    (fun name given => identifier_target name (crates.identifiers name given)) crates.unrelated]
  constructor
  · rintro (⟨stray, _⟩ | ⟨_, level⟩) ⟨_, detail⟩
    · exact absurd stray own.plain
    · by_contra terse
      rw [Bool.not_eq_true] at terse
      rw [terse] at level
      exact absurd (of_decide_eq_true level) (Nat.not_le_of_lt ((fine_iff event.level).mpr detail))
  · intro told
    refine .inr ⟨own.listed, ?_⟩
    by_cases fine : Level.info.rank < event.level.rank
    · rw [told ⟨own.fine fine, (fine_iff event.level).mp fine⟩]
      cases event.level <;> rfl
    · have coarse := Nat.le_of_not_lt fine
      cases verbose with
      | false => exact decide_eq_true coarse
      | true => exact decide_eq_true (Nat.le_trans coarse (show (3 : Nat) ≤ 5 by decide))

end Targets

structure IsProgram (name : String) (targets : List String) : Prop where
  crates : AreCrates targets
  named : name ∈ targets
  library : libraryName ∈ targets
  plain : ¬ "none".toList <+: name.toList

theorem program_of_name (name : String) (identifier : isIdentifier name = true) (unrelated : Unrelated name "hyper")
    (plain : ¬ "none".toList <+: name.toList) : IsProgram name [name, libraryName] := by
  refine ⟨⟨?_, ?_⟩, List.mem_cons_self, List.mem_cons_of_mem _ List.mem_cons_self, plain⟩
  · exact List.forall_mem_cons.mpr ⟨identifier, List.forall_mem_singleton.mpr (by decide +kernel)⟩
  · exact List.forall_mem_cons.mpr ⟨unrelated, List.forall_mem_singleton.mpr (by decide)⟩

section Program

variable {name : String} {targets : List String} (program : IsProgram name targets) (event : Event)
include program

theorem program_event_own (own : event.target = name) (level : event.level.rank ≤ Level.info.rank) :
    IsOwn targets event :=
  own_of_target targets event (own ▸ program.named) (own ▸ program.plain) level

theorem library_event_own (under : libraryName.toList <+: event.target.toList) : IsOwn targets event :=
  own_of_library targets event program.library under

theorem program_event_admitted (own : event.target = name) (level : event.level.rank ≤ Level.info.rank) :
    (terseFilter targets).admits event = true :=
  own_admitted targets program.crates event (own ▸ program.named) level

theorem library_event_omitted (under : libraryName.toList <+: event.target.toList)
    (fine : Level.info.rank < event.level.rank) : (terseFilter targets).admits event = false :=
  fine_omitted targets program.crates event (library_event_own program event under).plain fine

end Program

end Log

namespace Effect

def linesUnder (flags : Nat) : Effect → List String
  | .log event => if Log.IsDetail event → 3 ≤ flags then Line.split event.text else []
  | .complain text => Line.split ("Error: " ++ text)
  | _ => []

theorem lines_under_grow (fewer more : Nat) (grows : fewer ≤ more) (effect : Effect) :
    (effect.linesUnder fewer).Sublist (effect.linesUnder more) := by
  cases effect with
  | log event =>
      rw [linesUnder, linesUnder]
      by_cases told : Log.IsDetail event → 3 ≤ fewer
      · rw [if_pos told, if_pos fun detail => Nat.le_trans (told detail) grows]
      · rw [if_neg told]
        exact List.nil_sublist _
  | print bytes => exact List.Sublist.refl _
  | complain text => exact List.Sublist.refl _
  | request line => exact List.Sublist.refl _
  | start command => exact List.Sublist.refl _
  | wait => exact List.Sublist.refl _

theorem run_lines_grow (fewer more : Nat) (grows : fewer ≤ more) (effects : List Effect) :
    (effects.flatMap (linesUnder fewer)).Sublist (effects.flatMap (linesUnder more)) := by
  induction effects with
  | nil => exact List.Sublist.refl _
  | cons effect rest ih =>
      rw [List.flatMap_cons, List.flatMap_cons]
      exact (lines_under_grow fewer more grows effect).append ih

section Told

variable (targets : List String) (crates : Log.AreCrates targets) (flags : Nat)
include crates

theorem error_lines_own (threshold : Log.Threshold) (verbose : threshold.isVerbose = true ↔ 3 ≤ flags)
    (effect : Effect) (own : ∀ event, effect = .log event → Log.IsOwn targets event) :
    effect.errorLines (Log.filterInForce none threshold targets) = effect.linesUnder flags := by
  cases effect with
  | log event =>
      have told := Log.own_told_iff targets event crates threshold.isVerbose (own event rfl)
      rw [verbose] at told
      rw [errorLines, linesUnder, Log.filterInForce, Option.bind_none]
      simp only [told]
  | print bytes => rfl
  | complain text => rfl
  | request line => rfl
  | start command => rfl
  | wait => rfl

theorem run_lines_own (threshold : Log.Threshold) (verbose : threshold.isVerbose = true ↔ 3 ≤ flags)
    (effects : List Effect) (own : ∀ event, .log event ∈ effects → Log.IsOwn targets event) :
    (Execution.ofEffects (Log.filterInForce none threshold targets) effects).stderr =
      effects.flatMap (linesUnder flags) := by
  apply List.flatMap_congr
  intro effect member
  exact error_lines_own targets crates flags threshold verbose effect fun event same => own event (same ▸ member)

end Told

end Effect
end Devnet
