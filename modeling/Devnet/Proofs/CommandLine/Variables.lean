import Devnet.Proofs.CommandLine.Lookups
import Devnet.Proofs.CommandLine.Mentioned

set_option autoImplicit false

namespace Devnet.CommandLine

-- What it means for a program, read by `parse`, that a variable is the default of an option.
structure IsDefault {ι α : Type} [DecidableEq ι] (interface : Interface ι) (parse : Environment → List String → Except Stop α)
    (environment : Environment) (words : List String) (option : ι) (name : String) : Prop where
  unused : ∀ arguments, parse environment words = .ok arguments →
    (∃ word ∈ words, interface.mentions option word = true) →
      ∀ value, parse (environment.assign name value) words = .ok arguments
  standsIn : ∀ value, environment name = some value → (∀ word ∈ words, interface.mentions option word = false) →
    ∀ arguments, parse environment words = .ok arguments ↔
      parse (environment.assign name none) (interface.attached (option, value) :: words) = .ok arguments

variable {ι : Type} [DecidableEq ι]

namespace Interface

structure Backed (interface : Interface ι) (option : ι) (name : String) : Prop where
  attachable : interface.Attachable option
  single : (interface.spec option).arity = .one
  named : (interface.spec option).variableName = some name
  own : ∀ x, (interface.spec x).variableName = some name → x = option
  complete : ∀ x, x ∈ interface.options

section Finish

variable (interface : Interface ι) (environment other : Environment) (first second found : Matches ι)

theorem finish_same (complete : ∀ x, x ∈ interface.options)
    (same : ∀ x, interface.fallback other second x = interface.fallback environment first x)
    (passes : interface.VariablesPass other second interface.options)
    (environed : interface.readEnvironment environment first interface.options = .ok found)
    (checked : interface.checkTogether found = .ok found) :
    ∃ after, interface.readEnvironment other second interface.options = .ok after ∧
      interface.checkTogether after = .ok after ∧ ∀ x, after.find? x = found.find? x := by
  obtain ⟨lookups, _⟩ := interface.environment_lookups environment first found interface.options environed
  obtain ⟨after, reached⟩ := interface.environment_reached other second interface.options passes
  obtain ⟨again, _⟩ := interface.environment_lookups other second after interface.options reached
  have alike (x : ι) : after.find? x = found.find? x := by
    rw [again, lookups, if_pos (complete x), if_pos (complete x), same]
  exact ⟨after, reached, interface.check_together_same found after alike checked, alike⟩

end Finish

section Unnamed

variable (interface : Interface ι) (environment : Environment)

omit [DecidableEq ι] in
theorem setting_unnamed (name : String) (value : Option String) (x : ι)
    (unnamed : (interface.spec x).variableName ≠ some name) :
    interface.setting? (environment.assign name value) x = interface.setting? environment x := by
  rw [setting?, setting?]
  cases named : (interface.spec x).variableName with
  | none => rfl
  | some other =>
      have differs : ¬ other = name := fun same => unnamed (named.trans (congrArg some same))
      rw [Option.bind_some, Option.bind_some, Environment.assign, if_neg differs]

theorem parse_unnamed (name : String) (value : Option String) (words : List String)
    (unnamed : ∀ x, (interface.spec x).variableName ≠ some name) :
    interface.parse (environment.assign name value) words = interface.parse environment words := by
  rw [parse, parse]
  congr 1
  funext found
  rw [interface.environment_same environment (environment.assign name value) found interface.options fun x _ =>
    interface.setting_unnamed environment name value x (unnamed x)]

theorem environment_alone (found after : Matches ι) (option : ι) (alone : (interface.spec option).variableName = none)
    (environed : interface.readEnvironment environment found interface.options = .ok after) :
    after.find? option = found.find? option := by
  have unset : interface.setting? environment option = none := by
    rw [setting?, alone]
    rfl
  rw [(interface.environment_lookups environment found after interface.options environed).1,
    interface.fallback_skip environment found option (.inr unset), ite_self]

theorem parsed_given_iff (words : List String) (found : Matches ι) (option : ι)
    (alone : (interface.spec option).variableName = none) (parsed : interface.parse environment words = .ok found) :
    found.given option = true ↔ ∃ word ∈ words, interface.mentions option word = true := by
  obtain ⟨first, read, environed, _⟩ := (interface.parse_iff environment words found).mp parsed
  have same := interface.environment_alone environment first found option alone environed
  rw [← interface.given_iff_mentioned option first words read, Matches.given_same first found option same]

theorem parsed_unused (words : List String) (found : Matches ι) (option : ι)
    (alone : (interface.spec option).variableName = none) (parsed : interface.parse environment words = .ok found)
    (unmentioned : ∀ word ∈ words, interface.mentions option word = false) : found.uses option = 0 := by
  have ungiven : ¬ found.given option = true := by
    intro given
    obtain ⟨word, member, mentioned⟩ := (interface.parsed_given_iff environment words found option alone parsed).mp given
    cases (unmentioned word member).symm.trans mentioned
  have missing : found.find? option = none := Option.not_isSome_iff_eq_none.mp ungiven
  rw [Matches.uses, missing]

end Unnamed

section Backed

variable {interface : Interface ι} {option : ι} {name : String} (backed : interface.Backed option name)
include backed

omit [DecidableEq ι] in
theorem setting_own (environment : Environment) : interface.setting? environment option = environment name := by
  rw [setting?, backed.named]
  rfl

omit [DecidableEq ι] in
theorem setting_other (environment : Environment) (value : Option String) (x : ι) (apart : x ≠ option) :
    interface.setting? (environment.assign name value) x = interface.setting? environment x :=
  interface.setting_unnamed environment name value x fun named => apart (backed.own x named)

theorem variable_unused (environment : Environment) (words : List String) (found : Matches ι)
    (mentioned : ∃ word ∈ words, interface.mentions option word = true) (value : Option String)
    (parsed : interface.parse environment words = .ok found) :
    interface.parse (environment.assign name value) words = .ok found := by
  obtain ⟨first, read, environed, checked⟩ := (interface.parse_iff environment words found).mp parsed
  have given := (interface.given_iff_mentioned option first words read).mpr mentioned
  refine (interface.parse_iff _ words found).mpr ⟨first, read, ?_, checked⟩
  rw [interface.environment_same environment (environment.assign name value) first interface.options, environed]
  intro x missing
  apply setting_other backed
  intro this
  rw [this] at missing
  rw [Matches.given, missing] at given
  cases given

theorem read_attached_first (value : String) (words : List String) (after : Matches ι) :
    interface.readWords [] none (interface.attached (option, value) :: words) = .ok after ↔
      interface.checkValues option [value] = .ok () ∧
        interface.readWords [⟨option, [value], 1⟩] none words = .ok after := by
  rw [interface.read_attached_iff [] after none option value words backed.attachable]
  have entered : interface.enter [] option [value] =
      (interface.checkValues option [value]).map fun _ => [⟨option, [value], 1⟩] := by
    rw [enter, backed.single]
    rfl
  have nothing : interface.settle [] none = .ok [] := rfl
  simp only [nothing, Except.ok.injEq, exists_and_left, exists_eq_left', entered]
  cases interface.checkValues option [value] with
  | error stop => simp [Except.map]
  | ok _ => simp [Except.map]

variable {environment : Environment} {value : String} (set : environment name = some value) {first second : Matches ι}
  (beside : Beside option none (some ⟨option, [value], 1⟩) first second)
include set beside

theorem fallback_stands_in (x : ι) :
    interface.fallback (environment.assign name none) second x = interface.fallback environment first x := by
  by_cases this : x = option
  · rw [this, fallback, fallback, beside.first, beside.second, setting_own backed environment, set]
    rfl
  · rw [fallback, fallback, beside.beside x this, setting_other backed environment none x this]

theorem stands_in_passes :
    interface.VariablesPass environment first interface.options ↔
      interface.checkValues option [value] = .ok () ∧
        interface.VariablesPass (environment.assign name none) second interface.options := by
  refine ⟨fun passes => ⟨?_, ?_⟩, fun both x member missing text given => ?_⟩
  · exact passes option (backed.complete option) beside.first value ((setting_own backed environment).trans set)
  · intro x member missing text given
    have apart : x ≠ option := by
      intro this
      cases (this ▸ missing).symm.trans beside.second
    exact passes x member ((beside.beside x apart).symm.trans missing) text
      ((setting_other backed environment none x apart).symm.trans given)
  · by_cases this : x = option
    · have same : text = value := Option.some.inj (given.symm.trans (this ▸ (setting_own backed environment).trans set))
      rw [this, same]
      exact both.1
    · exact both.2 x member ((beside.beside x this).trans missing) text
        ((setting_other backed environment none x this).trans given)

end Backed

theorem beside_nothing (option : ι) (value : String) :
    Beside option none (some ⟨option, [value], 1⟩) [] [⟨option, [value], 1⟩] := by
  have lookups (x : ι) := Matches.find_snoc [] x ⟨option, [value], 1⟩ rfl
  exact ⟨fun x apart => (lookups x).trans (if_neg apart), rfl, (lookups option).trans (if_pos rfl)⟩

section StandsIn

variable {interface : Interface ι} {option : ι} {name : String} (backed : interface.Backed option name)
  {environment : Environment} {value : String} (set : environment name = some value) {words : List String}
  (unmentioned : ∀ word ∈ words, interface.mentions option word = false)
include backed set unmentioned

theorem variable_to_word (found : Matches ι) (parsed : interface.parse environment words = .ok found) :
    ∃ other, interface.parse (environment.assign name none) (interface.attached (option, value) :: words) = .ok other ∧
      ∀ x, other.find? x = found.find? x := by
  obtain ⟨first, read, environed, checked⟩ := (interface.parse_iff environment words found).mp parsed
  obtain ⟨_, passes⟩ := interface.environment_lookups environment first found interface.options environed
  obtain ⟨second, again, beside⟩ :=
    interface.read_words_apart option words unmentioned _ _ _ _ first (beside_nothing option value) read
  obtain ⟨accepted, others⟩ := (stands_in_passes backed set beside).mp passes
  obtain ⟨other, reached, together, alike⟩ := interface.finish_same environment (environment.assign name none)
    first second found backed.complete (fallback_stands_in backed set beside) others environed checked
  have front := (read_attached_first backed value words second).mpr ⟨accepted, again⟩
  exact ⟨other, (interface.parse_iff _ _ other).mpr ⟨second, front, reached, together⟩, alike⟩

theorem word_to_variable (other : Matches ι)
    (parsed : interface.parse (environment.assign name none) (interface.attached (option, value) :: words) = .ok other) :
    ∃ found, interface.parse environment words = .ok found ∧ ∀ x, found.find? x = other.find? x := by
  obtain ⟨second, front, environed, checked⟩ := (interface.parse_iff _ _ other).mp parsed
  obtain ⟨_, others⟩ := interface.environment_lookups _ second other interface.options environed
  obtain ⟨accepted, read⟩ := (read_attached_first backed value words second).mp front
  obtain ⟨first, again, flipped⟩ := interface.read_words_apart option words unmentioned _ _ _ _ second
    (beside_symm option _ _ _ _ (beside_nothing option value)) read
  have beside := beside_symm option _ _ _ _ flipped
  have passes := (stands_in_passes backed set beside).mpr ⟨accepted, others⟩
  obtain ⟨found, reached, together, alike⟩ := interface.finish_same (environment.assign name none) environment
    second first other backed.complete (fun x => (fallback_stands_in backed set beside x).symm) passes environed checked
  exact ⟨found, (interface.parse_iff _ _ found).mpr ⟨first, again, reached, together⟩, alike⟩

end StandsIn

theorem is_default {α : Type} {interface : Interface ι} {option : ι} {name : String} (backed : interface.Backed option name)
    (parse : Environment → List String → Except Stop α) (ofMatches : Matches ι → Except Stop α)
    (reads : ∀ environment words, parse environment words = (interface.parse environment words).bind ofMatches)
    (lookups : ∀ found other : Matches ι, (∀ x, other.find? x = found.find? x) → ofMatches other = ofMatches found)
    (environment : Environment) (words : List String) : IsDefault interface parse environment words option name := by
  have accepted (environment : Environment) (words : List String) (arguments : α) :
      parse environment words = .ok arguments ↔
        ∃ found, interface.parse environment words = .ok found ∧ ofMatches found = .ok arguments := by
    rw [reads, bind_ok_iff]
  refine ⟨?_, ?_⟩
  · intro arguments parsed mentioned value
    obtain ⟨found, matched, read⟩ := (accepted environment words arguments).mp parsed
    exact (accepted _ words arguments).mpr
      ⟨found, variable_unused backed environment words found mentioned value matched, read⟩
  · intro value set unmentioned arguments
    rw [accepted, accepted]
    refine ⟨?_, ?_⟩
    · rintro ⟨found, matched, read⟩
      obtain ⟨other, again, alike⟩ := variable_to_word backed set unmentioned found matched
      exact ⟨other, again, (lookups found other alike).trans read⟩
    · rintro ⟨other, matched, read⟩
      obtain ⟨found, again, alike⟩ := word_to_variable backed set unmentioned other matched
      exact ⟨found, again, (lookups other found alike).trans read⟩

end Interface
end Devnet.CommandLine
