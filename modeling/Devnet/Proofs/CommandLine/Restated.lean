import Devnet.Proofs.CommandLine.Beside
import Devnet.Proofs.CommandLine.Lookups

set_option autoImplicit false

namespace Devnet.CommandLine

variable {ι : Type} [DecidableEq ι]

namespace Interface

variable (interface : Interface ι)

structure Solitary (option : ι) : Prop where
  attachable : interface.Attachable option
  spelled : (interface.spec option).long ≠ ""
  single : (interface.spec option).arity = .one
  unlettered : (interface.spec option).short = none
  compatible : ∀ other, interface.areExclusive option other = false
  unrequired : ∀ requirement ∈ interface.requirements, requirement.option ≠ option ∧ requirement.other ≠ option

-- Matches that are the same beside one option. `was` tells whether the first ones hold it.
structure Restated (option : ι) (value : String) (was : Bool) (found other : Matches ι) : Prop where
  beside : ∀ x, x ≠ option → other.find? x = found.find? x
  status : found.given option = was
  holds : other.find? option = some ⟨option, [value], 1⟩

section Lookups

variable {option : ι} {value : String} {was : Bool} {found other : Matches ι}
  (same : Restated option value was found other)
include same

theorem given_restated (x : ι) (apart : x ≠ option) : other.given x = found.given x :=
  Matches.given_same found other x (same.beside x apart)

theorem value_restated (x : ι) (apart : x ≠ option) : other.value? x = found.value? x :=
  Matches.value_same found other x (same.beside x apart)

theorem values_restated (x : ι) (apart : x ≠ option) : other.values? x = found.values? x := by
  rw [Matches.values?, same.beside x apart, Matches.values?]

theorem uses_restated (x : ι) (apart : x ≠ option) : other.uses x = found.uses x := by
  rw [Matches.uses, same.beside x apart, Matches.uses]

theorem value_option_restated : other.value? option = some value := by
  rw [Matches.value?, same.holds]
  rfl

theorem given_option_restated : other.given option = true := by
  rw [Matches.given, same.holds]
  rfl

end Lookups

def named? (word : String) : Option ι :=
  match Word.ofText word with
  | .long name _ => interface.long? name
  | _ => none

section Beside

variable {interface} {option : ι} {value : String} {was : Bool} {found other : Matches ι}

theorem beside_of_restated (same : Restated option value was found other) :
    Beside option (found.find? option) (some ⟨option, [value], 1⟩) found other :=
  ⟨same.beside, rfl, same.holds⟩

theorem restated_of_beside (old : Option (Match ι)) (present : old.isSome = was)
    (same : Beside option old (some ⟨option, [value], 1⟩) found other) : Restated option value was found other := by
  refine ⟨same.beside, ?_, same.second⟩
  rw [Matches.given, same.first, present]

omit [DecidableEq ι] in
theorem single_refuses (old : Option (Match ι)) (single : (interface.spec option).arity = .one)
    (present : old.isSome = true) : interface.Refuses option old := by
  intro values new written
  obtain ⟨_, absent, _⟩ := (interface.entry_single_iff old option values new single).mp written
  rw [absent] at present
  cases present

theorem mentions_unlettered (word : String) (unlettered : (interface.spec option).short = none) :
    interface.mentions option word = true ↔ interface.named? word = some option := by
  rw [mentions, named?]
  cases Word.ofText word with
  | terminator => simp
  | plain text => simp
  | long name given => simp
  | letters chars =>
      simp only [List.any_eq_true, decide_eq_true_eq, reduceCtorEq, iff_false, not_exists, not_and]
      intro c _ lettered
      have short := List.find?_some lettered
      rw [unlettered] at short
      cases short

end Beside

variable {interface} in
theorem read_environment_restated {option : ι} {value : String} {was : Bool} {found other after : Matches ι}
    (environment : Environment) (options : List ι) (same : Restated option value was found other)
    (read : interface.readEnvironment environment found options = .ok after) :
    ∃ next now, interface.readEnvironment environment other options = .ok next ∧
      Restated option value now after next := by
  obtain ⟨next, reached, beside, holds⟩ := interface.environment_apart environment found other after option options
    same.beside (.inl (given_option_restated same)) read
  exact ⟨next, after.given option, reached, beside, rfl, holds.trans same.holds⟩

section Read

variable {interface} {option : ι} (solitary : interface.Solitary option) {value : String} {was : Bool}
  {found other after : Matches ι}
include solitary

theorem read_words_restated (words : List String) (same : Restated option value was found other)
    (pending : Option (Pending ι)) (allowed : ∀ current ∈ pending, current.option = option → was = true)
    (named : ∀ word ∈ words, interface.named? word = some option → was = true)
    (read : interface.readWords found pending words = .ok after) :
    ∃ next, interface.readWords other pending words = .ok next ∧ Restated option value was after next := by
  have vain : was = true → interface.Refuses option (found.find? option) := fun held =>
    single_refuses _ solitary.single (same.status.trans held)
  obtain ⟨next, reached, beside⟩ := read_words_beside words (beside_of_restated same) pending
    (fun current member this => vain (allowed current member this))
    (fun word member mentioned =>
      vain (named word member ((mentions_unlettered word solitary.unlettered).mp mentioned))) read
  exact ⟨next, reached, restated_of_beside _ same.status beside⟩

theorem check_together_restated (same : Restated option value was found other)
    (checked : interface.checkTogether found = .ok after) :
    after = found ∧ interface.checkTogether other = .ok other := by
  have whole := ((interface.check_together_iff found after).mp checked).1
  exact ⟨whole, interface.check_together_apart found other option same.beside solitary.unrequired
    (fun x _ _ => solitary.compatible x) (whole ▸ checked)⟩

end Read

end Interface
end Devnet.CommandLine
