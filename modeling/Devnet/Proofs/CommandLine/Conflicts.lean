import Devnet.Proofs.CommandLine.Variables

set_option autoImplicit false

namespace Devnet.CommandLine

variable {ι : Type} [DecidableEq ι]

namespace Interface

-- The entry of an option that excludes a later one is the first at fault, when nothing else is.
theorem conflict_later (interface : Interface ι) (first more : Matches ι) (a b : ι) (early : first.given a = true)
    (late : Matches.given (first ++ more) b = true) (exclusive : interface.areExclusive a b = true) (apart : b ≠ a)
    (only : ∀ x y, first.given x = true → Matches.given (first ++ more) y = true → y ≠ x →
      interface.areExclusive x y = true → x = a ∧ y = b) :
    interface.conflict? (first ++ more) = some (a, b) := by
  obtain ⟨entry, hit⟩ := Option.isSome_iff_exists.mp early
  obtain ⟨other, found⟩ := Option.isSome_iff_exists.mp late
  have named := Matches.option_of_find first a entry hit
  have opposed := Matches.option_of_find (first ++ more) b other found
  rw [conflict?, List.findSome?_append, Option.or_eq_some_iff]
  left
  cases fault : first.findSome? _ with
  | some pair =>
      obtain ⟨culprit, member, blamed⟩ := List.exists_of_findSome?_eq_some fault
      obtain ⟨partner, opposing, same⟩ := Option.map_eq_some_iff.mp blamed
      have both := List.find?_some opposing
      simp only [Bool.and_eq_true, decide_eq_true_eq] at both
      obtain ⟨left, right⟩ := only culprit.option partner.option (Matches.given_of_mem first culprit member)
        (Matches.given_of_mem _ partner (List.mem_of_find?_eq_some opposing)) both.1 both.2
      rw [← same, left, right]
  | none =>
      have none := List.findSome?_eq_none_iff.mp fault entry (List.mem_of_find?_eq_some hit)
      rw [Option.map_eq_none_iff, List.find?_eq_none] at none
      have peaceful := none other (List.mem_of_find?_eq_some found)
      rw [named, opposed] at peaceful
      simp [apart, exclusive] at peaceful

section Backed

variable {interface : Interface ι} {option : ι} {name : String} (backed : interface.Backed option name)
include backed

theorem variable_enters (environment : Environment) (first found : Matches ι) (value : String)
    (missing : first.find? option = none) (passes : interface.checkValues option [value] = .ok ())
    (environed : interface.readEnvironment (environment.assign name none) first interface.options = .ok found) :
    ∃ more : Matches ι,
      interface.readEnvironment (environment.assign name (some value)) first interface.options = .ok (first ++ more) ∧
      Matches.given (first ++ more) option = true ∧
      ∀ x, x ≠ option → Matches.given (first ++ more) x = found.given x := by
  obtain ⟨lookups, settings⟩ := interface.environment_lookups _ first found interface.options environed
  have alike (x : ι) (beside : x ≠ option) : interface.setting? (environment.assign name (some value)) x =
      interface.setting? (environment.assign name none) x := by
    rw [setting_other backed environment (some value) x beside, setting_other backed environment none x beside]
  have set : interface.setting? (environment.assign name (some value)) option = some value := by
    rw [setting_own backed, Environment.assign, if_pos rfl]
  have all : interface.VariablesPass (environment.assign name (some value)) first interface.options := by
    intro x member absent text stands
    by_cases this : x = option
    · rw [this, set] at stands
      rw [this, ← Option.some.inj stands]
      exact passes
    · exact settings x member absent text ((alike x this).symm.trans stands)
  obtain ⟨after, reached⟩ := interface.environment_reached _ first interface.options all
  obtain ⟨again, _⟩ := interface.environment_lookups _ first after interface.options reached
  obtain ⟨more, whole⟩ := interface.environment_appends _ first after interface.options reached
  rw [whole] at reached again
  refine ⟨more, reached, ?_, ?_⟩
  · rw [Matches.given, again, if_pos (backed.complete option), interface.fallback_set _ first option value missing set]
    rfl
  · intro x beside
    rw [Matches.given, Matches.given, again, lookups, fallback, fallback, alike x beside]

theorem variable_conflicts (environment : Environment) (words : List String) (found : Matches ι) (other : ι) (value : String)
    (mentioned : ∃ word ∈ words, interface.mentions other word = true)
    (unmentioned : ∀ word ∈ words, interface.mentions option word = false)
    (parsed : interface.parse (environment.assign name none) words = .ok found)
    (passes : interface.checkValues option [value] = .ok ())
    (exclusive : interface.areExclusive other option = true) (apart : option ≠ other)
    (only : ∀ x, interface.areExclusive x option = true → x = other) :
    interface.parse (environment.assign name (some value)) words =
      .error (.rejected (.conflict (interface.display other) (interface.display option))) := by
  obtain ⟨first, read, environed, checked⟩ := (interface.parse_iff _ words found).mp parsed
  have missing := interface.read_words_unmentioned option words unmentioned first read
  have given := (interface.given_iff_mentioned other first words read).mpr mentioned
  have free := (interface.conflict_free_iff found).mp ((interface.check_together_iff found found).mp checked).2.1
  obtain ⟨lookups, _⟩ := interface.environment_lookups _ first found interface.options environed
  obtain ⟨more, reached, held, beside⟩ := variable_enters backed environment first found value missing passes environed
  have fault : interface.conflict? (first ++ more) = some (other, option) := by
    apply interface.conflict_later first more other option given held exclusive apart
    intro x y early late unlike clash
    have kept : found.given x = true := by
      rw [Matches.given, lookups, if_pos (backed.complete x), interface.fallback_skip _ first x (.inl early)]
      exact early
    by_cases this : y = option
    · exact ⟨only x (this ▸ clash), this⟩
    · have peace := free x y kept (beside y this ▸ late) fun eq => unlike eq.symm
      cases clash.symm.trans peace
  rw [parse, read]
  simp only [bind, Except.bind, reached, checkTogether, fault]

end Backed

end Interface
end Devnet.CommandLine
