import Devnet.Proofs.CommandLine.Occurrences

set_option autoImplicit false

namespace Devnet.CommandLine

variable {ι : Type} [DecidableEq ι]

namespace Interface

-- An option that counts. The words alone give it and its rival, which is the only option that it may exclude.
structure Counted (interface : Interface ι) (option rival : ι) : Prop where
  counts : (interface.spec option).arity = .count
  unset : (interface.spec option).variableName = none
  rivalUnset : (interface.spec rival).variableName = none
  rivalry : ∀ other, interface.areExclusive option other = true → other = rival
  unrequired : ∀ requirement ∈ interface.requirements, requirement.option ≠ option ∧ requirement.other ≠ option

variable {interface : Interface ι}

omit [DecidableEq ι] in
theorem entries_counted (option : ι) (counts : (interface.spec option).arity = .count) (old : Option (Match ι))
    (listed : List (List String)) :
    interface.entries option old listed =
      .ok (if listed = [] then old
        else some ⟨option, [], min countLimit (old.elim 0 Match.uses + listed.length)⟩) := by
  induction listed generalizing old with
  | nil => rfl
  | cons values rest ih =>
      have first : interface.entry old option values =
          .ok ⟨option, [], min countLimit (old.elim 0 Match.uses + 1)⟩ := by
        rw [entry, counts]
      rw [entries, first, Except.bind, ih, if_neg (List.cons_ne_nil values rest), List.length_cons, Option.elim_some]
      by_cases last : rest = []
      · rw [if_pos last, last, List.length_nil]
      · have total : min countLimit (min countLimit (old.elim 0 Match.uses + 1) + rest.length) =
            min countLimit (old.elim 0 Match.uses + (rest.length + 1)) := by omega
        rw [if_neg last, total]

omit [DecidableEq ι] in
theorem setting_none (environment : Environment) (option : ι) (unset : (interface.spec option).variableName = none) :
    interface.setting? environment option = none := by
  rw [setting?, unset, Option.bind_none]

section Lines

variable {option rival : ι} (counted : interface.Counted option rival) (spellable : interface.Spellable)
  (complete : ∀ x, x ∈ interface.options) {environment : Environment} {line : List (WordGroup ι)}
  {words : List String} {found : Matches ι} (spells : interface.Spells line words)
  (parsed : interface.parse environment words = .ok found)
include spellable complete spells parsed

theorem found_unused (alone : ι) (unset : (interface.spec alone).variableName = none)
    (absent : interface.occurrences line alone = []) : found.find? alone = none := by
  obtain ⟨first, each, stands, _⟩ :=
    interface.parsed_of_line spellable line words spells environment found complete parsed
  have entered := each alone
  rw [absent] at entered
  rw [stands, interface.fallback_skip environment first alone (.inr (setting_none environment alone unset))]
  exact (Except.ok.inj entered).symm

include counted

theorem found_counted : found.uses option = min countLimit (interface.occurrences line option).length := by
  obtain ⟨first, each, stands, _⟩ :=
    interface.parsed_of_line spellable line words spells environment found complete parsed
  have entered := each option
  rw [entries_counted option counted.counts] at entered
  rw [Matches.uses, stands,
    interface.fallback_skip environment first option (.inr (setting_none environment option counted.unset)),
    ← Except.ok.inj entered]
  by_cases absent : interface.occurrences line option = []
  · rw [if_pos absent, absent, List.length_nil, Nat.min_zero]
  · rw [if_neg absent, Option.elim_none, Nat.zero_add]

theorem parse_recounted (other : List (WordGroup ι)) (otherWords : List String)
    (others : interface.Spells other otherWords)
    (same : ∀ x, x ≠ option → interface.occurrences other x = interface.occurrences line x)
    (unrivalled : interface.occurrences line rival = []) :
    ∃ again, interface.parse environment otherWords = .ok again ∧ ∀ x, x ≠ option → again.find? x = found.find? x := by
  obtain ⟨first, read, environed, checked⟩ := (interface.parse_iff environment words found).mp parsed
  have entered := (interface.read_line_iff spellable line words spells first).mp read
  have made := interface.entries_of_entered [] (line.flatMap interface.uses) first
  obtain ⟨entry, counting⟩ : ∃ entry, interface.entries option none (interface.occurrences other option) = .ok entry :=
    ⟨_, entries_counted option counted.counts none _⟩
  have each (x : ι) : interface.entries x none (interface.occurrences other x) =
      .ok (if x = option then entry else first.find? x) := by
    by_cases this : x = option
    · rw [if_pos this, this, counting]
    · rw [if_neg this, same x this]
      exact made x entered
  obtain ⟨second, reached, lookups⟩ := interface.entered_of_entries [] _ _ each
  have again := (interface.read_line_iff spellable other otherWords others second).mpr reached
  have beside (x : ι) (apart : x ≠ option) : second.find? x = first.find? x := by rw [lookups, if_neg apart]
  obtain ⟨after, filled, alike, _⟩ := interface.environment_apart environment first second found option
    interface.options beside (.inr (setting_none environment option counted.unset)) environed
  -- The rival is the only option that could be in the way.
  have peaceful (x : ι) (_ : x ≠ option) (present : found.given x = true) : interface.areExclusive option x = false := by
    rw [← Bool.not_eq_true]
    intro exclusive
    have absent := found_unused spellable complete spells parsed rival counted.rivalUnset unrivalled
    rw [counted.rivalry x exclusive, Matches.given, absent] at present
    cases present
  have together := interface.check_together_apart found after option alike counted.unrequired peaceful checked
  exact ⟨after, (interface.parse_iff environment otherWords after).mpr ⟨second, again, filled, together⟩, alike⟩

end Lines

end Interface
end Devnet.CommandLine
