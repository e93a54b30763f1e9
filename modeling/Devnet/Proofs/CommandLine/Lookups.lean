import Devnet.Proofs.CommandLine.Entries

set_option autoImplicit false

namespace Devnet.CommandLine

def Environment.assign (environment : Environment) (name : String) (value : Option String) : Environment := fun other =>
  if other = name then value else environment other

theorem assign_same (environment : Environment) (name : String) : environment.assign name (environment name) = environment := by
  funext other
  by_cases this : other = name
  · rw [Environment.assign, if_pos this, this]
  · rw [Environment.assign, if_neg this]

theorem bind_ok_iff {α β : Type} (first : Except Stop α) (next : α → Except Stop β) (result : β) :
    first.bind next = .ok result ↔ ∃ middle, first = .ok middle ∧ next middle = .ok result := by
  cases first with
  | error stop => simp [Except.bind]
  | ok middle => simp [Except.bind]

variable {ι : Type} [DecidableEq ι]

namespace Interface

variable (interface : Interface ι)

theorem exclusive_comm (a b : ι) : interface.areExclusive a b = interface.areExclusive b a := Bool.or_comm _ _

section Together

variable (found other : Matches ι)

theorem conflict_free_iff :
    interface.conflict? found = none ↔
      ∀ a b, found.given a = true → found.given b = true → a ≠ b → interface.areExclusive a b = false := by
  rw [conflict?, List.findSome?_eq_none_iff]
  simp only [Option.map_eq_none_iff, List.find?_eq_none]
  refine ⟨fun free a b givenA givenB apart => ?_, fun free entry member other others => ?_⟩
  · obtain ⟨first, foundA⟩ := Option.isSome_iff_exists.mp givenA
    obtain ⟨second, foundB⟩ := Option.isSome_iff_exists.mp givenB
    have optionA := Matches.option_of_find found a first foundA
    have optionB := Matches.option_of_find found b second foundB
    have pair := free first (List.mem_of_find?_eq_some foundA) second (List.mem_of_find?_eq_some foundB)
    rw [optionA, optionB] at pair
    have differs : b ≠ a := fun eq => apart eq.symm
    simpa [differs] using pair
  · intro both
    simp only [Bool.and_eq_true, decide_eq_true_eq] at both
    have pair := free entry.option other.option (Matches.given_of_mem found entry member)
      (Matches.given_of_mem found other others) fun eq => both.1 eq.symm
    exact Bool.false_ne_true (pair.symm.trans both.2)

theorem check_together_iff (after : Matches ι) :
    interface.checkTogether found = .ok after ↔
      after = found ∧ interface.conflict? found = none ∧ interface.requirements.any (isUnmet found) = false := by
  rw [checkTogether]
  cases interface.conflict? found with
  | some pair => simp
  | none =>
      cases interface.requirements.any (isUnmet found) with
      | true => simp
      | false => simp [eq_comm]

theorem requirements_same
    (same : ∀ requirement ∈ interface.requirements, other.find? requirement.option = found.find? requirement.option ∧
      other.find? requirement.other = found.find? requirement.other) :
    interface.requirements.any (isUnmet other) = interface.requirements.any (isUnmet found) := by
  have alike (requirement : Requirement ι) (member : requirement ∈ interface.requirements) :
      isUnmet other requirement = isUnmet found requirement := by
    obtain ⟨option, asked⟩ := same requirement member
    rw [isUnmet, isUnmet, Matches.given, Matches.given, Matches.values?, Matches.values?, option, asked]
  rw [Bool.eq_iff_iff, List.any_eq_true, List.any_eq_true]
  refine ⟨?_, ?_⟩
  · rintro ⟨requirement, member, unmet⟩
    exact ⟨requirement, member, alike requirement member ▸ unmet⟩
  · rintro ⟨requirement, member, unmet⟩
    exact ⟨requirement, member, (alike requirement member).symm ▸ unmet⟩

theorem check_together_same (same : ∀ x, other.find? x = found.find? x)
    (checked : interface.checkTogether found = .ok found) : interface.checkTogether other = .ok other := by
  have given (x : ι) := Matches.given_same found other x (same x)
  have unmet := interface.requirements_same found other fun requirement _ =>
    ⟨same requirement.option, same requirement.other⟩
  obtain ⟨_, free, met⟩ := (interface.check_together_iff found found).mp checked
  refine (interface.check_together_iff other other).mpr ⟨rfl, ?_, unmet ▸ met⟩
  rw [conflict_free_iff] at free ⊢
  intro a b givenA givenB apart
  exact free a b (given a ▸ givenA) (given b ▸ givenB) apart

theorem check_together_apart (option : ι) (same : ∀ x, x ≠ option → other.find? x = found.find? x)
    (unrequired : ∀ requirement ∈ interface.requirements, requirement.option ≠ option ∧ requirement.other ≠ option)
    (peaceful : ∀ x, x ≠ option → found.given x = true → interface.areExclusive option x = false)
    (checked : interface.checkTogether found = .ok found) : interface.checkTogether other = .ok other := by
  have given (x : ι) (apart : x ≠ option) := Matches.given_same found other x (same x apart)
  have unmet := interface.requirements_same found other fun requirement member =>
    ⟨same _ (unrequired requirement member).1, same _ (unrequired requirement member).2⟩
  obtain ⟨_, free, met⟩ := (interface.check_together_iff found found).mp checked
  refine (interface.check_together_iff other other).mpr ⟨rfl, ?_, unmet ▸ met⟩
  rw [conflict_free_iff] at free ⊢
  intro a b givenA givenB apart
  by_cases first : a = option
  · rw [first] at apart ⊢
    exact peaceful b (Ne.symm apart) (given b (Ne.symm apart) ▸ givenB)
  · by_cases second : b = option
    · rw [second, exclusive_comm]
      exact peaceful a first (given a first ▸ givenA)
    · exact free a b (given a first ▸ givenA) (given b second ▸ givenB) apart

end Together

def setting? (interface : Interface ι) (environment : Environment) (option : ι) : Option String :=
  (interface.spec option).variableName.bind environment

def fallback (interface : Interface ι) (environment : Environment) (found : Matches ι) (option : ι) : Option (Match ι) :=
  (found.find? option).or ((interface.setting? environment option).map fun value => ⟨option, [value], 1⟩)

def VariablesPass (interface : Interface ι) (environment : Environment) (found : Matches ι) (options : List ι) : Prop :=
  ∀ option ∈ options, found.find? option = none → ∀ value, interface.setting? environment option = some value →
    interface.checkValues option [value] = .ok ()

section Environments

variable (environment : Environment)

theorem read_environment_skip (found : Matches ι) (option : ι) (rest : List ι)
    (skips : found.given option = true ∨ interface.setting? environment option = none) :
    interface.readEnvironment environment found (option :: rest) = interface.readEnvironment environment found rest := by
  rw [readEnvironment]
  cases set : (interface.spec option).variableName.bind environment with
  | none => rfl
  | some value => exact if_pos (skips.resolve_right fun unset => Option.some_ne_none value (set.symm.trans unset))

theorem read_environment_enter (found : Matches ι) (option : ι) (rest : List ι) (value : String)
    (missing : found.find? option = none) (set : interface.setting? environment option = some value) :
    interface.readEnvironment environment found (option :: rest) =
      (interface.checkValues option [value]).bind fun _ =>
        interface.readEnvironment environment (found ++ [⟨option, [value], 1⟩]) rest := by
  have absent : ¬ found.given option = true := by simp [Matches.given, missing]
  rw [setting?] at set
  rw [readEnvironment]
  simp only [set, if_neg absent]
  cases interface.checkValues option [value] with
  | error stop => rfl
  | ok _ => rfl

theorem environment_cases (found : Matches ι) (option : ι) :
    (found.given option = true ∨ interface.setting? environment option = none) ∨
      found.find? option = none ∧ ∃ value, interface.setting? environment option = some value := by
  cases present : found.find? option with
  | some entry => exact .inl (.inl (by simp [Matches.given, present]))
  | none =>
      cases set : interface.setting? environment option with
      | none => exact .inl (.inr rfl)
      | some value => exact .inr ⟨rfl, value, rfl⟩

theorem fallback_skip (found : Matches ι) (option : ι)
    (skips : found.given option = true ∨ interface.setting? environment option = none) :
    interface.fallback environment found option = found.find? option := by
  rw [fallback]
  rcases skips with given | unset
  · obtain ⟨entry, hit⟩ := Option.isSome_iff_exists.mp given
    rw [hit]
    rfl
  · rw [unset]
    exact Option.or_none

theorem fallback_set (found : Matches ι) (option : ι) (value : String) (missing : found.find? option = none)
    (set : interface.setting? environment option = some value) :
    interface.fallback environment found option = some ⟨option, [value], 1⟩ := by
  rw [fallback, missing, set]
  rfl

theorem fallback_entered (found : Matches ι) (option x : ι) (value : String) (missing : found.find? option = none)
    (set : interface.setting? environment option = some value) :
    interface.fallback environment (found ++ [⟨option, [value], 1⟩]) x = interface.fallback environment found x := by
  by_cases this : x = option
  · rw [this, interface.fallback_set environment found option value missing set, fallback,
      found.find_snoc option ⟨option, [value], 1⟩ missing, if_pos rfl]
    rfl
  · rw [fallback, found.find_snoc x ⟨option, [value], 1⟩ missing, if_neg this, fallback]

theorem environment_lookups (found after : Matches ι) (options : List ι)
    (read : interface.readEnvironment environment found options = .ok after) :
    (∀ x, after.find? x = if x ∈ options then interface.fallback environment found x else found.find? x) ∧
      interface.VariablesPass environment found options := by
  induction options generalizing found with
  | nil =>
      cases read
      exact ⟨fun _ => rfl, fun _ member => (nomatch member)⟩
  | cons option rest ih =>
      rcases interface.environment_cases environment found option with skips | ⟨missing, value, set⟩
      · rw [interface.read_environment_skip environment found option rest skips] at read
        obtain ⟨lookups, passes⟩ := ih found read
        refine ⟨?_, ?_⟩
        · intro x
          rw [lookups]
          by_cases this : x = option
          · rw [this, interface.fallback_skip environment found option skips, if_pos List.mem_cons_self, ite_self]
          · simp only [List.mem_cons, this, false_or]
        · intro x member missing value set
          rcases List.mem_cons.mp member with head | later
          · rw [head] at missing set
            rcases skips with given | unset
            · rw [Matches.given, missing] at given
              cases given
            · cases unset.symm.trans set
          · exact passes x later missing value set
      · rw [interface.read_environment_enter environment found option rest value missing set] at read
        cases checked : interface.checkValues option [value] with
        | error stop =>
            rw [checked] at read
            cases read
        | ok _ =>
            rw [checked] at read
            obtain ⟨lookups, passes⟩ := ih _ read
            have snoc (x : ι) := found.find_snoc x ⟨option, [value], 1⟩ missing
            refine ⟨?_, ?_⟩
            · intro x
              rw [lookups, interface.fallback_entered environment found option x value missing set, snoc]
              by_cases this : x = option
              · rw [this, interface.fallback_set environment found option value missing set, if_pos rfl,
                  if_pos List.mem_cons_self, ite_self]
              · simp only [this, if_false, List.mem_cons, false_or]
            · intro x member absent text given
              rcases List.mem_cons.mp member with head | later
              · rw [head] at given ⊢
                rw [Option.some.inj (given.symm.trans set), checked]
              · by_cases this : x = option
                · rw [this] at given ⊢
                  rw [Option.some.inj (given.symm.trans set), checked]
                · exact passes x later (by rw [snoc, if_neg this, absent]) text given

theorem environment_reached (found : Matches ι) (options : List ι)
    (passes : interface.VariablesPass environment found options) :
    ∃ after, interface.readEnvironment environment found options = .ok after := by
  induction options generalizing found with
  | nil => exact ⟨found, rfl⟩
  | cons option rest ih =>
      rcases interface.environment_cases environment found option with skips | ⟨missing, value, set⟩
      · rw [interface.read_environment_skip environment found option rest skips]
        exact ih found fun x member => passes x (List.mem_cons_of_mem option member)
      · rw [interface.read_environment_enter environment found option rest value missing set,
          passes option List.mem_cons_self missing value set]
        apply ih
        intro x member absent
        rw [Matches.find_snoc found x _ missing] at absent
        by_cases this : x = option
        · rw [if_pos this] at absent
          cases absent
        · rw [if_neg this] at absent
          exact passes x (List.mem_cons_of_mem option member) absent

-- Matches that agree beside an option take the same variables, as long as that of the option does not count for
-- the second ones.
theorem environment_apart (found other after : Matches ι) (option : ι) (options : List ι)
    (same : ∀ x, x ≠ option → other.find? x = found.find? x)
    (unused : other.given option = true ∨ interface.setting? environment option = none)
    (read : interface.readEnvironment environment found options = .ok after) :
    ∃ next, interface.readEnvironment environment other options = .ok next ∧
      (∀ x, x ≠ option → next.find? x = after.find? x) ∧ next.find? option = other.find? option := by
  obtain ⟨lookups, passes⟩ := interface.environment_lookups environment found after options read
  have others : interface.VariablesPass environment other options := by
    intro x member missing text set
    by_cases this : x = option
    · rw [this] at missing set
      rcases unused with given | unset
      · rw [Matches.given, missing] at given
        cases given
      · cases unset.symm.trans set
    · exact passes x member ((same x this).symm.trans missing) text set
  obtain ⟨next, reached⟩ := interface.environment_reached environment other options others
  obtain ⟨again, _⟩ := interface.environment_lookups environment other next options reached
  refine ⟨next, reached, ?_, ?_⟩
  · intro x apart
    rw [again, lookups, fallback, fallback, same x apart]
  · rw [again, interface.fallback_skip environment other option unused, ite_self]

theorem environment_same (other : Environment) (found : Matches ι) (options : List ι)
    (agree : ∀ x, found.find? x = none → interface.setting? other x = interface.setting? environment x) :
    interface.readEnvironment other found options = interface.readEnvironment environment found options := by
  induction options generalizing found with
  | nil => rfl
  | cons option rest ih =>
      rcases interface.environment_cases environment found option with skips | ⟨missing, value, set⟩
      · have both : found.given option = true ∨ interface.setting? other option = none := by
          by_cases given : found.given option = true
          · exact .inl given
          · have absent : found.find? option = none := Option.not_isSome_iff_eq_none.mp given
            exact .inr ((agree option absent).trans (skips.resolve_left given))
        rw [interface.read_environment_skip environment found option rest skips,
          interface.read_environment_skip other found option rest both, ih found agree]
      · have again := (agree option missing).trans set
        rw [interface.read_environment_enter environment found option rest value missing set,
          interface.read_environment_enter other found option rest value missing again, ih]
        intro x absent
        rw [Matches.find_snoc found x _ missing] at absent
        by_cases this : x = option
        · rw [if_pos this] at absent
          cases absent
        · rw [if_neg this] at absent
          exact agree x absent

theorem environment_appends (found after : Matches ι) (options : List ι)
    (read : interface.readEnvironment environment found options = .ok after) :
    ∃ more : Matches ι, after = found ++ more := by
  induction options generalizing found with
  | nil =>
      cases read
      exact ⟨[], (List.append_nil _).symm⟩
  | cons option rest ih =>
      rcases interface.environment_cases environment found option with skips | ⟨missing, value, set⟩
      · rw [interface.read_environment_skip environment found option rest skips] at read
        exact ih found read
      · rw [interface.read_environment_enter environment found option rest value missing set] at read
        cases checked : interface.checkValues option [value] with
        | error stop =>
            rw [checked] at read
            cases read
        | ok _ =>
            rw [checked] at read
            obtain ⟨more, whole⟩ := ih _ read
            exact ⟨⟨option, [value], 1⟩ :: more, by rw [whole, List.append_assoc, List.singleton_append]⟩

theorem parse_iff (words : List String) (found : Matches ι) :
    interface.parse environment words = .ok found ↔
      ∃ first, interface.readWords [] none words = .ok first ∧
        interface.readEnvironment environment first interface.options = .ok found ∧
        interface.checkTogether found = .ok found := by
  have steps : interface.parse environment words =
      (interface.readWords [] none words).bind fun first =>
        (interface.readEnvironment environment first interface.options).bind interface.checkTogether := rfl
  simp only [steps, bind_ok_iff]
  refine ⟨?_, ?_⟩
  · rintro ⟨first, read, second, environed, checked⟩
    have whole := ((interface.check_together_iff second found).mp checked).1
    rw [← whole] at environed checked
    exact ⟨first, read, environed, checked⟩
  · rintro ⟨first, read, environed, checked⟩
    exact ⟨first, read, found, environed, checked⟩

end Environments

end Interface
end Devnet.CommandLine
