import Devnet.CommandLine.Parser
import Mathlib.Data.List.Basic

set_option autoImplicit false

namespace Devnet.CommandLine

variable {ι : Type} [DecidableEq ι]

namespace Matches

theorem find_map_values (found : Matches ι) (option other : ι) (values : List String) :
    Matches.find? (found.map fun entry =>
        if entry.option = option then { entry with values := entry.values ++ values } else entry) other =
      (found.find? other).map fun entry =>
        if entry.option = option then { entry with values := entry.values ++ values } else entry := by
  induction found with
  | nil => rfl
  | cons entry rest ih =>
      simp only [Matches.find?, List.map_cons, List.find?_cons] at ih ⊢
      by_cases same : entry.option = option
      · rw [if_pos same]
        by_cases hit : entry.option = other <;> simp [hit, ← ih]
        simp [← same, hit]
      · rw [if_neg same]
        by_cases hit : entry.option = other <;> simp [hit, ← ih]
        simp [← hit, same]

theorem option_of_find (found : Matches ι) (option : ι) (entry : Match ι)
    (hit : found.find? option = some entry) : entry.option = option := by
  simpa using List.find?_some hit

section Lookups

variable (found other : Matches ι) (option : ι) (same : other.find? option = found.find? option)
include same

theorem given_same : other.given option = found.given option := by
  rw [given, same, given]

theorem value_same : other.value? option = found.value? option := by
  rw [value?, same, value?]

end Lookups

theorem values_of_append (found : Matches ι) (option other : ι) (values : List String) :
    (found.append option values).values? other =
      if other = option then some ((found.values? option).getD [] ++ values) else found.values? other := by
  by_cases present : found.given option = true
  · rw [append, if_pos present, values?, find_map_values]
    obtain ⟨entry, hit⟩ := Option.isSome_iff_exists.mp present
    by_cases same : other = option
    · subst other
      simp [values?, hit, option_of_find found option entry hit]
    · rw [if_neg same, values?]
      cases missing : found.find? other with
      | none => rfl
      | some old => simp [option_of_find found other old missing, same]
  · rw [append, if_neg present]
    have absent : found.find? option = none := by simpa [given] using present
    by_cases same : other = option
    · subst other
      simp only [find?] at absent
      simp [values?, find?, List.find?_append, absent]
    · have differs : ¬ option = other := fun eq => same eq.symm
      simp [values?, find?, List.find?_append, same, differs]

theorem given_iff_values (found : Matches ι) (option : ι) :
    found.given option = (found.values? option).isSome := by
  simp [given, values?]

theorem value_of_values (found : Matches ι) (option : ι) :
    found.value? option = (found.values? option).bind List.head? := by
  simp only [value?, values?, Option.bind_map]
  rfl

theorem given_of_mem (found : Matches ι) (entry : Match ι) (member : entry ∈ found) :
    found.given entry.option = true := by
  simp only [given, find?, List.find?_isSome]
  exact ⟨entry, member, by simp⟩

def valuesIn (assignments : List (ι × String)) (option : ι) : List String :=
  (assignments.filter fun assignment => assignment.1 = option).map Prod.snd

def appendAll (found : Matches ι) : List (ι × String) → Matches ι
  | [] => found
  | assignment :: rest => appendAll (found.append assignment.1 [assignment.2]) rest

theorem values_in_assigned (option : ι) (value : String) (rest : List (ι × String)) :
    valuesIn ((option, value) :: rest) option = value :: valuesIn rest option := by
  simp [valuesIn]

theorem values_in_other (assignment : ι × String) (option : ι) (rest : List (ι × String))
    (different : assignment.1 ≠ option) : valuesIn (assignment :: rest) option = valuesIn rest option := by
  rw [valuesIn, List.filter_cons_of_neg (by simpa using different), valuesIn]

theorem values_of_append_all (found : Matches ι) (assignments : List (ι × String)) (option : ι) :
    (found.appendAll assignments).values? option =
      if valuesIn assignments option = [] then found.values? option
      else some ((found.values? option).getD [] ++ valuesIn assignments option) := by
  induction assignments generalizing found with
  | nil => rfl
  | cons assignment rest ih =>
      obtain ⟨assigned, value⟩ := assignment
      rw [appendAll, ih, values_of_append]
      by_cases same : option = assigned
      · subst option
        rw [if_pos rfl, values_in_assigned, if_neg (List.cons_ne_nil _ _)]
        by_cases last : valuesIn rest assigned = []
        · rw [if_pos last, last]
        · rw [if_neg last, Option.getD_some, List.append_assoc, List.singleton_append]
      · rw [if_neg same, values_in_other _ _ _ fun eq => same eq.symm]

theorem values_of_assigned (assignments : List (ι × String)) (option : ι) :
    (appendAll [] assignments).values? option =
      if valuesIn assignments option = [] then none else some (valuesIn assignments option) := by
  rw [values_of_append_all]
  rfl

theorem assigned_of_given (assignments : List (ι × String)) (option : ι)
    (present : (appendAll [] assignments).given option = true) :
    ∃ assignment ∈ assignments, assignment.1 = option := by
  rw [given_iff_values, values_of_assigned] at present
  by_cases unassigned : valuesIn assignments option = []
  · rw [if_pos unassigned] at present
    cases present
  · obtain ⟨value, member⟩ := List.exists_mem_of_ne_nil _ unassigned
    obtain ⟨assignment, kept, _⟩ := List.mem_map.mp member
    have pair := List.mem_filter.mp kept
    exact ⟨assignment, pair.1, by simpa using pair.2⟩

end Matches

namespace Interface

theorem no_conflict (interface : Interface ι) (found : Matches ι)
    (compatible : ∀ a b, found.given a = true → found.given b = true → interface.areExclusive a b = false) :
    interface.conflict? found = none := by
  rw [conflict?, List.findSome?_eq_none_iff]
  intro entry member
  simp only [Option.map_eq_none_iff, List.find?_eq_none]
  intro other otherMember excluded
  have free := compatible entry.option other.option (Matches.given_of_mem found entry member)
    (Matches.given_of_mem found other otherMember)
  simp [free] at excluded

theorem environment_unused (interface : Interface ι) (environment : Environment) (found : Matches ι)
    (options : List ι)
    (unset : ∀ option ∈ options, (interface.spec option).variableName.bind environment = none) :
    interface.readEnvironment environment found options = .ok found := by
  induction options with
  | nil => rfl
  | cons option rest ih =>
      rw [readEnvironment, unset option List.mem_cons_self]
      exact ih fun other member => unset other (List.mem_cons_of_mem option member)

end Interface
end Devnet.CommandLine
