import Devnet.Proofs.CommandLine.Groups
import Devnet.Proofs.CommandLine.Variables
import Mathlib.Data.List.Perm.Basic

set_option autoImplicit false

namespace Devnet.CommandLine

variable {ι : Type} [DecidableEq ι]

def valuesOf (uses : List (ι × List String)) (option : ι) : List (List String) :=
  (uses.filter fun use => use.1 = option).map Prod.snd

namespace Interface

variable (interface : Interface ι)

def occurrences (line : List (WordGroup ι)) (option : ι) : List (List String) :=
  valuesOf (line.flatMap interface.uses) option

def entries (interface : Interface ι) (option : ι) (old : Option (Match ι)) :
    List (List String) → Except Stop (Option (Match ι))
  | [] => .ok old
  | values :: rest => (interface.entry old option values).bind fun new => entries interface option (some new) rest

section Entered

variable (found : Matches ι) (uses : List (ι × List String))

theorem entries_of_entered (after : Matches ι) (option : ι) (entered : interface.enterAll found uses = .ok after) :
    interface.entries option (found.find? option) (valuesOf uses option) = .ok (after.find? option) := by
  induction uses generalizing found with
  | nil =>
      cases entered
      rfl
  | cons use rest ih =>
      obtain ⟨next, first, later⟩ := (bind_ok_iff _ _ after).mp entered
      obtain ⟨new, made, lookups⟩ := interface.enter_ok found next use.1 use.2 first
      have behind := ih next later
      by_cases this : use.1 = option
      · have front : valuesOf (use :: rest) option = use.2 :: valuesOf rest option := by simp [valuesOf, this]
        rw [lookups, if_pos this.symm] at behind
        rw [this] at made
        rw [front, entries, made]
        exact behind
      · have front : valuesOf (use :: rest) option = valuesOf rest option := by simp [valuesOf, this]
        rw [lookups, if_neg fun same => this same.symm] at behind
        rw [front, behind]

theorem entered_of_entries (entry : ι → Option (Match ι))
    (each : ∀ option, interface.entries option (found.find? option) (valuesOf uses option) = .ok (entry option)) :
    ∃ after, interface.enterAll found uses = .ok after ∧ ∀ option, after.find? option = entry option := by
  induction uses generalizing found with
  | nil => exact ⟨found, rfl, fun option => Except.ok.inj (each option)⟩
  | cons use rest ih =>
      have own := each use.1
      have front : valuesOf (use :: rest) use.1 = use.2 :: valuesOf rest use.1 := by simp [valuesOf]
      rw [front, entries, bind_ok_iff] at own
      obtain ⟨new, made, later⟩ := own
      obtain ⟨next, first, lookups⟩ := interface.enter_of_entry found use.1 use.2 new made
      have behind (option : ι) :
          interface.entries option (next.find? option) (valuesOf rest option) = .ok (entry option) := by
        rw [lookups]
        by_cases this : option = use.1
        · rw [if_pos this, this]
          exact later
        · have same : valuesOf (use :: rest) option = valuesOf rest option := by simp [valuesOf, Ne.symm this]
          rw [if_neg this, ← same]
          exact each option
      obtain ⟨after, entered, found⟩ := ih next behind
      exact ⟨after, (bind_ok_iff _ _ after).mpr ⟨next, first, entered⟩, found⟩

end Entered

section Entries

variable (option : ι)

omit [DecidableEq ι] in
theorem entries_single (single : (interface.spec option).arity = .one) (listed : List (List String))
    (entry : Option (Match ι)) (made : interface.entries option none listed = .ok entry) :
    listed = [] ∧ entry = none ∨
      ∃ values, values ≠ [] ∧ interface.checkValues option values = .ok () ∧ listed = [values] ∧
        entry = some ⟨option, values, 1⟩ := by
  cases listed with
  | nil => exact .inl ⟨rfl, (Except.ok.inj made).symm⟩
  | cons values rest =>
      rw [entries, bind_ok_iff] at made
      obtain ⟨new, first, later⟩ := made
      obtain ⟨filled, _, checked, written⟩ := (interface.entry_single_iff none option values new single).mp first
      cases rest with
      | nil =>
          rw [written] at later
          exact .inr ⟨values, filled, checked, rfl, (Except.ok.inj later).symm⟩
      | cons more others =>
          rw [entries, bind_ok_iff] at later
          obtain ⟨_, again, _⟩ := later
          exact absurd again (single_refuses (some new) single rfl more _)

omit [DecidableEq ι] in
theorem entries_many (many : (interface.spec option).arity = .many) (old : Option (Match ι)) (listed : List (List String))
    (entry : Option (Match ι)) (made : interface.entries option old listed = .ok entry) :
    entry.map Match.values =
      if listed = [] then old.map Match.values else some (old.elim [] Match.values ++ listed.flatten) := by
  induction listed generalizing old with
  | nil => rw [if_pos rfl, Except.ok.inj made]
  | cons values rest ih =>
      rw [entries, bind_ok_iff] at made
      obtain ⟨new, first, later⟩ := made
      have grown : new.values = old.elim [] Match.values ++ values := by
        rw [((interface.entry_many_iff old option values new many).mp first).2]
        cases old with
        | none => rfl
        | some before => rfl
      rw [ih (some new) later, if_neg (List.cons_ne_nil values rest), Option.map_some, Option.elim_some, grown]
      by_cases last : rest = []
      · simp [last]
      · rw [if_neg last, List.flatten_cons, List.append_assoc]

end Entries

section Lines

variable (line other : List (WordGroup ι)) (formed : ∀ group ∈ line, interface.Forms group)

theorem mem_occurrences (option : ι) (values : List String) (listed : values ∈ interface.occurrences line option) :
    ∃ group ∈ line, (option, values) ∈ interface.uses group := by
  obtain ⟨use, kept, same⟩ := List.mem_map.mp listed
  obtain ⟨member, this⟩ := List.mem_filter.mp kept
  obtain ⟨group, grouped, used⟩ := List.mem_flatMap.mp member
  rw [← of_decide_eq_true this, ← same]
  exact ⟨group, grouped, used⟩

include formed

theorem occurrence_admitted (option : ι) (values : List String) (listed : values ∈ interface.occurrences line option) :
    values = [] ∨ (interface.spec option).arity.admits values.length = true := by
  obtain ⟨group, member, used⟩ := interface.mem_occurrences line option values listed
  cases formed group member with
  | named x given admitted _ =>
      obtain ⟨rfl, rfl⟩ := Prod.mk.inj (List.mem_singleton.mp used)
      exact .inr admitted
  | attached x value takes =>
      obtain ⟨rfl, rfl⟩ := Prod.mk.inj (List.mem_singleton.mp used)
      refine .inr ?_
      rcases arity_of_taking _ takes with one | many
      · rw [one]
        rfl
      · rw [many]
        rfl
  | letters c more known =>
      obtain ⟨d, _, same⟩ := List.mem_filterMap.mp used
      obtain ⟨x, _, pair⟩ := Option.map_eq_some_iff.mp same
      exact .inl (Prod.mk.inj pair).2.symm

theorem occurs_once (option : ι) (entry : Option (Match ι)) (single : (interface.spec option).arity = .one)
    (made : interface.entries option none (interface.occurrences line option) = .ok entry) :
    interface.occurrences line option = [] ∧ entry = none ∨
      ∃ value, interface.checkValues option [value] = .ok () ∧ interface.occurrences line option = [[value]] ∧
        entry = some ⟨option, [value], 1⟩ := by
  rcases interface.entries_single option single _ entry made with absent | ⟨values, filled, passes, listed, entered⟩
  · exact .inl absent
  · have member : values ∈ interface.occurrences line option := listed ▸ List.mem_singleton_self values
    have admitted := (interface.occurrence_admitted line formed option values member).resolve_left filled
    rw [single, Arity.admits, decide_eq_true_iff] at admitted
    obtain ⟨value, same⟩ := List.length_eq_one_iff.mp admitted
    rw [same] at passes listed entered
    exact .inr ⟨value, passes, listed, entered⟩

theorem flag_occurrences (option : ι) (alone : ¬ (interface.spec option).takesValue = true) :
    ∀ values ∈ interface.occurrences line option, values = [] := by
  intro values listed
  rcases interface.occurrence_admitted line formed option values listed with empty | admitted
  · exact empty
  · rw [flag_admits _ _ alone, decide_eq_true_iff] at admitted
    exact List.length_eq_zero_iff.mp admitted

end Lines

section Parsed

variable (spellable : interface.Spellable) (line : List (WordGroup ι)) (words : List String)
  (spells : interface.Spells line words)

theorem grouped_of_parse (environment : Environment) (found : Matches ι)
    (parsed : interface.parse environment words = .ok found) : ∃ line, interface.Spells line words := by
  obtain ⟨first, read, _, _⟩ := (interface.parse_iff environment words found).mp parsed
  exact interface.grouped_of_read words [] first none (fun _ member => (nomatch member)) read

include spellable spells

theorem read_line_iff (after : Matches ι) :
    interface.readWords [] none words = .ok after ↔ interface.enterAll [] (line.flatMap interface.uses) = .ok after := by
  have tailed : ∃ tail, words = line.flatMap interface.words ++ tail ∧ (tail = [] ∨ tail = ["--"]) := by
    rcases spells.words with whole | ended
    · exact ⟨[], by rw [List.append_nil, whole], .inl rfl⟩
    · exact ⟨["--"], ended, .inr rfl⟩
  have nothing : interface.settle [] none = .ok [] := rfl
  obtain ⟨tail, split, last⟩ := tailed
  rw [split, interface.read_groups_iff spellable [] after none line spells.formed tail last]
  simp only [nothing, Except.ok.injEq, exists_eq_left']

theorem parsed_of_line (environment : Environment) (found : Matches ι) (complete : ∀ x, x ∈ interface.options)
    (parsed : interface.parse environment words = .ok found) :
    ∃ first : Matches ι,
      (∀ option, interface.entries option none (interface.occurrences line option) = .ok (first.find? option)) ∧
      (∀ option, found.find? option = interface.fallback environment first option) ∧
      interface.checkTogether found = .ok found := by
  obtain ⟨first, read, environed, checked⟩ := (interface.parse_iff environment words found).mp parsed
  have entered := (interface.read_line_iff spellable line words spells first).mp read
  obtain ⟨lookups, _⟩ := interface.environment_lookups environment first found interface.options environed
  refine ⟨first, fun option => interface.entries_of_entered [] _ first option entered, fun option => ?_, checked⟩
  rw [lookups, if_pos (complete option)]

section Found

variable (environment : Environment) (found : Matches ι) (complete : ∀ x, x ∈ interface.options)
  (parsed : interface.parse environment words = .ok found) (option : ι)
include complete parsed

theorem found_once (single : (interface.spec option).arity = .one) :
    interface.occurrences line option = [] ∧
        found.value? option = interface.setting? environment option ∨
      ∃ value, interface.checkValues option [value] = .ok () ∧ interface.occurrences line option = [[value]] ∧
        found.value? option = some value := by
  obtain ⟨first, each, stands, _⟩ :=
    interface.parsed_of_line spellable line words spells environment found complete parsed
  rw [Matches.value?, stands, fallback]
  rcases interface.occurs_once line spells.formed option _ single (each option) with
    ⟨absent, missing⟩ | ⟨value, passes, once, entered⟩
  · rw [missing, Option.none_or]
    refine .inl ⟨absent, ?_⟩
    cases interface.setting? environment option with
    | none => rfl
    | some value => rfl
  · rw [entered, Option.some_or]
    exact .inr ⟨value, passes, once, rfl⟩

variable (unset : interface.setting? environment option = none)
include unset

theorem found_collected (many : (interface.spec option).arity = .many) :
    found.values? option =
      if interface.occurrences line option = [] then none else some (interface.occurrences line option).flatten := by
  obtain ⟨first, each, stands, _⟩ :=
    interface.parsed_of_line spellable line words spells environment found complete parsed
  have collected := interface.entries_many option many none _ _ (each option)
  rw [Matches.values?, stands, interface.fallback_skip environment first option (.inr unset), collected]
  rfl

end Found

end Parsed

section Rearranged

def gives (option : ι) (group : WordGroup ι) : Bool := (interface.uses group).any fun use => use.1 = option

theorem occurrences_cons (group : WordGroup ι) (line : List (WordGroup ι)) (option : ι) :
    interface.occurrences (group :: line) option =
      valuesOf (interface.uses group) option ++ interface.occurrences line option := by
  rw [occurrences, List.flatMap_cons, valuesOf, List.filter_append, List.map_append]
  rfl

theorem occurrences_given (line : List (WordGroup ι)) (option : ι) :
    interface.occurrences (line.filter (interface.gives option)) option = interface.occurrences line option := by
  induction line with
  | nil => rfl
  | cons group rest ih =>
      rw [occurrences_cons, List.filter_cons]
      by_cases given : interface.gives option group = true
      · rw [if_pos given, occurrences_cons, ih]
      · have silent : valuesOf (interface.uses group) option = [] := by
          rw [valuesOf, List.map_eq_nil_iff, List.filter_eq_nil_iff]
          intro use member this
          exact given (List.any_eq_true.mpr ⟨use, member, this⟩)
        rw [if_neg given, ih, silent, List.nil_append]

omit [DecidableEq ι] in
theorem perm_short {α : Type} (a b : List α) (same : a.Perm b) (short : a.length ≤ 1) : b = a := by
  cases a with
  | nil => exact same.symm.eq_nil
  | cons x rest =>
      have single : rest = [] := by
        rw [List.length_cons] at short
        exact List.length_eq_zero_iff.mp (by omega)
      rw [single] at same ⊢
      exact List.perm_singleton.mp same.symm

variable {line other : List (WordGroup ι)} (formed : ∀ group ∈ line, interface.Forms group) (same : line.Perm other)
  (kept : ∀ option, (interface.spec option).arity = .many →
    line.filter (interface.gives option) = other.filter (interface.gives option))
include formed same kept

-- Groups in another order are the same occurrences, as long as those that collect values keep theirs.
theorem occurrences_rearranged (option : ι) (entry : Option (Match ι))
    (made : interface.entries option none (interface.occurrences line option) = .ok entry) :
    interface.occurrences other option = interface.occurrences line option := by
  have perm : (interface.occurrences line option).Perm (interface.occurrences other option) :=
    ((same.flatMap_right interface.uses).filter _).map Prod.snd
  by_cases takes : (interface.spec option).takesValue = true
  · rcases arity_of_taking (interface.spec option) takes with one | many
    · apply perm_short _ _ perm
      rcases interface.occurs_once line formed option entry one made with ⟨absent, _⟩ | ⟨value, _, once, _⟩
      · simp [absent]
      · simp [once]
    · rw [← occurrences_given, ← kept option many, occurrences_given]
  · have empty := List.eq_replicate_of_mem (interface.flag_occurrences line formed option takes)
    rw [empty] at perm ⊢
    exact List.perm_replicate.mp perm.symm

theorem parse_rearranged (spellable : interface.Spellable) (complete : ∀ x, x ∈ interface.options)
    (environment : Environment) (found : Matches ι)
    (parsed : interface.parse environment (line.flatMap interface.words) = .ok found) :
    ∃ again, interface.parse environment (other.flatMap interface.words) = .ok again ∧
      ∀ option, again.find? option = found.find? option := by
  have spells : interface.Spells line (line.flatMap interface.words) := ⟨formed, .inl rfl⟩
  have others : interface.Spells other (other.flatMap interface.words) :=
    ⟨fun group member => formed group (same.mem_iff.mpr member), .inl rfl⟩
  obtain ⟨first, read, environed, checked⟩ := (interface.parse_iff environment _ found).mp parsed
  have entered := (interface.read_line_iff spellable line _ spells first).mp read
  have each (option : ι) :
      interface.entries option none (interface.occurrences other option) = .ok (first.find? option) := by
    have made := interface.entries_of_entered [] _ first option entered
    rw [interface.occurrences_rearranged formed same kept option _ made]
    exact made
  obtain ⟨second, reached, lookups⟩ := interface.entered_of_entries [] _ first.find? each
  have again := (interface.read_line_iff spellable other _ others second).mpr reached
  obtain ⟨_, passes⟩ := interface.environment_lookups environment first found interface.options environed
  obtain ⟨after, filled, together, alike⟩ := interface.finish_same environment environment first second found complete
    (fun option => by rw [fallback, fallback, lookups])
    (fun option member missing => passes option member ((lookups option).symm.trans missing)) environed checked
  exact ⟨after, (interface.parse_iff environment _ after).mpr ⟨second, again, filled, together⟩, alike⟩

end Rearranged

end Interface
end Devnet.CommandLine
