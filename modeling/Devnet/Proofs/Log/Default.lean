import Devnet.Proofs.Log.Directives
import Devnet.Proofs.Log.Decisive
import Devnet.Proofs.Text.Digits

set_option autoImplicit false

namespace Devnet.Log

def listedThreshold (verbose : Bool) : Threshold := if verbose then .upTo .trace else .upTo .info

-- What the default filter is to let through: the given targets with all that their names begin, up to the
-- threshold.
def Listed (verbose : Bool) (names : List String) (event : Event) : Prop :=
  (∃ name ∈ names, name.toList <+: event.target.toList) ∧ (listedThreshold verbose).admits event.level = true

instance (verbose : Bool) (names : List String) (event : Event) : Decidable (Listed verbose names event) :=
  inferInstanceAs (Decidable (_ ∧ _))

-- The word `none` is no level, so the filter reads it as a target of which every level passes. It decides
-- about the targets that it begins, but for those of a given name that it begins too.
def Stray (names : List String) (event : Event) : Prop :=
  "none".toList <+: event.target.toList ∧
    ∀ name ∈ names, "none".toList <+: name.toList → ¬ name.toList <+: event.target.toList

def Unrelated (a b : String) : Prop := ¬ a.toList <+: b.toList ∧ ¬ b.toList <+: a.toList

instance (a b : String) : Decidable (Unrelated a b) := inferInstanceAs (Decidable (_ ∧ _))

section Reading

def isIdentifier (name : String) : Bool :=
  !name.toList.isEmpty && name.toList.all fun c => c == '_' || Alphanumeric.isAlphanumeric c

theorem identifier_target (name : String) (identifier : isIdentifier name = true) : IsTargetName name := by
  have marks : ∀ c ∈ [',', '=', '['], c ≠ '_' ∧ Alphanumeric.isAlphanumeric c = false :=
    members_checked _ _ (by decide +kernel)
  rw [isIdentifier, Bool.and_eq_true, Bool.not_eq_true', List.isEmpty_eq_false_iff, List.all_eq_true] at identifier
  obtain ⟨filled, plain⟩ := identifier
  have kinds : ∀ c ∈ name.toList, c = '_' ∨ Alphanumeric.isAlphanumeric c = true := by
    intro c member
    simpa using plain c member
  constructor
  · cases letters : name.toList with
    | nil => exact absurd letters filled
    | cons c rest =>
        refine ⟨c, rest, rfl, ?_⟩
        rcases kinds c (letters ▸ List.mem_cons_self) with rfl | alphanumeric
        · rfl
        · rw [startsTarget, alphanumeric, Bool.or_true]
  · intro c member
    have unmarked : c ∉ [',', '=', '['] := by
      intro mark
      obtain ⟨apart, unlettered⟩ := marks c mark
      rcases kinds c member with same | alphanumeric
      · exact apart same
      · cases unlettered.symm.trans alphanumeric
    simpa using unmarked

variable (verbose : Bool) (names : List String)

def levelText : String := if verbose then "trace" else "info"

def listedParts : List (List Char) :=
  "hyper=off".toList :: names.map fun name => name.toList ++ '=' :: (levelText verbose).toList

theorem default_text : (defaultFilterText verbose names).toList =
    "none".toList ++ (listedParts verbose names).flatMap fun part => ',' :: part := by
  have part : ∀ level name : String, (s!",{name}={level}").toList = ',' :: (name.toList ++ '=' :: level.toList) := by
    intro level name
    change ((("," ++ name) ++ "=") ++ level).toList = _
    simp
  rw [defaultFilterText, String.toList_append, String.toList_join, listedParts, List.flatMap_map, List.flatMap_cons,
    List.flatMap_map]
  simp only [part]
  rfl

theorem listed_level : Threshold.parse? (levelText verbose).toList = some (listedThreshold verbose) := by
  cases verbose <;> decide

theorem level_ends : ∃ ending last, (levelText verbose).toList = ending ++ [last] ∧
    Blank.isBlank last = false := by
  cases verbose
  · exact ⟨"inf".toList, 'o', by decide, by decide⟩
  · exact ⟨"trac".toList, 'e', by decide, by decide⟩

theorem listed_parts (targets : ∀ name ∈ names, IsTargetName name) :
    ∀ part ∈ listedParts verbose names, IsPart part := by
  intro part member
  rcases List.mem_cons.mp member with rfl | listed
  · exact ⟨by decide, members_checked _ _ rfl⟩
  · obtain ⟨name, given, rfl⟩ := List.mem_map.mp listed
    refine ⟨by simp, fun c inside => ?_⟩
    rcases List.mem_append.mp inside with named | levelled
    · exact ((targets name given).whole c named).1
    · have unseparated : ∀ c ∈ '=' :: (levelText verbose).toList, c ≠ ',' := by
        cases verbose <;> exact members_checked _ _ rfl
      exact unseparated c levelled

def generalRules : Filter := [targeting "none" (.upTo .trace), targeting "hyper" .off]

def listedRules : Filter := names.map fun name => targeting name (listedThreshold verbose)

theorem default_rules (targets : ∀ name ∈ names, IsTargetName name) :
    Filter.parseLenient (defaultFilterText verbose names) = generalRules ++ listedRules verbose names := by
  have none_ : Directive.parse? "none".toList = some (targeting "none" (.upTo .trace)) := by decide +kernel
  have hyper : Directive.parse? "hyper=off".toList = some (targeting "hyper" .off) := by decide +kernel
  obtain ⟨ending, last, ends, closed⟩ := level_ends verbose
  rw [Filter.parseLenient, default_text,
    filter_parts_joined _ _ ⟨by decide, members_checked _ _ rfl⟩ (listed_parts verbose names targets), listedParts,
    List.filterMap_cons_some none_, List.filterMap_cons_some hyper, List.filterMap_map, listedRules, ← List.filterMap_eq_map]
  congr 2
  apply List.filterMap_congr
  intro name given
  exact target_directive name (targets name given) _ _ ending last ends closed (listed_level verbose)

end Reading

section Decision

variable (verbose : Bool) (names : List String) (event : Event)

theorem rules_plain : ∀ directive ∈ generalRules ++ listedRules verbose names, directive.field = none := by
  intro directive member
  rcases List.mem_append.mp member with general | listed
  · exact (show ∀ rule ∈ generalRules, rule.field = none by decide) directive general
  · obtain ⟨name, _, rfl⟩ := List.mem_map.mp listed
    rfl

theorem rule_of_name (name : String) (given : name ∈ names) :
    targeting name (listedThreshold verbose) ∈ listedRules verbose names :=
  List.mem_map.mpr ⟨name, given, rfl⟩

theorem inapplicable_unlisted
    (inapplicable : ∀ rule ∈ generalRules ++ listedRules verbose names, rule.applies event = false) :
    ¬ (Stray names event ∨ Listed verbose names event) := by
  have unbegun : ∀ name threshold, targeting name threshold ∈ generalRules ++ listedRules verbose names →
      ¬ name.toList <+: event.target.toList := by
    intro name threshold member named
    cases (inapplicable _ member).symm.trans ((targeting_applies_iff name threshold event).mpr named)
  rintro (⟨begins, _⟩ | ⟨⟨name, given, named⟩, _⟩)
  · exact unbegun "none" _ List.mem_cons_self begins
  · exact unbegun name _ (List.mem_append_right generalRules (rule_of_name verbose names name given)) named

theorem listed_decides (name : String) (given : name ∈ names)
    (decides : Decides (generalRules ++ listedRules verbose names) event (targeting name (listedThreshold verbose))) :
    (listedThreshold verbose).admits event.level = true ↔ Stray names event ∨ Listed verbose names event := by
  have named := (targeting_applies_iff name _ event).mp decides.applies
  constructor
  · exact fun passes => .inr ⟨⟨name, given, named⟩, passes⟩
  · rintro (⟨begins, unlisted⟩ | ⟨_, passes⟩)
    · have rank := longest_of_decides _ event _ decides _ List.mem_cons_self
        ((targeting_applies_iff "none" (.upTo .trace) event).mpr begins)
      rw [targeting_rank, targeting_rank] at rank
      exact absurd named (unlisted name given (beginning_of_rank _ _ _ begins named (Nat.le_of_succ_le_succ rank)))
    · exact passes

theorem none_decides (applies : (targeting "none" (.upTo .trace)).applies event = true)
    (shorter : ∀ rule ∈ listedRules verbose names, rule.applies event = true →
      rule.targetRank < (targeting "none" (.upTo .trace)).targetRank) : Stray names event := by
  refine ⟨(targeting_applies_iff "none" _ event).mp applies, fun name given longer named => ?_⟩
  have rank := shorter _ (rule_of_name verbose names name given) ((targeting_applies_iff name _ event).mpr named)
  rw [targeting_rank, targeting_rank] at rank
  exact absurd (rank_of_beginning _ _ longer) (Nat.not_le_of_lt (Nat.lt_of_succ_lt_succ rank))

theorem hyper_unlisted (apart : ∀ name ∈ names, Unrelated name "hyper")
    (applies : (targeting "hyper" .off).applies event = true) :
    ¬ (Stray names event ∨ Listed verbose names event) := by
  have hyper := (targeting_applies_iff "hyper" _ event).mp applies
  rintro (⟨begins, _⟩ | ⟨⟨name, given, named⟩, _⟩)
  · rcases List.prefix_or_prefix_of_prefix hyper begins with inside | inside
    · exact absurd inside (by decide)
    · exact absurd inside (by decide)
  · rcases List.prefix_or_prefix_of_prefix hyper named with inside | inside
    · exact (apart name given).2 inside
    · exact (apart name given).1 inside

theorem default_filter_admits_iff (targets : ∀ name ∈ names, IsTargetName name)
    (apart : ∀ name ∈ names, Unrelated name "hyper") :
    (Filter.parseLenient (defaultFilterText verbose names)).admits event = true ↔
      Stray names event ∨ Listed verbose names event := by
  have decided := decisive_decides (generalRules ++ listedRules verbose names) event (rules_plain verbose names)
  have filled : generalRules ++ listedRules verbose names ≠ [] := List.cons_ne_nil _ _
  rw [default_rules verbose names targets]
  cases best : Filter.decisive (generalRules ++ listedRules verbose names) event with
  | none =>
      rw [best] at decided
      rw [admits_undecided _ event filled best]
      exact iff_of_false Bool.false_ne_true (inapplicable_unlisted verbose names event decided)
  | some rule =>
      rw [best] at decided
      rw [admits_decided _ event rule filled best]
      rcases decides_split event generalRules (listedRules verbose names) rule decided with listed | ⟨general, shorter⟩
      · obtain ⟨name, given, rfl⟩ := List.mem_map.mp listed
        exact listed_decides verbose names event name given decided
      · have kind : rule = targeting "none" (.upTo .trace) ∨ rule = targeting "hyper" .off := by
          simpa [generalRules] using general
        rcases kind with rfl | rfl
        · have every : ∀ level : Level, (Threshold.upTo .trace).admits level = true := by
            intro level
            cases level <;> rfl
          exact iff_of_true (every event.level) (.inl (none_decides verbose names event decided.applies shorter))
        · have no : ∀ level : Level, ¬ Threshold.off.admits level = true := by
            intro level
            cases level <;> decide
          exact iff_of_false (no event.level) (hyper_unlisted verbose names event apart decided.applies)

-- The events that the default filter lets through are those of the given targets up to the threshold, unless
-- the word `none` begins the target: then it is let through at every level.
theorem default_filter_enables_listed_iff (targets : ∀ name ∈ names, IsTargetName name)
    (apart : ∀ name ∈ names, Unrelated name "hyper") :
    ((Filter.parseLenient (defaultFilterText verbose names)).admits event = true ↔ Listed verbose names event) ↔
      (Stray names event → Listed verbose names event) := by
  rw [default_filter_admits_iff verbose names event targets apart]
  exact ⟨fun same stray => same.mp (.inl stray), fun held => ⟨fun either => either.elim held id, .inr⟩⟩

theorem default_filter_enables_listed_nonempty :
    (∀ name ∈ ["deploy_udc", "nonempty"], IsTargetName name) ∧
      (∀ name ∈ ["deploy_udc", "nonempty"], Unrelated name "hyper") ∧
      ((Filter.parseLenient (defaultFilterText false ["deploy_udc", "nonempty"])).admits
          ⟨.debug, "nonempty::list", "Rebuilt.", []⟩ = true ↔
        Listed false ["deploy_udc", "nonempty"] ⟨.debug, "nonempty::list", "Rebuilt.", []⟩) := by
  have identifiers : ∀ name ∈ ["deploy_udc", "nonempty"], isIdentifier name = true := by decide +kernel
  have targets := fun name given => identifier_target name (identifiers name given)
  have apart : ∀ name ∈ ["deploy_udc", "nonempty"], Unrelated name "hyper" := by decide
  refine ⟨targets, apart, (default_filter_enables_listed_iff false _ _ targets apart).mpr fun stray => ?_⟩
  exact absurd (show "nonempty".toList <+: "nonempty::list".toList by decide) (stray.2 "nonempty" (by decide) (by decide))

theorem default_filter_enables_unlisted :
    (∀ name ∈ ["deploy_udc", "devnet_utils"], IsTargetName name ∧ Unrelated name "hyper") ∧
      (Filter.parseLenient (defaultFilterText false ["deploy_udc", "devnet_utils"])).admits
        ⟨.trace, "nonempty::list", "Rebuilt.", []⟩ = true ∧
      ¬ Listed false ["deploy_udc", "devnet_utils"] ⟨.trace, "nonempty::list", "Rebuilt.", []⟩ := by
  have identifiers : ∀ name ∈ ["deploy_udc", "devnet_utils"], isIdentifier name = true := by decide +kernel
  have apart : ∀ name ∈ ["deploy_udc", "devnet_utils"], Unrelated name "hyper" := by decide
  exact ⟨fun name given => ⟨identifier_target name (identifiers name given), apart name given⟩, by decide +kernel,
    by decide⟩

end Decision

theorem quiet_verbosity (count : Nat) : (verbosity 0 count).isVerbose = false := by
  cases count with
  | zero => rfl
  | succ more =>
      have silent : 1 + 0 - (more + 1) = 0 := by omega
      rw [verbosity, silent]
      rfl

-- The error level is where the flags start from, and two more levels come before the fine ones.
theorem verbose_from_third (flags : Nat) : (verbosity flags 0).isVerbose = true ↔ 3 ≤ flags := by
  have few : ∀ number < 3, ¬ (verbosity number 0).isVerbose = true := by decide
  rcases Nat.lt_or_ge flags 3 with less | least
  · exact iff_of_false (few flags less) (Nat.not_le_of_lt less)
  · obtain ⟨more, rfl⟩ := Nat.exists_eq_add_of_le least
    have rank : 1 + (3 + more) - 0 = more + 4 := by omega
    refine iff_of_true ?_ least
    rw [verbosity, rank]
    cases more <;> rfl

structure AreCrates (targets : List String) : Prop where
  identifiers : ∀ name ∈ targets, isIdentifier name = true
  unrelated : ∀ name ∈ targets, Unrelated name "hyper"

section Terse

variable (targets : List String)

def terseFilter : Filter := .parseLenient (defaultFilterText false targets)

theorem terse_in_force (threshold : Threshold) (quiet : threshold.isVerbose = false) :
    filterInForce none threshold targets = terseFilter targets := by
  rw [filterInForce, Option.bind_none, quiet, terseFilter]

variable (crates : AreCrates targets) (event : Event)
include crates

theorem terse_filter_iff :
    (terseFilter targets).admits event = true ↔ Stray targets event ∨ Listed false targets event :=
  default_filter_admits_iff false targets event (fun name given => identifier_target name (crates.identifiers name given))
    crates.unrelated

theorem own_admitted (own : event.target ∈ targets) (level : event.level.rank ≤ Level.info.rank) :
    (terseFilter targets).admits event = true :=
  (terse_filter_iff targets crates event).mpr (.inr ⟨⟨event.target, own, List.prefix_rfl⟩, decide_eq_true level⟩)

theorem fine_omitted (plain : ¬ "none".toList <+: event.target.toList) (fine : Level.info.rank < event.level.rank) :
    (terseFilter targets).admits event = false := by
  rw [← Bool.not_eq_true, terse_filter_iff targets crates]
  rintro (⟨stray, _⟩ | ⟨_, level⟩)
  · exact plain stray
  · exact Nat.not_le_of_lt fine (of_decide_eq_true level)

end Terse

end Devnet.Log
