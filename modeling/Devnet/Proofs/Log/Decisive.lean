import Devnet.Log.Filter
import Mathlib.Data.List.Infix
import Mathlib.Data.String.Basic

set_option autoImplicit false

namespace Devnet.Log

section Fold

variable (filter : Filter) (event : Event)

theorem decisive_snoc (directive : Directive) :
    Filter.decisive (filter ++ [directive]) event =
      if directive.applies event then
        match filter.decisive event with
        | none => some directive
        | some best => if best.yieldsTo directive then some directive else some best
      else filter.decisive event := by
  rw [Filter.decisive, List.filter_append, List.foldl_append, ← Filter.decisive]
  by_cases applies : directive.applies event = true
  · rw [List.filter_singleton, applies, if_pos rfl]
    rfl
  · rw [List.filter_singleton, Bool.eq_false_iff.mpr applies, if_neg Bool.false_ne_true]
    rfl

theorem yields_iff (directive other : Directive) (plain : directive.field = none) :
    directive.yieldsTo other = true ↔ directive.targetRank ≤ other.targetRank := by
  rw [Directive.yieldsTo, plain]
  by_cases same : directive.targetRank = other.targetRank
  · simp [same]
  · rw [if_pos same, decide_eq_true_eq]
    omega

structure Decides (directive : Directive) : Prop where
  applies : directive.applies event = true
  place : ∃ before after, filter = before ++ directive :: after ∧
    (∀ other ∈ before, other.applies event = true → other.targetRank ≤ directive.targetRank) ∧
    ∀ other ∈ after, other.applies event = true → other.targetRank < directive.targetRank

theorem decides_last (directive : Directive) (applies : directive.applies event = true)
    (longest : ∀ other ∈ filter, other.applies event = true → other.targetRank ≤ directive.targetRank) :
    Decides (filter ++ [directive]) event directive :=
  ⟨applies, filter, [], rfl, longest, fun _ member => (nomatch member)⟩

theorem decides_still (directive best : Directive) (decides : Decides filter event best)
    (shorter : directive.applies event = true → directive.targetRank < best.targetRank) :
    Decides (filter ++ [directive]) event best := by
  obtain ⟨applies, before, after, whole, earlier, later⟩ := decides
  refine ⟨applies, before, after ++ [directive], by rw [whole, List.append_assoc, List.cons_append], earlier, ?_⟩
  intro other member applying
  rcases List.mem_append.mp member with inside | last
  · exact later other inside applying
  · rw [List.mem_singleton.mp last] at applying ⊢
    exact shorter applying

theorem longest_of_decides (best : Directive) (decides : Decides filter event best) (other : Directive)
    (member : other ∈ filter) (applies : other.applies event = true) : other.targetRank ≤ best.targetRank := by
  obtain ⟨_, before, after, whole, earlier, later⟩ := decides
  rw [whole, List.mem_append, List.mem_cons] at member
  rcases member with inFront | same | behind
  · exact earlier other inFront applies
  · exact Nat.le_of_eq (congrArg Directive.targetRank same)
  · exact Nat.le_of_lt (later other behind applies)

theorem decisive_decides (plain : ∀ directive ∈ filter, directive.field = none) :
    match filter.decisive event with
    | none => ∀ directive ∈ filter, directive.applies event = false
    | some best => Decides filter event best := by
  induction filter using List.reverseRecOn with
  | nil => exact fun _ member => (nomatch member)
  | append_singleton front directive ih =>
      have before := ih fun other member => plain other (List.mem_append_left _ member)
      rw [decisive_snoc]
      by_cases applies : directive.applies event = true
      · rw [if_pos applies]
        cases decided : Filter.decisive front event with
        | none =>
            rw [decided] at before
            apply decides_last front event directive applies
            intro other member applying
            cases applying.symm.trans (before other member)
        | some best =>
            rw [decided] at before
            obtain ⟨start, rest, whole, _⟩ := before.place
            have held : best ∈ front := by rw [whole]; simp
            have bare := plain best (List.mem_append_left _ held)
            by_cases yields : best.yieldsTo directive = true
            · simp only [if_pos yields]
              apply decides_last front event directive applies
              intro other member applying
              exact Nat.le_trans (longest_of_decides front event best before other member applying)
                ((yields_iff best directive bare).mp yields)
            · simp only [if_neg yields]
              apply decides_still front event directive best before
              intro _
              exact Nat.lt_of_not_le fun longer => yields ((yields_iff best directive bare).mpr longer)
      · rw [if_neg applies]
        cases decided : Filter.decisive front event with
        | none =>
            rw [decided] at before
            intro other member
            rcases List.mem_append.mp member with inside | last
            · exact before other inside
            · rw [List.mem_singleton.mp last]
              exact Bool.eq_false_iff.mpr applies
        | some best =>
            rw [decided] at before
            exact decides_still front event directive best before fun applying => absurd applying applies

theorem admits_undecided (filled : filter ≠ []) (undecided : filter.decisive event = none) :
    filter.admits event = false := by
  have nonempty : ¬ filter.isEmpty = true := fun empty => filled (List.isEmpty_iff.mp empty)
  rw [Filter.admits, if_neg nonempty, undecided]

theorem admits_decided (best : Directive) (filled : filter ≠ []) (decided : filter.decisive event = some best) :
    filter.admits event = best.threshold.admits event.level := by
  have nonempty : ¬ filter.isEmpty = true := fun empty => filled (List.isEmpty_iff.mp empty)
  rw [Filter.admits, if_neg nonempty, decided]

-- In a filter of two parts the directives of the first part decide only where those of the second part that
-- apply are all shorter.
theorem decides_split (front back : Filter) (best : Directive) (decides : Decides (front ++ back) event best) :
    best ∈ back ∨
      best ∈ front ∧ ∀ other ∈ back, other.applies event = true → other.targetRank < best.targetRank := by
  obtain ⟨_, before, after, whole, _, later⟩ := decides
  rcases List.append_eq_append_iff.mp whole with ⟨rest, _, back_⟩ | ⟨rest, front_, behind⟩
  · exact .inl (by rw [back_]; simp)
  · cases rest with
    | nil => exact .inl (by rw [← behind.trans (List.nil_append back)]; exact List.mem_cons_self)
    | cons first more =>
        obtain ⟨rfl, after_⟩ := List.cons_eq_cons.mp behind
        refine .inr ⟨by rw [front_]; simp, fun other member applies => ?_⟩
        exact later other (by rw [after_]; exact List.mem_append_right more member) applies

end Fold

section Targets

def targeting (name : String) (threshold : Threshold) : Directive := ⟨some name, none, none, threshold⟩

theorem targeting_applies_iff (name : String) (threshold : Threshold) (event : Event) :
    (targeting name threshold).applies event = true ↔ name.toList <+: event.target.toList := by
  simp [Directive.applies, targeting, Directive.concernsEvents]

theorem targeting_rank (name : String) (threshold : Threshold) :
    (targeting name threshold).targetRank = String.utf8Len name.toList + 1 := by
  have bytes : name.utf8ByteSize = String.utf8Len name.toList := by
    rw [← String.utf8ByteSize_ofList, String.ofList_toList]
  change name.utf8ByteSize + 1 = _
  rw [bytes]

theorem beginning_of_rank (a b text : List Char) (first : a <+: text) (second : b <+: text)
    (shorter : String.utf8Len a ≤ String.utf8Len b) : a <+: b := by
  rcases List.prefix_or_prefix_of_prefix first second with inside | outside
  · exact inside
  · obtain ⟨rest, whole⟩ := outside
    cases rest with
    | nil =>
        rw [List.append_nil] at whole
        exact whole ▸ List.prefix_rfl
    | cons c more =>
        rw [← whole, String.utf8Len_append, String.utf8Len_cons] at shorter
        have filled := c.utf8Size_pos
        omega

theorem rank_of_beginning (a b : List Char) (inside : a <+: b) : String.utf8Len a ≤ String.utf8Len b := by
  obtain ⟨rest, whole⟩ := inside
  rw [← whole, String.utf8Len_append]
  exact Nat.le_add_right _ _

end Targets

end Devnet.Log
