import Devnet.Log.Filter
import Mathlib.Data.String.Basic

set_option autoImplicit false

namespace Devnet.Log

-- A target that a directive can hold: it starts like one, and nothing in it ends a target or a directive.
-- Identifiers are such names.
structure IsTargetName (name : String) : Prop where
  starts : ∃ c rest, name.toList = c :: rest ∧ startsTarget c = true
  whole : ∀ c ∈ name.toList, c ≠ ',' ∧ c ≠ '=' ∧ c ≠ '['

section Blanks

def blankPoints : List Nat := List.range' 0x09 5 ++ List.range' 0x2000 11 ++ Blank.single

theorem blank_point (c : Char) (blank : Blank.isBlank c = true) : c.toNat ∈ blankPoints := by
  simp only [Blank.isBlank, Bool.or_eq_true, Bool.and_eq_true, decide_eq_true_eq, List.contains_iff_mem] at blank
  simp only [blankPoints, List.mem_append, List.mem_range'_1]
  rcases blank with (low | high) | single
  · exact .inl (.inl (by omega))
  · exact .inl (.inr (by omega))
  · exact .inr single

def hasPoint (ranges : List Alphanumeric.Range) (point : Nat) : Bool :=
  ranges.any fun range => range.1 ≤ point && point ≤ range.2

theorem blanks_unlettered :
    ∀ point ∈ blankPoints, hasPoint Alphanumeric.alphabetic point = false ∧ hasPoint Alphanumeric.numeric point = false ∧
      ['-', ':', '_'].all (fun c => c.toNat ≠ point) = true := by
  decide +kernel

theorem target_starts_visible (c : Char) (starts : startsTarget c = true) : Blank.isBlank c = false := by
  rw [← Bool.not_eq_true]
  intro blank
  obtain ⟨unlettered, undigited, unmarked⟩ := blanks_unlettered c.toNat (blank_point c blank)
  have alphanumeric : Alphanumeric.isAlphanumeric c = false := Bool.or_eq_false_iff.mpr ⟨unlettered, undigited⟩
  rw [startsTarget, alphanumeric, Bool.or_false, List.contains_iff_mem] at starts
  have differs := List.all_eq_true.mp unmarked c starts
  simp at differs

theorem trim_visible (first last : Char) (front back : List Char) (same : first :: back = front ++ [last])
    (visible : Blank.isBlank first = false) (closed : Blank.isBlank last = false) :
    Blank.trim (first :: back) = first :: back := by
  have opens : ¬ Blank.isBlank first = true := by rw [visible]; exact Bool.false_ne_true
  have closes : ¬ Blank.isBlank last = true := by rw [closed]; exact Bool.false_ne_true
  rw [Blank.trim, List.dropWhile_cons_of_neg opens, same, List.reverse_append, List.reverse_singleton,
    List.singleton_append, List.dropWhile_cons_of_neg closes, List.reverse_cons, List.reverse_reverse]

end Blanks

section Extents

variable (stops : Char → Bool) (front rest : List Char)

theorem advance_through (position : Nat) (stop : Char) (plain : ∀ c ∈ front, stops c = false) (stopping : stops stop = true) :
    advance stops position (front ++ stop :: rest) = (position + String.utf8Len front, stop :: rest) := by
  induction front generalizing position with
  | nil => rw [List.nil_append, advance, if_pos stopping, String.utf8Len_nil, Nat.add_zero]
  | cons c more ih =>
      have goes : ¬ stops c = true := by rw [plain c List.mem_cons_self]; exact Bool.false_ne_true
      rw [List.cons_append, advance, if_neg goes, ih _ fun d member => plain d (List.mem_cons_of_mem c member),
        String.utf8Len_cons, Nat.add_assoc, Nat.add_comm c.utf8Size]

theorem drop_front : dropBytes? (String.utf8Len front) (front ++ rest) = some rest := by
  induction front with
  | nil => cases rest <;> rfl
  | cons c more ih =>
      have filled := c.utf8Size_pos
      have some : ¬ String.utf8Len (c :: more) = 0 := by rw [String.utf8Len_cons]; omega
      have fits : c.utf8Size ≤ String.utf8Len (c :: more) := by rw [String.utf8Len_cons]; omega
      rw [List.cons_append, dropBytes?, if_neg some, if_pos fits, String.utf8Len_cons, Nat.add_sub_cancel, ih]

theorem take_front : takeBytes? (String.utf8Len front) (front ++ rest) = some front := by
  induction front with
  | nil => cases rest <;> rfl
  | cons c more ih =>
      have filled := c.utf8Size_pos
      have some : ¬ String.utf8Len (c :: more) = 0 := by rw [String.utf8Len_cons]; omega
      have fits : c.utf8Size ≤ String.utf8Len (c :: more) := by rw [String.utf8Len_cons]; omega
      rw [List.cons_append, takeBytes?, if_neg some, if_pos fits, String.utf8Len_cons, Nat.add_sub_cancel, ih]
      rfl

end Extents

section Target

variable (name : String) (held : IsTargetName name) (level : List Char)
include held

theorem target_text_trimmed (ending : List Char) (last : Char) (ends : level = ending ++ [last])
    (closed : Blank.isBlank last = false) :
    Blank.trim (name.toList ++ '=' :: level) = name.toList ++ '=' :: level := by
  obtain ⟨c, rest, starts, opens⟩ := held.starts
  rw [starts, List.cons_append]
  apply trim_visible c last (c :: rest ++ '=' :: ending) _ _ (target_starts_visible c opens) closed
  rw [ends]
  simp

theorem target_layout :
    layout? (name.toList ++ '=' :: level) =
      some (.parts (some ⟨0, String.utf8Len name.toList⟩) none none (some (String.utf8Len name.toList + 1))) := by
  obtain ⟨c, rest, starts, opens⟩ := held.starts
  have unbracketed : ¬ c = '[' := (held.whole c (starts ▸ List.mem_cons_self)).2.2
  have plain : ∀ d ∈ name.toList, (d == '=' || d == '[') = false := by
    intro d member
    obtain ⟨_, unequal, open_⟩ := held.whole d member
    simp [unequal, open_]
  have advanced := advance_through (fun d => d == '=' || d == '[') name.toList level 0 '=' plain rfl
  rw [starts, List.cons_append] at advanced ⊢
  rw [layout?, if_neg unbracketed, if_pos opens]
  simp only [advanced, Nat.zero_add]
  rfl

theorem target_directive (threshold : Threshold) (ending : List Char) (last : Char) (ends : level = ending ++ [last])
    (closed : Blank.isBlank last = false) (levelled : Threshold.parse? level = some threshold) :
    Directive.parse? (name.toList ++ '=' :: level) = some ⟨some name, none, none, threshold⟩ := by
  have cut : name? (some ⟨0, String.utf8Len name.toList⟩) (name.toList ++ '=' :: level) = some (some name) := by
    have front : dropBytes? 0 (name.toList ++ '=' :: level) = some (name.toList ++ '=' :: level) :=
      drop_front [] (name.toList ++ '=' :: level)
    rw [name?, Extent.cut?, front, Option.bind_some, Nat.sub_zero, take_front, Option.map_some, String.ofList_toList]
  have behind : dropBytes? (String.utf8Len name.toList + 1) (name.toList ++ '=' :: level) = some level := by
    have split : name.toList ++ '=' :: level = (name.toList ++ ['=']) ++ level := by simp
    have long : String.utf8Len (name.toList ++ ['=']) = String.utf8Len name.toList + 1 := by
      rw [String.utf8Len_append]
      rfl
    rw [split, ← long, drop_front]
  have passed : threshold? (some (String.utf8Len name.toList + 1)) (name.toList ++ '=' :: level) = some threshold := by
    rw [threshold?, behind]
    cases level with
    | nil => simp at ends
    | cons c more => exact levelled
  rw [Directive.parse?, target_text_trimmed name held level ending last ends closed, target_layout name held level]
  have unspanned : name? none (name.toList ++ '=' :: level) = some none := rfl
  have unfielded : field? none (name.toList ++ '=' :: level) = some none := rfl
  simp only [cut, unspanned, unfielded, passed]

end Target

section Parts

theorem filter_parts_split (current rest : List Char) :
    filterParts current rest = (rest.splitOnPPrepend (· == ',') current).filter fun part => !part.isEmpty := by
  induction rest generalizing current with
  | nil =>
      rw [filterParts, List.splitOnPPrepend_nil]
      cases current <;> simp
  | cons c rest ih =>
      rw [filterParts, List.splitOnPPrepend_cons_eq_if, ih, ih]
      by_cases comma : c = ','
      · rw [if_pos comma, if_pos (beq_iff_eq.mpr comma), List.splitOnPPrepend_nil_right]
        cases current <;> simp
      · rw [if_neg comma, if_neg fun same => comma (beq_iff_eq.mp same)]

def IsPart (part : List Char) : Prop := part ≠ [] ∧ ∀ c ∈ part, c ≠ ','

theorem filter_parts_joined (part : List Char) (others : List (List Char)) (first : IsPart part)
    (rest : ∀ other ∈ others, IsPart other) :
    filterParts [] (part ++ others.flatMap fun other => ',' :: other) = part :: others := by
  have filled (other : List Char) (held : IsPart other) : (!other.isEmpty) = true := by simpa using held.1
  have unseparated (other : List Char) (held : IsPart other) : ∀ c ∈ other, (c == ',') = false := by
    simpa using held.2
  induction others generalizing part with
  | nil =>
      rw [List.flatMap_nil, List.append_nil, filter_parts_split, List.splitOnPPrepend_nil_right,
        List.splitOnP_eq_singleton (unseparated part first), List.filter_singleton, filled part first,
        cond_true]
  | cons other more ih =>
      have later := ih other (rest other List.mem_cons_self) fun x member => rest x (List.mem_cons_of_mem other member)
      rw [filter_parts_split, List.splitOnPPrepend_nil_right] at later ⊢
      rw [List.flatMap_cons, List.cons_append, List.splitOnP_append_cons_of_forall_mem (unseparated part first) ',' rfl,
        List.filter_cons, if_pos (filled part first), later]

-- A well-formed filter: what stands between commas is empty or a directive.
def IsFilterText (text : String) : Prop :=
  ∀ part ∈ text.toList.splitOn ',', part ≠ [] → ∃ directive, Directive.parse? part = some directive

theorem parse_all_iff {α β : Type} (parse : α → Option β) (parts : List α) :
    (∃ results, parts.mapM parse = some results) ↔ ∀ part ∈ parts, ∃ result, parse part = some result := by
  induction parts with
  | nil => simp
  | cons part rest ih =>
      rw [List.forall_mem_cons, ← ih]
      constructor
      · rintro ⟨results, read⟩
        simp only [List.mapM_cons, Option.bind_eq_bind, Option.bind_eq_some_iff] at read
        obtain ⟨result, first, others, later, _⟩ := read
        exact ⟨⟨result, first⟩, others, later⟩
      · rintro ⟨⟨result, first⟩, others, later⟩
        exact ⟨result :: others, by simp [first, later]⟩

theorem is_filter_text_iff (text : String) : IsFilterText text ↔ ∃ filter, Filter.parse? text = some filter := by
  rw [Filter.parse?, parse_all_iff, filter_parts_split, List.splitOnPPrepend_nil_right, ← List.splitOn_eq_splitOnP]
  refine forall_congr' fun part => ?_
  simp only [List.mem_filter, Bool.not_eq_true', List.isEmpty_eq_false_iff, and_imp, ne_eq]

instance (text : String) : Decidable (IsFilterText text) :=
  decidable_of_iff ((Filter.parse? text).isSome = true) (by rw [Option.isSome_iff_exists, is_filter_text_iff])

end Parts

end Devnet.Log
