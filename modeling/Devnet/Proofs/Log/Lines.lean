import Devnet.Execution
import Devnet.Proofs.Text.Digits
import Mathlib.Data.List.Basic

set_option autoImplicit false

namespace Devnet

def Unbroken (text : String) : Prop := ∀ c ∈ text.toList, c ≠ '\n' ∧ c ≠ '\r'

instance (text : String) : Decidable (Unbroken text) :=
  decidable_of_iff (text.toList.all (fun c => decide (c ≠ '\n' ∧ c ≠ '\r')) = true)
    ⟨members_checked _ _, fun plain => List.all_eq_true.mpr fun c member => decide_eq_true (plain c member)⟩

section Texts

theorem unbroken_append (a b : String) (first : Unbroken a) (second : Unbroken b) : Unbroken (a ++ b) := by
  intro c member
  rw [String.toList_append] at member
  rcases List.mem_append.mp member with before | behind
  · exact first c before
  · exact second c behind

theorem unbroken_join (texts : List String) (each : ∀ text ∈ texts, Unbroken text) : Unbroken (String.join texts) := by
  intro c member
  rw [String.toList_join, List.mem_flatMap] at member
  obtain ⟨text, listed, inside⟩ := member
  exact each text listed c inside

theorem decimal_unbroken (n : Nat) : Unbroken (Numeral.decimal n) := by
  intro c member
  rw [Numeral.decimal, String.toList_ofList] at member
  have digits : ∀ digit ∈ (List.range 10).map Numeral.digitChar, digit ≠ '\n' ∧ digit ≠ '\r' :=
    members_checked _ _ rfl
  exact digits c (Numeral.decimal_members n c member)

theorem event_unbroken (event : Log.Event) (target : Unbroken event.target) (message : Unbroken event.message)
    (fields : ∀ field ∈ event.fields, Unbroken field.name ∧ Unbroken field.value) : Unbroken event.text := by
  have level : ∀ level : Log.Level, Unbroken level.name := by
    intro level
    cases level <;> decide
  have texts : ∀ text ∈ event.fields.map Log.Field.text, Unbroken text := by
    intro text member
    obtain ⟨field, listed, rfl⟩ := List.mem_map.mp member
    obtain ⟨name, value⟩ := fields field listed
    exact unbroken_append _ _ (unbroken_append _ _ (unbroken_append _ _ (by decide) name) (by decide)) value
  have opening := unbroken_append _ _ (unbroken_append _ " " (level event.level) (by decide)) target
  exact unbroken_append _ _ (unbroken_append _ _ (unbroken_append _ ": " opening (by decide)) message)
    (unbroken_join _ texts)

end Texts

namespace Line

theorem of_reverse_open (line : List Char) (open_ : line.head? ≠ some '\r') :
    ofReverse line = String.ofList line.reverse := by
  cases line with
  | nil => rfl
  | cons c more =>
      rw [ofReverse]
      intro rest same
      exact open_ (congrArg some (List.cons_eq_cons.mp same).1)

theorem split_from_whole (current rest : List Char) (whole : '\n' ∉ rest) :
    splitFrom current rest = [ofReverse (rest.reverse ++ current)] := by
  induction rest generalizing current with
  | nil => rfl
  | cons c more ih =>
      have step := ih (c :: current) fun member => whole (List.mem_cons_of_mem c member)
      rw [splitFrom, step, List.reverse_cons, List.append_assoc, List.singleton_append]
      exact fun same => whole (same ▸ List.mem_cons_self)

-- Without line feeds a text is one line, unless it ends with a carriage return.
theorem split_whole (text : String) (whole : '\n' ∉ text.toList) (open_ : text.toList.getLast? ≠ some '\r') :
    split text = [text] := by
  rw [split, split_from_whole [] text.toList whole, List.append_nil, of_reverse_open, List.reverse_reverse,
    String.ofList_toList]
  rwa [List.head?_reverse]

theorem split_unbroken (text : String) (unbroken : Unbroken text) : split text = [text] := by
  apply split_whole text fun member => (unbroken _ member).1 rfl
  intro last
  exact (unbroken _ (List.mem_of_getLast? last)).2 rfl

theorem split_between (before text after : String) (first : Unbroken before) (last : Unbroken after)
    (filled : after.toList ≠ []) (whole : '\n' ∉ text.toList) :
    split (before ++ text ++ after) = [before ++ text ++ after] := by
  apply split_whole
  · intro member
    rw [String.toList_append, String.toList_append, List.append_assoc] at member
    rcases List.mem_append.mp member with front | later
    · exact (first _ front).1 rfl
    · rcases List.mem_append.mp later with middle | back
      · exact whole middle
      · exact (last _ back).1 rfl
  · rw [String.toList_append, List.getLast?_append_of_ne_nil _ filled]
    intro ending
    exact (last _ (List.mem_of_getLast? ending)).2 rfl

end Line

namespace Effect

variable (filter : Log.Filter) (events : List Log.Event)

theorem log_lines_admitted (admitted : ∀ event ∈ events, filter.admits event = true)
    (unbroken : ∀ event ∈ events, Unbroken event.text) : logLines filter events = events.map Log.Event.text := by
  rw [logLines, List.map_eq_flatMap]
  apply List.flatMap_congr
  intro event member
  rw [if_pos (admitted event member), Line.split_unbroken event.text (unbroken event member)]

theorem log_lines_omitted (omitted : ∀ event ∈ events, filter.admits event = false) : logLines filter events = [] := by
  rw [logLines, List.flatMap_eq_nil_iff]
  intro event member
  rw [omitted event member, if_neg Bool.false_ne_true]

end Effect
end Devnet
