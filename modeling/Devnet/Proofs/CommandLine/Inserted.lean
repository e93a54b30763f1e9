import Devnet.Proofs.CommandLine.Occurrences

set_option autoImplicit false

namespace Devnet.CommandLine

variable {ι : Type}

namespace Interface

def Grouped (interface : Interface ι) (words : List String) : Prop :=
  ∃ line : List (WordGroup ι), (∀ group ∈ line, interface.Forms group) ∧ words = line.flatMap interface.words

variable (interface : Interface ι)

theorem group_unended (spellable : interface.Spellable) (group : WordGroup ι) (formed : interface.Forms group) :
    ∀ word ∈ interface.words group, Word.ofText word ≠ .terminator := by
  intro word member ended
  cases formed with
  | named option values _ unmarked =>
      rcases List.mem_cons.mp member with bare | value
      · rw [bare, Interface.bare, word_of_bare _ (spellable.named option) (spellable.plain option)] at ended
        cases ended
      · rw [word_unmarked word (unmarked word value)] at ended
        cases ended
  | attached option value _ =>
      rw [List.mem_singleton.mp member, Interface.attached, word_of_attached _ _ (spellable.plain option)] at ended
      cases ended
  | letters c more known =>
      have undashed : c ≠ '-' := fun dash => known c List.mem_cons_self (dash ▸ spellable.undashed)
      rw [List.mem_singleton.mp member, word_of_letters c more undashed] at ended
      cases ended

theorem grouped_unended (spellable : interface.Spellable) (words : List String) (grouped : interface.Grouped words) :
    ∀ word ∈ words, Word.ofText word ≠ .terminator := by
  obtain ⟨line, formed, rfl⟩ := grouped
  intro word member
  obtain ⟨group, inside, spelled⟩ := List.mem_flatMap.mp member
  exact interface.group_unended spellable group (formed group inside) word spelled

variable [DecidableEq ι]

theorem grouped_of_unended (words : List String) (found : Matches ι)
    (unended : ∀ word ∈ words, Word.ofText word ≠ .terminator)
    (read : interface.readWords [] none words = .ok found) : interface.Grouped words := by
  obtain ⟨line, spells⟩ := interface.grouped_of_read words [] found none (fun _ member => (nomatch member)) read
  rcases spells.words with whole | ended
  · exact ⟨line, spells.formed, whole⟩
  · have whole : words = line.flatMap interface.words ++ ["--"] := ended
    have last : "--" ∈ words := whole ▸ List.mem_append_right _ (List.mem_singleton_self _)
    exact absurd rfl (unended "--" last)

section Step

variable (found : Matches ι) (pending : Option (Pending ι))

theorem read_words_step (word : String) (rest : List String) (step : Matches ι × Option (Pending ι))
    (read : interface.readWord found pending word = .ok step) :
    interface.readWords found pending (word :: rest) = interface.readWords step.1 step.2 rest := by
  rw [readWord] at read
  rw [readWords.eq_def]
  cases form : Word.ofText word with
  | terminator =>
      simp only [form] at read
      cases read
  | long name given =>
      simp only [form] at read ⊢
      rw [read]
  | letters chars =>
      simp only [form] at read ⊢
      cases letters : interface.readLetters found pending chars with
      | error stop =>
          rw [letters] at read
          cases read
      | ok after =>
          rw [letters] at read
          cases read
          rfl
  | plain text =>
      simp only [form] at read ⊢
      cases pending with
      | none => cases read
      | some current =>
          by_cases more : interface.takesMore current = true
          · simp only [if_pos more] at read ⊢
            cases read
            rfl
          · simp only [if_neg more] at read
            cases read

variable (option : ι) (value : String) (before rest : List String) (attachable : interface.Attachable option)
include attachable

theorem read_behind (middle : Matches ι) (unended : ∀ word ∈ before, Word.ofText word ≠ .terminator)
    (read : interface.readWords found pending before = .ok middle) :
    interface.readWords found pending (before ++ interface.attached (option, value) :: rest) =
      (interface.enter middle option [value]).bind fun first => interface.readWords first none rest := by
  induction before generalizing found pending with
  | nil =>
      have settled : interface.settle found pending = .ok middle := read
      rw [List.nil_append, interface.read_attached_steps found pending option value rest attachable, settled]
      rfl
  | cons word more ih =>
      rcases (interface.read_words_cons_iff found middle pending word more).mp read with ⟨ended, _, _⟩ | ⟨step, first, behind⟩
      · exact absurd ended (unended word List.mem_cons_self)
      · rw [List.cons_append, interface.read_words_step found pending word _ step first]
        exact ih step.1 step.2 (fun other member => unended other (List.mem_cons_of_mem word member)) behind

theorem read_in_front (after : Matches ι)
    (read : interface.readWords found pending (before ++ interface.attached (option, value) :: rest) = .ok after) :
    (∀ word ∈ before, Word.ofText word ≠ .terminator) ∧
      ∃ middle, interface.readWords found pending before = .ok middle := by
  induction before generalizing found pending with
  | nil =>
      obtain ⟨middle, _, settled, _⟩ :=
        (interface.read_attached_iff found after pending option value rest attachable).mp read
      exact ⟨List.forall_mem_nil _, middle, settled⟩
  | cons word more ih =>
      rcases (interface.read_words_cons_iff found after pending word _).mp read with ⟨_, last, _⟩ | ⟨step, first, behind⟩
      · exact absurd last (by simp)
      · obtain ⟨unended, middle, later⟩ := ih step.1 step.2 behind
        refine ⟨?_, middle, (interface.read_words_cons_iff found middle pending word more).mpr (.inr ⟨step, first, later⟩)⟩
        intro other member
        rcases List.mem_cons.mp member with head | tail
        · intro ended
          rw [readWord, ← head, ended] at first
          cases first
        · exact unended other tail

end Step

section Apart

variable (spellable : interface.Spellable) (single : ∀ x, (interface.spec x).arity ≠ .many)
include spellable single

theorem read_group_apart (found after : Matches ι) (group : WordGroup ι) (rest : List String)
    (formed : interface.Forms group) :
    interface.readWords found none (interface.words group ++ rest) = .ok after ↔
      ∃ middle, interface.enterAll found (interface.uses group) = .ok middle ∧
        interface.readWords middle none rest = .ok after := by
  have nothing : interface.settle found none = .ok found := rfl
  have entered (use : ι × List String) : interface.enterAll found [use] = interface.enter found use.1 use.2 := by
    rw [enterAll]
    cases interface.enter found use.1 use.2 <;> rfl
  cases formed with
  | named option values admitted unmarked =>
      have filled : interface.takesMore ⟨option, values⟩ = false := by
        by_cases takes : (interface.spec option).takesValue = true
        · have one := (arity_of_taking (interface.spec option) takes).resolve_right (single option)
          rw [one, Arity.admits, decide_eq_true_iff] at admitted
          obtain ⟨value, same⟩ := List.length_eq_one_iff.mp admitted
          rw [takesMore, one, same]
          rfl
        · rw [flag_admits _ _ takes, decide_eq_true_iff, List.length_eq_zero_iff] at admitted
          rw [admitted]
          exact closed_flag interface option takes
      simp only [words, uses, List.cons_append, entered, nothing, Except.ok.injEq, exists_eq_left',
        interface.read_named_iff spellable found after none rest option values admitted unmarked,
        interface.read_filled_iff found after ⟨option, values⟩ rest filled]
      rfl
  | attached option value takes =>
      have attachable : interface.Attachable option := ⟨spellable.known option, takes, spellable.plain option⟩
      simp only [words, uses, List.cons_append, List.nil_append, entered, nothing, Except.ok.injEq, exists_and_left,
        exists_eq_left', interface.read_attached_iff found after none option value rest attachable]
  | letters c others known =>
      simp only [words, List.cons_append, List.nil_append, nothing, Except.ok.injEq, exists_and_left, exists_eq_left',
        interface.read_lettered_iff spellable found after none rest c others known]

theorem read_groups_apart (found after : Matches ι) (line : List (WordGroup ι)) (rest : List String)
    (formed : ∀ group ∈ line, interface.Forms group) :
    interface.readWords found none (line.flatMap interface.words ++ rest) = .ok after ↔
      ∃ middle, interface.enterAll found (line.flatMap interface.uses) = .ok middle ∧
        interface.readWords middle none rest = .ok after := by
  induction line generalizing found with
  | nil => simp [enterAll]
  | cons group more ih =>
      have later := fun found => ih found fun other member => formed other (List.mem_cons_of_mem group member)
      rw [List.flatMap_cons, List.flatMap_cons, List.append_assoc, enter_all_append,
        interface.read_group_apart spellable single found after group _ (formed group List.mem_cons_self)]
      simp only [later, bind_ok_iff]
      refine ⟨?_, ?_⟩
      · rintro ⟨first, entered, middle, others, read⟩
        exact ⟨middle, ⟨first, entered, others⟩, read⟩
      · rintro ⟨middle, ⟨first, entered, others⟩, read⟩
        exact ⟨first, entered, middle, others, read⟩

theorem read_grouped_iff (after : Matches ι) (before rest : List String) (grouped : interface.Grouped before) :
    interface.readWords [] none (before ++ rest) = .ok after ↔
      ∃ middle, interface.readWords [] none before = .ok middle ∧ interface.readWords middle none rest = .ok after := by
  obtain ⟨line, formed, rfl⟩ := grouped
  have front := interface.read_line_iff spellable line _ ⟨formed, .inl rfl⟩
  simp only [front, interface.read_groups_apart spellable single [] after line rest formed]

end Apart

-- Words between which an option can be given: none of them gives it, and those in front are whole groups.
structure LeavesRoom (interface : Interface ι) (option : ι) (before rest : List String) : Prop where
  unmentioned : ∀ word ∈ before ++ rest, interface.mentions option word = false
  grouped : interface.Grouped before

section Inserted

variable {interface} (spellable : interface.Spellable) (single : ∀ x, (interface.spec x).arity ≠ .many) {option : ι}
  (solitary : interface.Solitary option) (value : String) (before rest : List String)
include spellable single solitary

omit spellable single in
theorem entered_beside (middle first : Matches ι) (entered : interface.enter middle option [value] = .ok first) :
    interface.checkValues option [value] = .ok () ∧ Beside option none (some ⟨option, [value], 1⟩) middle first := by
  obtain ⟨new, made, lookups⟩ := interface.enter_ok middle first option [value] entered
  obtain ⟨_, absent, passes, written⟩ := (interface.entry_single_iff _ option [value] new solitary.single).mp made
  refine ⟨passes, ?_, absent, ?_⟩
  · intro x apart
    rw [lookups, if_neg apart]
  · rw [lookups, if_pos rfl, written]

theorem read_without (whole : Matches ι)
    (read : interface.readWords [] none (before ++ interface.attached (option, value) :: rest) = .ok whole) :
    interface.Grouped before ∧ interface.checkValues option [value] = .ok () ∧
      ∃ bare, interface.readWords [] none (before ++ rest) = .ok bare ∧
        Beside option none (some ⟨option, [value], 1⟩) bare whole := by
  obtain ⟨unended, middle, front⟩ :=
    interface.read_in_front [] none option value before rest solitary.attachable whole read
  have grouped := interface.grouped_of_unended before middle unended front
  rw [interface.read_behind [] none option value before rest solitary.attachable middle unended front, bind_ok_iff] at read
  obtain ⟨first, entered, behind⟩ := read
  obtain ⟨passes, beside⟩ := entered_beside solitary value middle first entered
  -- The words behind cannot give the option again.
  obtain ⟨bare, reached, alike⟩ := read_words_beside rest (beside_symm option _ _ _ _ beside) none
    (fun _ member => (nomatch member)) (fun _ _ _ => single_refuses _ solitary.single rfl) behind
  have without := (interface.read_grouped_iff spellable single bare before rest grouped).mpr ⟨middle, front, reached⟩
  exact ⟨grouped, passes, bare, without, beside_symm option _ _ _ _ alike⟩

variable (room : interface.LeavesRoom option before rest)
include room

theorem read_room (bare : Matches ι) (read : interface.readWords [] none (before ++ rest) = .ok bare) :
    ∃ middle, middle.find? option = none ∧ interface.readWords middle none rest = .ok bare ∧
      interface.readWords [] none (before ++ interface.attached (option, value) :: rest) =
        (interface.enter middle option [value]).bind fun first => interface.readWords first none rest := by
  obtain ⟨middle, front, behind⟩ := (interface.read_grouped_iff spellable single bare before rest room.grouped).mp read
  have unended := interface.grouped_unended spellable before room.grouped
  have silent : ∀ word ∈ before, interface.mentions option word = false := fun word member =>
    room.unmentioned word (List.mem_append_left rest member)
  exact ⟨middle, interface.read_words_unmentioned option before silent middle front, behind,
    interface.read_behind [] none option value before rest solitary.attachable middle unended front⟩

theorem read_with (bare : Matches ι) (passes : interface.checkValues option [value] = .ok ())
    (read : interface.readWords [] none (before ++ rest) = .ok bare) :
    ∃ whole, interface.readWords [] none (before ++ interface.attached (option, value) :: rest) = .ok whole ∧
      Beside option none (some ⟨option, [value], 1⟩) bare whole := by
  obtain ⟨middle, absent, behind, same⟩ := read_room spellable single solitary value before rest room bare read
  have made : interface.entry (middle.find? option) option [value] = .ok ⟨option, [value], 1⟩ :=
    (interface.entry_single_iff _ option [value] _ solitary.single).mpr ⟨List.cons_ne_nil value [], absent, passes, rfl⟩
  obtain ⟨first, entered, _⟩ := interface.enter_of_entry middle option [value] _ made
  obtain ⟨_, beside⟩ := entered_beside solitary value middle first entered
  have silent : ∀ word ∈ rest, interface.mentions option word = false := fun word member =>
    room.unmentioned word (List.mem_append_right before member)
  obtain ⟨whole, reached, alike⟩ := interface.read_words_apart option rest silent _ _ middle first bare beside behind
  rw [same, entered]
  exact ⟨whole, reached, alike⟩

theorem read_refused (bare : Matches ι) (stop : Stop) (refused : interface.checkValues option [value] = .error stop)
    (read : interface.readWords [] none (before ++ rest) = .ok bare) :
    interface.readWords [] none (before ++ interface.attached (option, value) :: rest) = .error stop := by
  obtain ⟨middle, absent, _, same⟩ := read_room spellable single solitary value before rest room bare read
  have entered : interface.enter middle option [value] = .error stop := by
    simp [enter, solitary.single, Matches.given, absent, refused, Except.map]
  rw [same, entered]
  rfl

end Inserted

section Parsed

variable {interface} {option : ι} (solitary : interface.Solitary option)
  (alone : (interface.spec option).variableName = none) (environment : Environment)
include solitary alone

theorem parsed_beside (first second found : Matches ι) (old new : Option (Match ι))
    (beside : Beside option old new first second)
    (environed : interface.readEnvironment environment first interface.options = .ok found)
    (checked : interface.checkTogether found = .ok found) :
    ∃ other, interface.readEnvironment environment second interface.options = .ok other ∧
      interface.checkTogether other = .ok other ∧ Beside option old new found other := by
  have unset : interface.setting? environment option = none := by
    rw [setting?, alone, Option.bind_none]
  obtain ⟨other, reached, alike, kept⟩ := interface.environment_apart environment first second found option
    interface.options beside.beside (.inr unset) environed
  have together := interface.check_together_apart found other option alike solitary.unrequired
    (fun x _ _ => solitary.compatible x) checked
  have before := interface.environment_alone environment first found option alone environed
  exact ⟨other, reached, together, alike, before.trans beside.first, kept.trans beside.second⟩

variable (spellable : interface.Spellable) (single : ∀ x, (interface.spec x).arity ≠ .many) (value : String)
  (before rest : List String)
include spellable single

theorem parse_without (whole : Matches ι)
    (parsed : interface.parse environment (before ++ interface.attached (option, value) :: rest) = .ok whole) :
    interface.LeavesRoom option before rest ∧ interface.checkValues option [value] = .ok () ∧
      ∃ found, interface.parse environment (before ++ rest) = .ok found ∧
        Beside option none (some ⟨option, [value], 1⟩) found whole := by
  obtain ⟨second, read, environed, checked⟩ := (interface.parse_iff environment _ whole).mp parsed
  obtain ⟨grouped, passes, first, without, beside⟩ := read_without spellable single solitary value before rest second read
  obtain ⟨found, reached, together, alike⟩ := parsed_beside solitary alone environment second first whole _ _
    (beside_symm option _ _ _ _ beside) environed checked
  have unmentioned : ∀ word ∈ before ++ rest, interface.mentions option word = false := by
    intro word member
    rw [← Bool.not_eq_true]
    intro mentioned
    have given := (interface.given_iff_mentioned option first _ without).mpr ⟨word, member, mentioned⟩
    rw [Matches.given, beside.first] at given
    cases given
  exact ⟨⟨unmentioned, grouped⟩, passes, found,
    (interface.parse_iff environment _ found).mpr ⟨first, without, reached, together⟩, beside_symm option _ _ _ _ alike⟩

variable (room : interface.LeavesRoom option before rest) (found : Matches ι)
  (parsed : interface.parse environment (before ++ rest) = .ok found)
include room parsed

theorem parse_with (passes : interface.checkValues option [value] = .ok ()) :
    ∃ whole, interface.parse environment (before ++ interface.attached (option, value) :: rest) = .ok whole ∧
      Beside option none (some ⟨option, [value], 1⟩) found whole := by
  obtain ⟨first, read, environed, checked⟩ := (interface.parse_iff environment _ found).mp parsed
  obtain ⟨second, reads, beside⟩ := read_with spellable single solitary value before rest room first passes read
  obtain ⟨whole, reached, together, alike⟩ :=
    parsed_beside solitary alone environment first second found _ _ beside environed checked
  exact ⟨whole, (interface.parse_iff environment _ whole).mpr ⟨second, reads, reached, together⟩, alike⟩

omit alone in
theorem parse_refused (stop : Stop) (refused : interface.checkValues option [value] = .error stop) :
    interface.parse environment (before ++ interface.attached (option, value) :: rest) = .error stop := by
  obtain ⟨first, read, _, _⟩ := (interface.parse_iff environment _ found).mp parsed
  rw [parse, read_refused spellable single solitary value before rest room first stop refused read]
  rfl

end Parsed
end Interface
end Devnet.CommandLine
