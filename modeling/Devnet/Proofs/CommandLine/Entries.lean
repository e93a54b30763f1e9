import Devnet.Proofs.CommandLine.Attached

set_option autoImplicit false

namespace Devnet.CommandLine

variable {ι : Type} [DecidableEq ι]

namespace Matches

variable (found : Matches ι) (option other : ι)

theorem find_snoc (entry : Match ι) (fresh : found.find? entry.option = none) :
    Matches.find? (found ++ [entry]) other = if other = entry.option then some entry else found.find? other := by
  simp only [find?] at fresh ⊢
  by_cases same : other = entry.option
  · rw [if_pos same, same, List.find?_append, fresh]
    simp
  · have differs : ¬ entry.option = other := fun eq => same eq.symm
    rw [if_neg same, List.find?_append]
    simp [differs]

theorem find_without : (found.without option).find? other = if other = option then none else found.find? other := by
  simp only [find?, without, List.find?_filter]
  by_cases same : other = option
  · rw [if_pos same, List.find?_eq_none]
    intro entry _ both
    simp [same] at both
  · rw [if_neg same]
    congr 1
    funext entry
    by_cases hit : entry.option = other
    · simp [hit, same]
    · simp [hit]

theorem find_append (values : List String) :
    (found.append option values).find? other =
      if other = option then
        some ((found.find? option).elim ⟨option, values, 1⟩ fun entry => { entry with values := entry.values ++ values })
      else found.find? other := by
  cases present : found.find? option with
  | none =>
      have absent : ¬ found.given option = true := by simp [given, present]
      rw [append, if_neg absent, find_snoc found other ⟨option, values, 1⟩ present]
      rfl
  | some old =>
      have there : found.given option = true := by simp [given, present]
      rw [append, if_pos there, find_map_values]
      by_cases same : other = option
      · rw [if_pos same, same, present]
        simp [option_of_find found option old present]
      · rw [if_neg same]
        cases missing : found.find? other with
        | none => rfl
        | some entry => simp [option_of_find found other entry missing, same]

end Matches

namespace Interface

variable (interface : Interface ι)

def entry (old : Option (Match ι)) (option : ι) (values : List String) : Except Stop (Match ι) :=
  match (interface.spec option).arity with
  | .help => .error .help
  | .version => .error .version
  | .flag =>
      if old.isSome then .error (.rejected (.repeated (interface.display option))) else .ok ⟨option, [], 1⟩
  | .count => .ok ⟨option, [], min countLimit ((old.elim 0 Match.uses) + 1)⟩
  | .one =>
      if values.isEmpty then .error (.rejected (.missingValue (interface.display option)))
      else if old.isSome then .error (.rejected (.repeated (interface.display option)))
      else (interface.checkValues option values).map fun _ => ⟨option, values, 1⟩
  | .many =>
      (interface.checkValues option values).map fun _ =>
        old.elim ⟨option, values, 1⟩ fun entry => { entry with values := entry.values ++ values }

section Values

variable (old : Option (Match ι)) (option : ι) (values : List String) (new : Match ι)
omit [DecidableEq ι]

theorem entry_single_iff (single : (interface.spec option).arity = .one) :
    interface.entry old option values = .ok new ↔
      values ≠ [] ∧ old = none ∧ interface.checkValues option values = .ok () ∧ new = ⟨option, values, 1⟩ := by
  rw [entry, single]
  cases values with
  | nil => simp
  | cons value rest =>
      cases old with
      | some before => simp
      | none =>
          cases interface.checkValues option (value :: rest) with
          | error stop => simp [Except.map]
          | ok _ => simp [Except.map, eq_comm]

theorem entry_many_iff (many : (interface.spec option).arity = .many) :
    interface.entry old option values = .ok new ↔
      interface.checkValues option values = .ok () ∧
        new = old.elim ⟨option, values, 1⟩ fun entry => { entry with values := entry.values ++ values } := by
  rw [entry, many]
  cases interface.checkValues option values with
  | error stop => simp [Except.map]
  | ok _ => simp [Except.map, eq_comm]

end Values

theorem enter_entry (found : Matches ι) (option : ι) (values : List String) :
    match interface.entry (found.find? option) option values with
    | .error stop => interface.enter found option values = .error stop
    | .ok new => ∃ after, interface.enter found option values = .ok after ∧
        ∀ other, after.find? other = if other = option then some new else found.find? other := by
  have snoc (values : List String) (uses : Nat) (absent : ¬ (found.find? option).isSome = true) (other : ι) :
      Matches.find? (found ++ [⟨option, values, uses⟩]) other =
        if other = option then some ⟨option, values, uses⟩ else found.find? other :=
    found.find_snoc other ⟨option, values, uses⟩ (Option.not_isSome_iff_eq_none.mp absent)
  unfold entry enter
  cases arity : (interface.spec option).arity with
  | help => rfl
  | version => rfl
  | flag =>
      by_cases present : (found.find? option).isSome = true
      · simp only [Matches.given, present, if_pos]
      · simp only [Matches.given, present, Bool.false_eq_true]
        exact ⟨_, rfl, snoc [] 1 present⟩
  | count =>
      have gone : (found.without option).find? option = none := by rw [Matches.find_without, if_pos rfl]
      have uses : found.uses option = (found.find? option).elim 0 Match.uses := by
        rw [Matches.uses]
        cases found.find? option with
        | none => rfl
        | some old => rfl
      refine ⟨_, rfl, fun other => ?_⟩
      rw [Matches.find_snoc _ other _ gone, uses]
      by_cases same : other = option
      · rw [if_pos same, if_pos same]
      · rw [if_neg same, if_neg same, Matches.find_without, if_neg same]
  | one =>
      by_cases empty : values.isEmpty = true
      · simp only [empty, if_pos]
      · by_cases present : (found.find? option).isSome = true
        · simp only [empty, Matches.given, present, if_pos, Bool.false_eq_true, if_false]
        · simp only [empty, Matches.given, present, Bool.false_eq_true, if_false]
          cases interface.checkValues option values with
          | error stop => rfl
          | ok _ => exact ⟨_, rfl, snoc values 1 present⟩
  | many =>
      cases interface.checkValues option values with
      | error stop => rfl
      | ok _ => exact ⟨_, rfl, fun other => found.find_append option other values⟩

theorem enter_ok (found after : Matches ι) (option : ι) (values : List String)
    (entered : interface.enter found option values = .ok after) :
    ∃ new, interface.entry (found.find? option) option values = .ok new ∧
      ∀ other, after.find? other = if other = option then some new else found.find? other := by
  have step := interface.enter_entry found option values
  cases made : interface.entry (found.find? option) option values with
  | error stop =>
      rw [made] at step
      cases step.symm.trans entered
  | ok new =>
      rw [made] at step
      obtain ⟨same, reached, lookups⟩ := step
      cases reached.symm.trans entered
      exact ⟨new, rfl, lookups⟩

theorem enter_of_entry (found : Matches ι) (option : ι) (values : List String) (new : Match ι)
    (made : interface.entry (found.find? option) option values = .ok new) :
    ∃ after, interface.enter found option values = .ok after ∧
      ∀ other, after.find? other = if other = option then some new else found.find? other := by
  have step := interface.enter_entry found option values
  rw [made] at step
  exact step

def readWord (found : Matches ι) (pending : Option (Pending ι)) (word : String) :
    Except Stop (Matches ι × Option (Pending ι)) :=
  match Word.ofText word with
  | .terminator => .error (.rejected (.unexpectedArgument word))
  | .long name value => interface.readLong found pending name value
  | .letters chars => (interface.readLetters found pending chars).map fun found => (found, none)
  | .plain text =>
      match pending with
      | none => .error (.rejected (.unexpectedArgument text))
      | some current =>
          if interface.takesMore current then .ok (found, some { current with values := current.values ++ [text] })
          else .error (.rejected (.unexpectedArgument text))

-- A terminator is accepted as the last word alone.
theorem read_words_cons_iff (found after : Matches ι) (pending : Option (Pending ι)) (word : String) (rest : List String) :
    interface.readWords found pending (word :: rest) = .ok after ↔
      (Word.ofText word = .terminator ∧ rest = [] ∧ interface.settle found pending = .ok after) ∨
        ∃ step, interface.readWord found pending word = .ok step ∧ interface.readWords step.1 step.2 rest = .ok after := by
  rw [readWords.eq_def, readWord]
  cases form : Word.ofText word with
  | terminator =>
      cases rest with
      | nil => simp [form]
      | cons next more => simp [form]
  | long name given =>
      cases long : interface.readLong found pending name given with
      | error stop => simp [form, long]
      | ok step => simp [form, long]
  | letters chars =>
      cases letters : interface.readLetters found pending chars with
      | error stop => simp [form, letters, Except.map]
      | ok middle => simp [form, letters, Except.map]
  | plain text =>
      cases pending with
      | none => simp [form]
      | some current =>
          by_cases more : interface.takesMore current = true
          · simp [form, more]
          · simp [form, more]

section Alone

variable (found after : Matches ι)

theorem read_letters_iff (chars : List Char) :
    interface.readLetters found none chars = .ok after ↔ interface.enterLetters found chars = .ok after := by
  cases chars with
  | nil => exact Iff.rfl
  | cons c rest =>
      rw [readLetters]
      cases lettered : interface.short? c with
      | none => simp [enterLetters, lettered]
      | some option => exact Iff.rfl

theorem closed_iff (option : ι) (values : List String) (step : Matches ι × Option (Pending ι)) :
    (interface.enter found option values).map (fun found => (found, none)) = .ok step ↔
      ∃ after, interface.enter found option values = .ok after ∧ step = (after, none) := by
  cases interface.enter found option values with
  | error stop => simp [Except.map]
  | ok next => simp [Except.map, eq_comm]

end Alone

section Settled

variable (found middle : Matches ι) (pending : Option (Pending ι))

theorem read_long_settles (name : String) (given : Option String) (step : Matches ι × Option (Pending ι))
    (read : interface.readLong found pending name given = .ok step) :
    ∃ middle, interface.settle found pending = .ok middle ∧ interface.readLong middle none name given = .ok step := by
  unfold readLong at read ⊢
  cases known : interface.long? name with
  | none =>
      simp only [known] at read
      cases read
  | some x =>
      simp only [known] at read ⊢
      cases settled : interface.settle found pending with
      | error stop =>
          simp only [settled] at read
          split at read
          · cases read
          · split at read
            · cases read
            · cases read
      | ok middle =>
          simp only [settled] at read
          exact ⟨middle, rfl, read⟩

theorem read_letters_settles (chars : List Char) (after : Matches ι) (filled : chars ≠ [])
    (read : interface.readLetters found pending chars = .ok after) :
    ∃ middle, interface.settle found pending = .ok middle ∧ interface.readLetters middle none chars = .ok after := by
  unfold readLetters at read ⊢
  cases chars with
  | nil => exact absurd rfl filled
  | cons c rest =>
      cases lettered : interface.short? c with
      | none =>
          simp only [lettered] at read
          cases read
      | some x =>
          simp only [lettered] at read ⊢
          cases settled : interface.settle found pending with
          | error stop =>
              rw [settled] at read
              cases read
          | ok middle =>
              rw [settled] at read
              exact ⟨middle, rfl, read⟩

variable (settled : interface.settle found pending = .ok middle)
include settled

theorem read_long_settled (name : String) (given : Option String) :
    interface.readLong found pending name given = interface.readLong middle none name given := by
  have nothing : interface.settle middle none = .ok middle := rfl
  unfold readLong
  rw [settled, nothing]

theorem read_letters_settled (chars : List Char) (filled : chars ≠ []) :
    interface.readLetters found pending chars = interface.readLetters middle none chars := by
  have nothing : interface.settle middle none = .ok middle := rfl
  unfold readLetters
  cases chars with
  | nil => exact absurd rfl filled
  | cons c rest =>
      dsimp only
      rw [settled, nothing]

end Settled

theorem letters_nonempty (word : String) (chars : List Char) (form : Word.ofText word = .letters chars) : chars ≠ [] := by
  unfold Word.ofText at form
  split at form
  · cases form
  · cases form
  · cases form
    exact List.cons_ne_nil _ _
  · cases form

theorem read_word_cases (found : Matches ι) (pending : Option (Pending ι)) (word : String)
    (step : Matches ι × Option (Pending ι)) (read : interface.readWord found pending word = .ok step) :
    (∃ middle, interface.settle found pending = .ok middle ∧ interface.readWord middle none word = .ok step) ∨
      ∃ current text, pending = some current ∧ interface.takesMore current = true ∧ Word.ofText word = .plain text ∧
        step = (found, some { current with values := current.values ++ [text] }) := by
  unfold readWord at read ⊢
  cases form : Word.ofText word with
  | terminator =>
      simp only [form] at read
      cases read
  | long name given =>
      simp only [form] at read ⊢
      exact .inl (interface.read_long_settles found pending name given step read)
  | letters chars =>
      simp only [form] at read ⊢
      cases letters : interface.readLetters found pending chars with
      | error stop =>
          rw [letters] at read
          cases read
      | ok after =>
          obtain ⟨middle, settled, alike⟩ := interface.read_letters_settles found pending chars after
            (letters_nonempty word chars form) letters
          rw [letters] at read
          exact .inl ⟨middle, settled, by rw [alike]; exact read⟩
  | plain text =>
      simp only [form] at read ⊢
      cases pending with
      | none => cases read
      | some current =>
          by_cases more : interface.takesMore current = true
          · simp only [more, if_pos] at read
            exact .inr ⟨current, text, rfl, more, rfl, (Except.ok.inj read).symm⟩
          · simp only [more] at read
            cases read

theorem read_word_settled (found middle : Matches ι) (pending : Option (Pending ι)) (word : String)
    (step : Matches ι × Option (Pending ι)) (settled : interface.settle found pending = .ok middle)
    (alone : interface.readWord middle none word = .ok step) : interface.readWord found pending word = .ok step := by
  unfold readWord at alone ⊢
  cases form : Word.ofText word with
  | terminator =>
      simp only [form] at alone
      cases alone
  | long name given =>
      simp only [form] at alone ⊢
      rw [interface.read_long_settled found middle pending settled, alone]
  | letters chars =>
      simp only [form] at alone ⊢
      rw [interface.read_letters_settled found middle pending settled chars (letters_nonempty word chars form), alone]
  | plain text =>
      simp only [form] at alone
      cases alone

theorem read_word_taken (found : Matches ι) (current : Pending ι) (word text : String)
    (more : interface.takesMore current = true) (form : Word.ofText word = .plain text) :
    interface.readWord found (some current) word =
      .ok (found, some { current with values := current.values ++ [text] }) := by
  unfold readWord
  simp only [form, more, if_pos]

theorem read_filled_iff (found after : Matches ι) (pending : Pending ι) (words : List String)
    (filled : interface.takesMore pending = false) :
    interface.readWords found (some pending) words = .ok after ↔
      ∃ middle, interface.settle found (some pending) = .ok middle ∧ interface.readWords middle none words = .ok after := by
  cases words with
  | nil =>
      refine ⟨fun settled => ⟨after, settled, rfl⟩, ?_⟩
      rintro ⟨middle, settled, same⟩
      cases same
      exact settled
  | cons word rest =>
      simp only [read_words_cons_iff]
      refine ⟨?_, ?_⟩
      · rintro (⟨form, last, settled⟩ | ⟨step, read, behind⟩)
        · exact ⟨after, settled, .inl ⟨form, last, rfl⟩⟩
        · rcases interface.read_word_cases found (some pending) word step read with ⟨middle, settled, alone⟩ | taken
          · exact ⟨middle, settled, .inr ⟨step, alone, behind⟩⟩
          · obtain ⟨current, text, same, more, _, _⟩ := taken
            cases same
            exact absurd (filled.symm.trans more) Bool.false_ne_true
      · rintro ⟨middle, settled, ⟨form, last, same⟩ | ⟨step, alone, behind⟩⟩
        · cases same
          exact .inl ⟨form, last, settled⟩
        · exact .inr ⟨step, interface.read_word_settled found middle (some pending) word step settled alone, behind⟩

theorem read_attached_iff (found after : Matches ι) (pending : Option (Pending ι)) (option : ι) (value : String)
    (rest : List String) (attachable : interface.Attachable option) :
    interface.readWords found pending (interface.attached (option, value) :: rest) = .ok after ↔
      ∃ middle first, interface.settle found pending = .ok middle ∧ interface.enter middle option [value] = .ok first ∧
        interface.readWords first none rest = .ok after := by
  rw [interface.read_attached_steps found pending option value rest attachable]
  cases interface.settle found pending with
  | error stop => simp [Except.bind]
  | ok middle =>
      cases entered : interface.enter middle option [value] with
      | error stop => simp [entered, Except.bind]
      | ok first => simp [entered, Except.bind]

end Interface
end Devnet.CommandLine
