import Devnet.Proofs.CommandLine.Beside

set_option autoImplicit false

namespace Devnet.CommandLine

variable {ι : Type} [DecidableEq ι]

namespace Interface

def InPlay (option : ι) (found : Matches ι) (pending : Option (Pending ι)) : Prop :=
  found.given option = true ∨ ∃ current ∈ pending, current.option = option

variable (interface : Interface ι) (option : ι)

section Step

variable (found after : Matches ι)

theorem enter_given (x : ι) (values : List String) (played : found.given option = true ∨ option = x)
    (entered : interface.enter found x values = .ok after) : after.given option = true := by
  obtain ⟨made, _, lookups⟩ := interface.enter_ok found after x values entered
  rw [Matches.given, lookups]
  by_cases this : option = x
  · rw [if_pos this]
    rfl
  · rw [if_neg this]
    exact played.resolve_right this

theorem settle_given (pending : Option (Pending ι)) (played : InPlay option found pending)
    (settled : interface.settle found pending = .ok after) : after.given option = true := by
  cases pending with
  | none =>
      cases settled
      rcases played with given | ⟨_, member, _⟩
      · exact given
      · cases member
  | some current =>
      apply interface.enter_given option found after current.option current.values _ settled
      rcases played with given | ⟨opened, member, this⟩
      · exact .inl given
      · exact .inr (Option.some.inj member ▸ this.symm)

theorem enter_letters_given (chars : List Char)
    (played : found.given option = true ∨ ∃ c ∈ chars, interface.short? c = some option)
    (entered : interface.enterLetters found chars = .ok after) : after.given option = true := by
  induction chars generalizing found with
  | nil =>
      cases entered
      rcases played with given | ⟨_, member, _⟩
      · exact given
      · cases member
  | cons c rest ih =>
      rw [enterLetters] at entered
      cases lettered : interface.short? c with
      | none =>
          rw [lettered] at entered
          cases entered
      | some x =>
          simp only [lettered] at entered
          cases first : interface.enter found x [] with
          | error stop =>
              rw [first] at entered
              cases entered
          | ok middle =>
              rw [first] at entered
              apply ih middle _ entered
              rcases played with given | ⟨d, member, this⟩
              · exact .inl (interface.enter_given option found middle x [] (.inl given) first)
              · rcases List.mem_cons.mp member with head | later
                · rw [head, lettered] at this
                  have entering := (Option.some.inj this).symm
                  exact .inl (interface.enter_given option found middle x [] (.inr entering) first)
                · exact .inr ⟨d, later, this⟩

theorem read_letters_given (chars : List Char)
    (played : found.given option = true ∨ ∃ c ∈ chars, interface.short? c = some option)
    (read : interface.readLetters found none chars = .ok after) : after.given option = true :=
  interface.enter_letters_given option found after chars played ((interface.read_letters_iff found after chars).mp read)

theorem enter_closed_given (x : ι) (values : List String) (step : Matches ι × Option (Pending ι))
    (played : found.given option = true ∨ option = x)
    (read : (interface.enter found x values).map (fun found => (found, none)) = .ok step) :
    InPlay option step.1 step.2 := by
  obtain ⟨middle, entered, closed⟩ := (interface.closed_iff found x values step).mp read
  rw [closed]
  exact .inl (interface.enter_given option found middle x values played entered)

theorem read_long_given (name : String) (given : Option String) (step : Matches ι × Option (Pending ι))
    (played : found.given option = true ∨ interface.long? name = some option)
    (read : interface.readLong found none name given = .ok step) : InPlay option step.1 step.2 := by
  unfold readLong at read
  cases known : interface.long? name with
  | none =>
      simp only [known] at read
      cases read
  | some x =>
      have entering : found.given option = true ∨ option = x := by
        rcases played with held | this
        · exact .inl held
        · exact .inr (Option.some.inj (known.symm.trans this)).symm
      simp only [known, settle] at read
      by_cases takes : (interface.spec x).takesValue = true
      · rw [if_pos takes] at read
        cases given with
        | none =>
            cases read
            rcases entering with held | this
            · exact .inl held
            · exact .inr ⟨⟨x, []⟩, rfl, this.symm⟩
        | some text => exact interface.enter_closed_given option found x [text] step entering read
      · rw [if_neg takes] at read
        cases given with
        | some text => cases read
        | none => exact interface.enter_closed_given option found x [] step entering read

theorem read_alone_given (word : String) (step : Matches ι × Option (Pending ι))
    (played : found.given option = true ∨ interface.mentions option word = true)
    (read : interface.readWord found none word = .ok step) : InPlay option step.1 step.2 := by
  unfold readWord at read
  cases form : Word.ofText word with
  | terminator =>
      simp only [form] at read
      cases read
  | long name given =>
      simp only [form] at read
      simp only [mentions, form, decide_eq_true_eq] at played
      exact interface.read_long_given option found name given step played read
  | letters chars =>
      simp only [form] at read
      simp only [mentions, form, List.any_eq_true, decide_eq_true_eq] at played
      cases letters : interface.readLetters found none chars with
      | error stop =>
          rw [letters] at read
          cases read
      | ok middle =>
          rw [letters] at read
          cases read
          exact .inl (interface.read_letters_given option found middle chars played letters)
  | plain text =>
      simp only [form] at read
      cases read

theorem read_word_given (pending : Option (Pending ι)) (word : String) (step : Matches ι × Option (Pending ι))
    (played : InPlay option found pending ∨ interface.mentions option word = true)
    (read : interface.readWord found pending word = .ok step) : InPlay option step.1 step.2 := by
  rcases interface.read_word_cases found pending word step read with ⟨middle, settled, alone⟩ | taken
  · apply interface.read_alone_given option middle word step _ alone
    rcases played with before | mentioned
    · exact .inl (interface.settle_given option found middle pending before settled)
    · exact .inr mentioned
  · obtain ⟨current, text, opened, more, form, grown⟩ := taken
    rw [grown]
    rcases played with (held | ⟨waiting, member, this⟩) | mentioned
    · exact .inl held
    · rw [opened] at member
      exact .inr ⟨_, rfl, Option.some.inj member ▸ this⟩
    · simp only [mentions, form] at mentioned
      cases mentioned

end Step

theorem read_words_given (found after : Matches ι) (pending : Option (Pending ι)) (words : List String)
    (played : InPlay option found pending ∨ ∃ word ∈ words, interface.mentions option word = true)
    (read : interface.readWords found pending words = .ok after) : after.given option = true := by
  induction words generalizing found pending with
  | nil =>
      rcases played with before | ⟨_, member, _⟩
      · exact interface.settle_given option found after pending before read
      · cases member
  | cons word rest ih =>
      rcases (interface.read_words_cons_iff found after pending word rest).mp read with ⟨form, last, settled⟩ | ⟨step, first, behind⟩
      · -- A terminator mentions nothing.
        apply interface.settle_given option found after pending _ settled
        rcases played with before | ⟨other, member, mentioned⟩
        · exact before
        · rw [last, List.mem_singleton] at member
          simp only [member, mentions, form] at mentioned
          cases mentioned
      · apply ih step.1 step.2 _ behind
        rcases played with before | ⟨other, member, mentioned⟩
        · exact .inl (interface.read_word_given option found pending word step (.inl before) first)
        · rcases List.mem_cons.mp member with head | later
          · exact .inl (interface.read_word_given option found pending word step (.inr (head ▸ mentioned)) first)
          · exact .inr ⟨other, later, mentioned⟩

theorem given_iff_mentioned (after : Matches ι) (words : List String)
    (read : interface.readWords [] none words = .ok after) :
    after.given option = true ↔ ∃ word ∈ words, interface.mentions option word = true := by
  refine ⟨fun given => ?_, fun mentioned => interface.read_words_given option [] after none words (.inr mentioned) read⟩
  by_contra unmentioned
  have silent : ∀ word ∈ words, interface.mentions option word = false := by
    intro word member
    rw [← Bool.not_eq_true]
    exact fun mentioned => unmentioned ⟨word, member, mentioned⟩
  rw [Matches.given, interface.read_words_unmentioned option words silent after read] at given
  cases given

end Interface
end Devnet.CommandLine
