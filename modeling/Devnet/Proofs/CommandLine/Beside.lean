import Devnet.Proofs.CommandLine.Entries

set_option autoImplicit false

namespace Devnet.CommandLine

variable {ι : Type} [DecidableEq ι]

namespace Interface

def mentions (interface : Interface ι) (option : ι) (word : String) : Bool :=
  match Word.ofText word with
  | .long name _ => interface.long? name = some option
  | .letters chars => chars.any fun c => interface.short? c = some option
  | _ => false

def Refuses (interface : Interface ι) (option : ι) (old : Option (Match ι)) : Prop :=
  ∀ values new, interface.entry old option values ≠ .ok new

-- Matches that are the same beside one option, which is `old` in the first and `new` in the second ones.
structure Beside (option : ι) (old new : Option (Match ι)) (found other : Matches ι) : Prop where
  beside : ∀ x, x ≠ option → other.find? x = found.find? x
  first : found.find? option = old
  second : other.find? option = new

theorem beside_symm (option : ι) (old new : Option (Match ι)) (found other : Matches ι)
    (same : Beside option old new found other) : Beside option new old other found :=
  ⟨fun x apart => (same.beside x apart).symm, same.second, same.first⟩

section Step

variable {interface : Interface ι} {option : ι} {old new : Option (Match ι)} {found other after : Matches ι}
  (same : Beside option old new found other)
include same

theorem enter_beside (x : ι) (values : List String) (refused : x = option → interface.Refuses option old)
    (entered : interface.enter found x values = .ok after) :
    ∃ next, interface.enter other x values = .ok next ∧ Beside option old new after next := by
  obtain ⟨made, written, lookups⟩ := interface.enter_ok found after x values entered
  have apart : x ≠ option := by
    intro this
    rw [this, same.first] at written
    exact refused this values made written
  obtain ⟨next, reached, others⟩ := interface.enter_of_entry other x values made (same.beside x apart ▸ written)
  have still : ¬ option = x := fun eq => apart eq.symm
  refine ⟨next, reached, ?_, ?_, ?_⟩
  · intro y beside
    rw [others, lookups, same.beside y beside]
  · rw [lookups, if_neg still, same.first]
  · rw [others, if_neg still, same.second]

theorem settle_beside (pending : Option (Pending ι))
    (refused : ∀ current ∈ pending, current.option = option → interface.Refuses option old)
    (settled : interface.settle found pending = .ok after) :
    ∃ next, interface.settle other pending = .ok next ∧ Beside option old new after next := by
  cases pending with
  | none =>
      cases settled
      exact ⟨other, rfl, same⟩
  | some current => exact enter_beside same current.option current.values (refused current rfl) settled

theorem enter_letters_beside (chars : List Char)
    (refused : ∀ c ∈ chars, interface.short? c = some option → interface.Refuses option old)
    (entered : interface.enterLetters found chars = .ok after) :
    ∃ next, interface.enterLetters other chars = .ok next ∧ Beside option old new after next := by
  induction chars generalizing found other with
  | nil =>
      cases entered
      exact ⟨other, rfl, same⟩
  | cons c rest ih =>
      rw [enterLetters] at entered ⊢
      cases lettered : interface.short? c with
      | none =>
          rw [lettered] at entered
          cases entered
      | some x =>
          simp only [lettered] at entered ⊢
          cases first : interface.enter found x [] with
          | error stop =>
              rw [first] at entered
              cases entered
          | ok middle =>
              rw [first] at entered
              obtain ⟨next, reached, beside⟩ :=
                enter_beside same x [] (fun this => refused c List.mem_cons_self (this ▸ lettered)) first
              rw [reached]
              exact ih beside (fun d member => refused d (List.mem_cons_of_mem c member)) entered

theorem read_letters_beside (chars : List Char)
    (refused : ∀ c ∈ chars, interface.short? c = some option → interface.Refuses option old)
    (read : interface.readLetters found none chars = .ok after) :
    ∃ next, interface.readLetters other none chars = .ok next ∧ Beside option old new after next := by
  obtain ⟨next, reached, beside⟩ :=
    enter_letters_beside same chars refused ((interface.read_letters_iff found after chars).mp read)
  exact ⟨next, (interface.read_letters_iff other next chars).mpr reached, beside⟩

theorem enter_closed_beside (x : ι) (values : List String) (still : Option (Pending ι))
    (refused : x = option → interface.Refuses option old)
    (read : (interface.enter found x values).map (fun found => (found, none)) = .ok (after, still)) :
    ∃ next, (interface.enter other x values).map (fun found => (found, none)) = .ok (next, still) ∧
      Beside option old new after next ∧
      ∀ current ∈ still, current.option = option → interface.Refuses option old := by
  obtain ⟨middle, entered, closed⟩ := (interface.closed_iff found x values _).mp read
  cases closed
  obtain ⟨next, reached, beside⟩ := enter_beside same x values refused entered
  exact ⟨next, (interface.closed_iff other x values _).mpr ⟨next, reached, rfl⟩, beside, fun _ member => (nomatch member)⟩

theorem read_long_beside (name : String) (given : Option String) (still : Option (Pending ι))
    (refused : interface.long? name = some option → interface.Refuses option old)
    (read : interface.readLong found none name given = .ok (after, still)) :
    ∃ next, interface.readLong other none name given = .ok (next, still) ∧ Beside option old new after next ∧
      ∀ current ∈ still, current.option = option → interface.Refuses option old := by
  unfold readLong at read ⊢
  cases known : interface.long? name with
  | none =>
      simp only [known] at read
      cases read
  | some x =>
      have free : x = option → interface.Refuses option old := fun this => refused (this ▸ known)
      simp only [known, settle] at read ⊢
      by_cases takes : (interface.spec x).takesValue = true
      · rw [if_pos takes] at read ⊢
        cases given with
        | none =>
            cases read
            refine ⟨other, rfl, same, ?_⟩
            intro current member this
            have opened := Option.some.inj member
            exact free (by rw [← this, ← opened])
        | some text => exact enter_closed_beside same x [text] still free read
      · rw [if_neg takes] at read ⊢
        cases given with
        | some text => cases read
        | none => exact enter_closed_beside same x [] still free read

theorem read_alone_beside (word : String) (still : Option (Pending ι))
    (refused : interface.mentions option word = true → interface.Refuses option old)
    (read : interface.readWord found none word = .ok (after, still)) :
    ∃ next, interface.readWord other none word = .ok (next, still) ∧ Beside option old new after next ∧
      ∀ current ∈ still, current.option = option → interface.Refuses option old := by
  unfold readWord at read ⊢
  cases form : Word.ofText word with
  | terminator =>
      simp only [form] at read
      cases read
  | long name given =>
      simp only [form] at read ⊢
      apply read_long_beside same name given still _ read
      intro known
      exact refused (by simp only [mentions, form, known, decide_true])
  | letters chars =>
      simp only [form] at read ⊢
      cases letters : interface.readLetters found none chars with
      | error stop =>
          rw [letters] at read
          cases read
      | ok middle =>
          rw [letters] at read
          cases read
          have unlettered : ∀ c ∈ chars, interface.short? c = some option → interface.Refuses option old := by
            intro c member lettered
            apply refused
            simp only [mentions, form, List.any_eq_true, decide_eq_true_eq]
            exact ⟨c, member, lettered⟩
          obtain ⟨next, reached, beside⟩ := read_letters_beside same chars unlettered letters
          rw [reached]
          exact ⟨next, rfl, beside, fun _ member => (nomatch member)⟩
  | plain text =>
      simp only [form] at read
      cases read

theorem read_word_beside (pending : Option (Pending ι)) (word : String) (step : Matches ι × Option (Pending ι))
    (waiting : ∀ current ∈ pending, current.option = option → interface.Refuses option old)
    (refused : interface.mentions option word = true → interface.Refuses option old)
    (read : interface.readWord found pending word = .ok step) :
    ∃ next, interface.readWord other pending word = .ok (next, step.2) ∧ Beside option old new step.1 next ∧
      ∀ current ∈ step.2, current.option = option → interface.Refuses option old := by
  rcases interface.read_word_cases found pending word step read with ⟨middle, settled, alone⟩ | taken
  · obtain ⟨second, reached, alike⟩ := settle_beside same pending waiting settled
    obtain ⟨next, final, beside, free⟩ := read_alone_beside alike word step.2 refused alone
    exact ⟨next, interface.read_word_settled other second pending word _ reached final, beside, free⟩
  · obtain ⟨current, text, opened, more, form, grown⟩ := taken
    rw [opened, grown]
    refine ⟨other, interface.read_word_taken other current word text more form, same, ?_⟩
    intro next member this
    have same_option := Option.some.inj member
    exact waiting current (by rw [opened]; rfl) (by rw [← this, ← same_option])

end Step

theorem read_words_beside {interface : Interface ι} {option : ι} {old new : Option (Match ι)}
    {found other after : Matches ι} (words : List String) (same : Beside option old new found other)
    (pending : Option (Pending ι))
    (waiting : ∀ current ∈ pending, current.option = option → interface.Refuses option old)
    (refused : ∀ word ∈ words, interface.mentions option word = true → interface.Refuses option old)
    (read : interface.readWords found pending words = .ok after) :
    ∃ next, interface.readWords other pending words = .ok next ∧ Beside option old new after next := by
  induction words generalizing found other pending with
  | nil => exact settle_beside same pending waiting read
  | cons word rest ih =>
      rcases (interface.read_words_cons_iff found after pending word rest).mp read with ⟨form, last, settled⟩ | ⟨step, first, behind⟩
      · obtain ⟨next, reached, beside⟩ := settle_beside same pending waiting settled
        exact ⟨next, (interface.read_words_cons_iff other next pending word rest).mpr (.inl ⟨form, last, reached⟩), beside⟩
      · obtain ⟨middle, taken, beside, free⟩ :=
          read_word_beside same pending word step waiting (refused word List.mem_cons_self) first
        obtain ⟨next, reached, alike⟩ :=
          ih beside step.2 free (fun later member => refused later (List.mem_cons_of_mem word member)) behind
        exact ⟨next, (interface.read_words_cons_iff other next pending word rest).mpr (.inr ⟨_, taken, reached⟩), alike⟩

section Unmentioned

variable (interface : Interface ι) (option : ι) (words : List String)
  (unmentioned : ∀ word ∈ words, interface.mentions option word = false)
include unmentioned

theorem read_words_apart (old new : Option (Match ι)) (found other after : Matches ι)
    (same : Beside option old new found other) (read : interface.readWords found none words = .ok after) :
    ∃ next, interface.readWords other none words = .ok next ∧ Beside option old new after next :=
  read_words_beside words same none (fun _ member => (nomatch member))
    (fun word member mentioned => absurd (mentioned.symm.trans (unmentioned word member)) Bool.noConfusion) read

theorem read_words_unmentioned (after : Matches ι) (read : interface.readWords [] none words = .ok after) :
    after.find? option = none := by
  have nothing : Beside option none none [] ([] : Matches ι) := ⟨fun _ _ => rfl, rfl, rfl⟩
  obtain ⟨_, _, beside⟩ := interface.read_words_apart option words unmentioned none none [] [] after nothing read
  exact beside.first

end Unmentioned

end Interface
end Devnet.CommandLine
