import Devnet.Proofs.CommandLine.Again

set_option autoImplicit false

namespace Devnet.CommandLine

variable {ι : Type}

inductive WordGroup (ι : Type) where
  | named (option : ι) (values : List String)
  | attached (option : ι) (value : String)
  | letters (chars : List Char)
  deriving DecidableEq, Repr

-- A word that no option can be: it does not start with a dash, or it is nothing else.
def Unmarked (text : String) : Prop := text = "-" ∨ text.toList.head? ≠ some '-'

instance (text : String) : Decidable (Unmarked text) := inferInstanceAs (Decidable (_ ∨ _))

def Arity.admits : Arity → Nat → Bool
  | .one, number => number = 1
  | .many, _ => true
  | _, number => number = 0

theorem flag_admits (spec : Spec ι) (number : Nat) (alone : ¬ spec.takesValue = true) :
    spec.arity.admits number = decide (number = 0) := by
  rw [Spec.takesValue] at alone
  cases arity : spec.arity with
  | one => simp [arity] at alone
  | many => simp [arity] at alone
  | flag => rfl
  | count => rfl
  | help => rfl
  | version => rfl

namespace Interface

variable (interface : Interface ι)

structure Spellable (interface : Interface ι) : Prop where
  known : ∀ option, interface.long? (interface.spec option).long = some option
  plain : ∀ option, '=' ∉ (interface.spec option).long.toList
  named : ∀ option, (interface.spec option).long ≠ ""
  undashed : interface.short? '-' = none

def words : WordGroup ι → List String
  | .named option values => interface.bare option :: values
  | .attached option value => [interface.attached (option, value)]
  | .letters chars => [String.ofList ('-' :: chars)]

inductive Forms : WordGroup ι → Prop where
  | named (option : ι) (values : List String) (admitted : (interface.spec option).arity.admits values.length = true)
      (unmarked : ∀ value ∈ values, Unmarked value) : Forms (.named option values)
  | attached (option : ι) (value : String) (takes : (interface.spec option).takesValue = true) :
      Forms (.attached option value)
  | letters (c : Char) (more : List Char) (known : ∀ d ∈ c :: more, interface.short? d ≠ none) :
      Forms (.letters (c :: more))

instance (group : WordGroup ι) : Decidable (interface.Forms group) :=
  match group with
  | .named option values =>
      decidable_of_iff
        ((interface.spec option).arity.admits values.length = true ∧ ∀ value ∈ values, Unmarked value)
        ⟨fun both => .named option values both.1 both.2, fun formed => by cases formed; exact ⟨‹_›, ‹_›⟩⟩
  | .attached option value =>
      decidable_of_iff ((interface.spec option).takesValue = true)
        ⟨fun takes => .attached option value takes, fun formed => by cases formed; assumption⟩
  | .letters [] => .isFalse fun formed => nomatch formed
  | .letters (c :: more) =>
      -- By the letters that are there, and not by all characters.
      @decidable_of_iff _ (∀ d ∈ c :: more, interface.short? d ≠ none)
        ⟨fun known => .letters c more known, fun formed => by cases formed; assumption⟩
        (List.decidableBAll _ _)

-- A bare terminator may stand behind the groups.
structure Spells (line : List (WordGroup ι)) (words : List String) : Prop where
  formed : ∀ group ∈ line, interface.Forms group
  words : words = line.flatMap interface.words ∨ words = line.flatMap interface.words ++ ["--"]

def uses : WordGroup ι → List (ι × List String)
  | .named option values => [(option, values)]
  | .attached option value => [(option, [value])]
  | .letters chars => chars.filterMap fun c => (interface.short? c).map fun option => (option, [])

section Words

variable (word : String)

theorem word_unmarked (unmarked : Unmarked word) : Word.ofText word = .plain word := by
  rcases unmarked with dash | other
  · rw [dash]
    rfl
  · rw [Word.ofText]
    split
    case h_1 chars => simp [chars] at other
    case h_2 chars => simp [chars] at other
    case h_3 chars => simp [chars] at other
    case h_4 => rfl

theorem unmarked_of_word (text : String) (form : Word.ofText word = .plain text) : text = word ∧ Unmarked word := by
  unfold Word.ofText at form
  split at form
  case h_1 => cases form
  case h_2 => cases form
  case h_3 => cases form
  case h_4 terminator long letters =>
    refine ⟨(Word.plain.inj form).symm, ?_⟩
    rw [Unmarked, or_iff_not_imp_right, not_not]
    intro first
    obtain ⟨rest, chars⟩ := List.head?_eq_some_iff.mp first
    cases rest with
    | nil => rw [← String.toList_inj, chars]; rfl
    | cons c more => exact absurd chars (letters c more)

theorem terminator_word (form : Word.ofText word = .terminator) : word = "--" := by
  unfold Word.ofText at form
  split at form
  case h_1 chars =>
    rw [← String.toList_inj, chars]
    rfl
  case h_2 => cases form
  case h_3 => cases form
  case h_4 => cases form

theorem letters_word (chars : List Char) (form : Word.ofText word = .letters chars) : word = String.ofList ('-' :: chars) := by
  unfold Word.ofText at form
  split at form
  case h_1 => cases form
  case h_2 => cases form
  case h_3 same =>
    rw [← Word.letters.inj form, ← same, String.ofList_toList]
  case h_4 => cases form

theorem word_of_letters (c : Char) (more : List Char) (other : c ≠ '-') :
    Word.ofText (String.ofList ('-' :: c :: more)) = .letters (c :: more) := by
  unfold Word.ofText
  rw [String.toList_ofList]
  split
  case h_1 same => simp [other] at same
  case h_2 same => simp [other] at same
  case h_3 same => simpa using same.symm
  case h_4 others => exact absurd rfl (others c more)

theorem cut_at_equals (chars : List Char) :
    chars = chars.takeWhile (· ≠ '=') ++
      if chars.contains '=' then '=' :: (chars.dropWhile (· ≠ '=')).drop 1 else [] := by
  induction chars with
  | nil => rfl
  | cons c rest ih =>
      by_cases equals : c = '='
      · simp [equals]
      · have kept : (c :: rest).contains '=' = rest.contains '=' := by simp [Ne.symm equals]
        rw [List.takeWhile_cons_of_pos (by simpa using equals), List.dropWhile_cons_of_pos (by simpa using equals), kept,
          List.cons_append, ← ih]

theorem long_word (name : String) (value : Option String) (form : Word.ofText word = .long name value) :
    word = "--" ++ name ++ value.elim "" fun text => "=" ++ text := by
  unfold Word.ofText at form
  split at form
  case h_1 => cases form
  case h_2 rest _ same =>
    obtain ⟨named, valued⟩ := Word.long.inj form
    have cut := cut_at_equals rest
    by_cases present : rest.contains '=' = true
    · rw [if_pos present] at cut valued
      rw [← String.toList_inj, same, ← named, ← valued]
      simpa using cut
    · rw [if_neg present] at cut valued
      rw [← String.toList_inj, same, ← named, ← valued]
      simpa using cut
  case h_3 => cases form
  case h_4 => cases form

end Words

section Read

variable [DecidableEq ι]

def enterAll (interface : Interface ι) (found : Matches ι) : List (ι × List String) → Except Stop (Matches ι)
  | [] => .ok found
  | use :: rest => (interface.enter found use.1 use.2).bind fun next => enterAll interface next rest

theorem enter_all_append (found : Matches ι) (first second : List (ι × List String)) :
    interface.enterAll found (first ++ second) =
      (interface.enterAll found first).bind fun middle => interface.enterAll middle second := by
  induction first generalizing found with
  | nil => rfl
  | cons use rest ih =>
      rw [List.cons_append, enterAll, enterAll]
      cases interface.enter found use.1 use.2 with
      | error stop => rfl
      | ok next => exact ih next

theorem enter_letters_uses (found : Matches ι) (chars : List Char) (known : ∀ c ∈ chars, interface.short? c ≠ none) :
    interface.enterLetters found chars = interface.enterAll found (interface.uses (.letters chars)) := by
  induction chars generalizing found with
  | nil => rfl
  | cons c rest ih =>
      have later := fun next => ih next fun d member => known d (List.mem_cons_of_mem c member)
      cases lettered : interface.short? c with
      | none => exact absurd lettered (known c List.mem_cons_self)
      | some option =>
          have front : interface.uses (.letters (c :: rest)) = (option, []) :: interface.uses (.letters rest) := by
            rw [uses, List.filterMap_cons, lettered]
            rfl
          rw [front, enterLetters, enterAll]
          simp only [lettered]
          cases interface.enter found option [] with
          | error stop => rfl
          | ok next => exact later next

omit [DecidableEq ι] in
theorem closed_flag (option : ι) (alone : ¬ (interface.spec option).takesValue = true) :
    interface.takesMore ⟨option, []⟩ = false := by
  rw [takesMore]
  cases arity : (interface.spec option).arity with
  | one => simp [Spec.takesValue, arity] at alone
  | many => simp [Spec.takesValue, arity] at alone
  | flag => rfl
  | count => rfl
  | help => rfl
  | version => rfl

section Groups

variable (spellable : interface.Spellable) (found after : Matches ι) (pending : Option (Pending ι)) (rest : List String)
include spellable

theorem read_flag_iff (option : ι) (alone : ¬ (interface.spec option).takesValue = true) :
    interface.readWords found pending (interface.bare option :: rest) = .ok after ↔
      ∃ middle first, interface.settle found pending = .ok middle ∧ interface.enter middle option [] = .ok first ∧
        interface.readWords first none rest = .ok after := by
  rw [readWords.eq_def]
  simp only [bare, word_of_bare _ (spellable.named option) (spellable.plain option), readLong, spellable.known option,
    if_neg alone]
  cases interface.settle found pending with
  | error stop => simp
  | ok middle =>
      cases entered : interface.enter middle option [] with
      | error stop => simp [entered, Except.map]
      | ok first => simp [entered, Except.map]

theorem read_lettered_iff (c : Char) (more : List Char) (known : ∀ d ∈ c :: more, interface.short? d ≠ none) :
    interface.readWords found pending (String.ofList ('-' :: c :: more) :: rest) = .ok after ↔
      ∃ middle first, interface.settle found pending = .ok middle ∧
        interface.enterAll middle (interface.uses (.letters (c :: more))) = .ok first ∧
        interface.readWords first none rest = .ok after := by
  have other : c ≠ '-' := fun dash => known c List.mem_cons_self (dash ▸ spellable.undashed)
  rw [readWords.eq_def]
  simp only [word_of_letters c more other, readLetters, ← interface.enter_letters_uses _ _ known]
  cases lettered : interface.short? c with
  | none => exact absurd lettered (known c List.mem_cons_self)
  | some option =>
      cases interface.settle found pending with
      | error stop => simp
      | ok middle =>
          cases entered : interface.enterLetters middle (c :: more) with
          | error stop => simp [entered]
          | ok first => simp [entered]

omit spellable in
theorem read_values (option : ι) (before values : List String)
    (takes : (interface.spec option).takesValue = true)
    (admitted : (interface.spec option).arity.admits (before ++ values).length = true)
    (unmarked : ∀ value ∈ values, Unmarked value) :
    interface.readWords found (some ⟨option, before⟩) (values ++ rest) =
      interface.readWords found (some ⟨option, before ++ values⟩) rest := by
  induction values generalizing before with
  | nil => rw [List.append_nil, List.nil_append]
  | cons value more ih =>
      have waits : interface.takesMore ⟨option, before⟩ = true := by
        rw [takesMore]
        rcases arity_of_taking (interface.spec option) takes with one | many
        · rw [one, Arity.admits, decide_eq_true_iff, List.length_append, List.length_cons] at admitted
          have empty : before.length = 0 := by omega
          simpa [one] using empty
        · rw [many]
      have behind : before ++ value :: more = (before ++ [value]) ++ more := by simp
      rw [List.cons_append, readWords.eq_def]
      simp only [word_unmarked value (unmarked value List.mem_cons_self), waits, if_pos]
      rw [behind] at admitted ⊢
      exact ih (before ++ [value]) admitted fun other member => unmarked other (List.mem_cons_of_mem value member)

theorem read_named_iff (option : ι) (values : List String)
    (admitted : (interface.spec option).arity.admits values.length = true)
    (unmarked : ∀ value ∈ values, Unmarked value) :
    interface.readWords found pending (interface.bare option :: (values ++ rest)) = .ok after ↔
      ∃ middle, interface.settle found pending = .ok middle ∧
        interface.readWords middle (some ⟨option, values⟩) rest = .ok after := by
  by_cases takes : (interface.spec option).takesValue = true
  · have attachable : interface.Attachable option := ⟨spellable.known option, takes, spellable.plain option⟩
    simp only [interface.read_bare_iff found after pending option _ attachable (spellable.named option),
      interface.read_values _ rest option [] values takes admitted unmarked, List.nil_append]
  · rw [flag_admits _ _ takes, decide_eq_true_iff] at admitted
    have empty : values = [] := List.length_eq_zero_iff.mp admitted
    have filled : interface.takesMore ⟨option, []⟩ = false := closed_flag interface option takes
    simp only [empty, List.nil_append, interface.read_flag_iff spellable found after pending rest option takes,
      interface.read_filled_iff _ after ⟨option, []⟩ rest filled, exists_and_left]
    rfl

theorem read_groups_iff (line : List (WordGroup ι)) (formed : ∀ group ∈ line, interface.Forms group)
    (tail : List String) (last : tail = [] ∨ tail = ["--"]) :
    interface.readWords found pending (line.flatMap interface.words ++ tail) = .ok after ↔
      ∃ middle, interface.settle found pending = .ok middle ∧
        interface.enterAll middle (line.flatMap interface.uses) = .ok after := by
  induction line generalizing found pending with
  | nil =>
      have settles : interface.readWords found pending tail = interface.settle found pending := by
        rcases last with none | terminator
        · rw [none, readWords]
        · rw [terminator]
          rfl
      rw [List.flatMap_nil, List.flatMap_nil, List.nil_append, settles]
      simp [enterAll]
  | cons group more ih =>
      have later := fun found pending => ih found pending fun other member => formed other (List.mem_cons_of_mem group member)
      have nothing (first : Matches ι) : interface.settle first none = .ok first := rfl
      rw [List.flatMap_cons, List.flatMap_cons, List.append_assoc]
      cases formed group List.mem_cons_self with
      | named option values admitted unmarked =>
          simp only [words, uses, List.cons_append, enterAll, bind_ok_iff, later,
            interface.read_named_iff spellable found after pending _ option values admitted unmarked]
          rfl
      | attached option value takes =>
          have attachable : interface.Attachable option := ⟨spellable.known option, takes, spellable.plain option⟩
          simp only [words, uses, List.cons_append, List.nil_append, enterAll, bind_ok_iff, later, nothing, Except.ok.injEq,
            exists_eq_left', interface.read_attached_iff found after pending option value _ attachable, exists_and_left]
      | letters c others known =>
          simp only [words, List.cons_append, List.nil_append, enter_all_append, bind_ok_iff, later, nothing, Except.ok.injEq,
            exists_eq_left', interface.read_lettered_iff spellable found after pending _ c others known, exists_and_left]

end Groups

end Read

section Grouped

structure Waits (interface : Interface ι) (current : Pending ι) : Prop where
  takes : (interface.spec current.option).takesValue = true
  short : (interface.spec current.option).arity = .one → current.values.length ≤ 1
  unmarked : ∀ value ∈ current.values, Unmarked value

def opened (pending : Option (Pending ι)) : List (WordGroup ι) :=
  pending.toList.map fun current => .named current.option current.values

theorem spells_group (group : WordGroup ι) (line : List (WordGroup ι)) (words : List String)
    (formed : interface.Forms group) (spells : interface.Spells line words) : interface.Spells (group :: line) (interface.words group ++ words) := by
  refine ⟨?_, ?_⟩
  · intro other member
    rcases List.mem_cons.mp member with head | later
    · exact head ▸ formed
    · exact spells.formed other later
  · rw [List.flatMap_cons, List.append_assoc]
    exact spells.words.imp (congrArg _) (congrArg _)

variable [DecidableEq ι]

theorem spells_opened (found middle : Matches ι) (pending : Option (Pending ι)) (line : List (WordGroup ι))
    (words : List String) (waits : ∀ current ∈ pending, interface.Waits current)
    (settled : interface.settle found pending = .ok middle) (spells : interface.Spells line words) :
    interface.Spells (opened pending ++ line) ((opened pending).flatMap interface.words ++ words) := by
  cases pending with
  | none => exact spells
  | some current =>
      have waiting := waits current rfl
      have admitted : (interface.spec current.option).arity.admits current.values.length = true := by
        rcases arity_of_taking (interface.spec current.option) waiting.takes with one | many
        · simp only [settle, enter, one] at settled
          by_cases empty : current.values.isEmpty = true
          · rw [if_pos empty] at settled
            cases settled
          · have short := waiting.short one
            have filled : current.values.length ≠ 0 := by simpa using empty
            rw [one, Arity.admits, decide_eq_true_iff]
            omega
        · rw [many, Arity.admits]
      have formed : interface.Forms (.named current.option current.values) := .named _ _ admitted waiting.unmarked
      simpa [opened] using interface.spells_group _ line words formed spells

omit [DecidableEq ι] in
theorem named_of_known (name : String) (option : ι) (known : interface.long? name = some option) :
    (interface.spec option).long = name := by
  simpa using List.find?_some known

theorem known_of_letters (found after : Matches ι) (chars : List Char)
    (entered : interface.enterLetters found chars = .ok after) : ∀ c ∈ chars, interface.short? c ≠ none := by
  induction chars generalizing found with
  | nil => exact List.forall_mem_nil _
  | cons c rest ih =>
      rw [enterLetters] at entered
      intro d member
      cases lettered : interface.short? c with
      | none =>
          rw [lettered] at entered
          cases entered
      | some option =>
          simp only [lettered] at entered
          cases first : interface.enter found option [] with
          | error stop =>
              rw [first] at entered
              cases entered
          | ok next =>
              rw [first] at entered
              rcases List.mem_cons.mp member with head | later
              · rw [head, lettered]
                exact Option.some_ne_none option
              · exact ih next entered d later

-- What is open behind a word that had nothing open in front of it: nothing where the word is a group, or
-- else the option that it opens.
inductive Leaves (interface : Interface ι) (word : String) : Option (Pending ι) → Prop where
  | group (group : WordGroup ι) (formed : interface.Forms group) (single : interface.words group = [word]) :
      Leaves interface word none
  | opens (option : ι) (takes : (interface.spec option).takesValue = true) (bare : interface.bare option = word) :
      Leaves interface word (some ⟨option, []⟩)

theorem long_leaves (found : Matches ι) (word name : String) (value : Option String)
    (step : Matches ι × Option (Pending ι)) (form : Word.ofText word = .long name value)
    (read : interface.readLong found none name value = .ok step) : interface.Leaves word step.2 := by
  rw [readLong] at read
  cases known : interface.long? name with
  | none =>
      rw [known] at read
      cases read
  | some option =>
      have same := long_word word name value form
      rw [← interface.named_of_known name option known] at same
      simp only [known, settle] at read
      by_cases takes : (interface.spec option).takesValue = true
      · rw [if_pos takes] at read
        cases value with
        | none =>
            cases read
            exact .opens option takes (by rw [same, Option.elim_none, String.append_empty, bare])
        | some text =>
            obtain ⟨_, _, closed⟩ := (interface.closed_iff found option [text] step).mp read
            rw [closed]
            refine .group (.attached option text) (.attached option text takes) ?_
            rw [words, attached, same, Option.elim_some, String.append_assoc, String.append_assoc]
      · rw [if_neg takes] at read
        cases value with
        | some text => cases read
        | none =>
            obtain ⟨_, _, closed⟩ := (interface.closed_iff found option [] step).mp read
            have admitted := flag_admits (interface.spec option) 0 takes
            rw [closed]
            refine .group (.named option []) (.named option [] admitted (List.forall_mem_nil _)) ?_
            rw [words, bare, same, Option.elim_none, String.append_empty]

theorem letters_leave (found after : Matches ι) (word : String) (chars : List Char)
    (form : Word.ofText word = .letters chars) (read : interface.readLetters found none chars = .ok after) :
    interface.Leaves word none := by
  have entered := (interface.read_letters_iff found after chars).mp read
  have known := interface.known_of_letters found after chars entered
  have same := letters_word word chars form
  cases chars with
  | nil => exact absurd rfl (letters_nonempty word [] form)
  | cons c more => exact .group (.letters (c :: more)) (.letters c more known) (by rw [words, same])

theorem word_leaves (found : Matches ι) (word : String) (step : Matches ι × Option (Pending ι))
    (read : interface.readWord found none word = .ok step) : interface.Leaves word step.2 := by
  unfold readWord at read
  cases form : Word.ofText word with
  | terminator =>
      simp only [form] at read
      cases read
  | long name value =>
      simp only [form] at read
      exact interface.long_leaves found word name value step form read
  | letters chars =>
      simp only [form] at read
      cases entered : interface.readLetters found none chars with
      | error stop =>
          rw [entered] at read
          cases read
      | ok after =>
          rw [entered] at read
          cases read
          exact interface.letters_leave found after word chars form entered
  | plain text =>
      simp only [form] at read
      cases read

omit [DecidableEq ι] in
theorem leaves_waiting (word : String) (pending : Option (Pending ι)) (leaves : interface.Leaves word pending) :
    ∀ current ∈ pending, interface.Waits current := by
  intro current member
  cases leaves with
  | group => cases member
  | opens option takes _ =>
      rw [← Option.some.inj member]
      exact ⟨takes, fun _ => Nat.zero_le 1, List.forall_mem_nil _⟩

omit [DecidableEq ι] in
theorem spells_left (word : String) (pending : Option (Pending ι)) (leaves : interface.Leaves word pending)
    (line : List (WordGroup ι)) (rest : List String)
    (spells : interface.Spells line ((opened pending).flatMap interface.words ++ rest)) :
    ∃ whole, interface.Spells whole (word :: rest) := by
  cases leaves with
  | group group formed single =>
      have front := interface.spells_group group line rest formed spells
      rw [single] at front
      exact ⟨_, front⟩
  | opens option _ bare =>
      have front : interface.Spells line ([interface.bare option] ++ rest) := spells
      rw [bare] at front
      exact ⟨line, front⟩

omit [DecidableEq ι] in
theorem waits_more (current : Pending ι) (word : String) (waits : interface.Waits current)
    (more : interface.takesMore current = true) (unmarked : Unmarked word) :
    interface.Waits { current with values := current.values ++ [word] } := by
  refine ⟨waits.takes, ?_, ?_⟩
  · intro single
    rw [takesMore, single] at more
    simp [List.isEmpty_iff.mp more]
  · intro value member
    rcases List.mem_append.mp member with before | last
    · exact waits.unmarked value before
    · exact List.mem_singleton.mp last ▸ unmarked

theorem grouped_of_read (words : List String) (found after : Matches ι) (pending : Option (Pending ι))
    (waits : ∀ current ∈ pending, interface.Waits current) (read : interface.readWords found pending words = .ok after) :
    ∃ line, interface.Spells line ((opened pending).flatMap interface.words ++ words) := by
  have nothing : interface.Spells [] [] := ⟨List.forall_mem_nil _, .inl rfl⟩
  induction words generalizing found pending with
  | nil => exact ⟨_, interface.spells_opened found after pending [] [] waits read nothing⟩
  | cons word rest ih =>
      rcases (interface.read_words_cons_iff found after pending word rest).mp read with
        ⟨form, last, settled⟩ | ⟨step, first, behind⟩
      · have ended : interface.Spells [] ["--"] := ⟨List.forall_mem_nil _, .inr rfl⟩
        rw [last, terminator_word word form]
        exact ⟨_, interface.spells_opened found after pending [] ["--"] waits settled ended⟩
      · rcases interface.read_word_cases found pending word step first with
          ⟨middle, settled, alone⟩ | ⟨current, text, same, more, form, grown⟩
        · have leaves := interface.word_leaves middle word step alone
          obtain ⟨groups, read⟩ := ih step.1 step.2 (interface.leaves_waiting word step.2 leaves) behind
          obtain ⟨line, spells⟩ := interface.spells_left word step.2 leaves groups rest read
          exact ⟨_, interface.spells_opened found middle pending line (word :: rest) waits settled spells⟩
        · obtain ⟨spelled, unmarked⟩ := unmarked_of_word word text form
          have waiting := interface.waits_more current word (waits current same) more unmarked
          rw [grown, spelled] at behind
          obtain ⟨line, spells⟩ := ih found _ (fun _ member => Option.some.inj member ▸ waiting) behind
          rw [same]
          refine ⟨line, ?_⟩
          simpa [opened, Interface.words] using spells

end Grouped

end Interface
end Devnet.CommandLine
