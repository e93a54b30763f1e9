import Mathlib.Data.List.TakeWhile
import Devnet.Proofs.CommandLine.Restated

set_option autoImplicit false

namespace Devnet.CommandLine

variable {ι : Type} [DecidableEq ι]

namespace Interface

variable (interface : Interface ι)

def bare (interface : Interface ι) (option : ι) : String := "--" ++ (interface.spec option).long

-- The value of an option is exchanged where it stands, attached to the option or in the word behind it.
inductive Exchanged (option : ι) (text : String) : List String → List String → Prop where
  | later (word : String) (rest others : List String) (exchanged : Exchanged option text rest others) :
      Exchanged option text (word :: rest) (word :: others)
  | attached (old : String) (rest : List String) :
      Exchanged option text (interface.attached (option, old) :: rest) (interface.attached (option, text) :: rest)
  | behind (old : String) (rest : List String) :
      Exchanged option text (interface.bare option :: old :: rest) (interface.bare option :: text :: rest)

-- An option is given a text: in place of the value that it has, or in front of words that do not name it.
inductive GivenAgain (option : ι) (text : String) : List String → List String → Prop where
  | exchanged (words others : List String) (exchanged : interface.Exchanged option text words others) :
      GivenAgain option text words others
  | added (words : List String) (unnamed : ∀ word ∈ words, interface.named? word ≠ some option) :
      GivenAgain option text words (interface.attached (option, text) :: words)

theorem word_of_bare (name : String) (spelled : name ≠ "") (plain : '=' ∉ name.toList) :
    Word.ofText ("--" ++ name) = .long name none := by
  have chars : ("--" ++ name).toList = '-' :: '-' :: name.toList := by simp
  have absent : ¬ name.toList.contains '=' = true := fun member => plain (List.contains_iff_mem.mp member)
  have taken : name.toList.takeWhile (· ≠ '=') = name.toList := by
    rw [List.takeWhile_eq_self_iff]
    intro c member
    have other : c ≠ '=' := fun same => plain (same ▸ member)
    simpa using other
  have filled : name.toList ≠ [] := fun empty => spelled (String.toList_eq_nil_iff.mp empty)
  have same : String.ofList name.toList = name := String.ofList_toList
  rw [Word.ofText, chars]
  generalize name.toList = letters at taken absent filled same
  cases letters with
  | nil => exact absurd rfl filled
  | cons first rest => simp only [taken, absent, same, Bool.false_eq_true, if_false]

theorem read_bare_iff (found after : Matches ι) (pending : Option (Pending ι)) (option : ι) (rest : List String)
    (attachable : interface.Attachable option) (spelled : (interface.spec option).long ≠ "") :
    interface.readWords found pending (interface.bare option :: rest) = .ok after ↔
      ∃ middle, interface.settle found pending = .ok middle ∧
        interface.readWords middle (some ⟨option, []⟩) rest = .ok after := by
  obtain ⟨known, takes, plain⟩ := attachable
  rw [readWords.eq_def]
  simp only [bare, word_of_bare _ spelled plain, readLong, known, if_pos takes]
  cases interface.settle found pending with
  | error stop => simp
  | ok middle => simp

section Again

variable {interface} {option : ι} (solitary : interface.Solitary option) {text : String}
include solitary

theorem read_valued_iff (found after : Matches ι) (value : String) (rest : List String) :
    interface.readWords found (some ⟨option, [value]⟩) rest = .ok after ↔
      ∃ first, interface.enter found option [value] = .ok first ∧ interface.readWords first none rest = .ok after := by
  apply interface.read_filled_iff found after ⟨option, [value]⟩ rest
  rw [takesMore, solitary.single]
  rfl

theorem waiting_takes (found after : Matches ι) (word : String) (rest : List String)
    (read : interface.readWords found (some ⟨option, []⟩) (word :: rest) = .ok after) :
    ∃ value first, interface.enter found option [value] = .ok first ∧ interface.readWords first none rest = .ok after := by
  have unsettled (middle : Matches ι) : interface.settle found (some ⟨option, []⟩) ≠ .ok middle := by
    intro settled
    rw [settle, enter, solitary.single] at settled
    cases settled
  rcases (interface.read_words_cons_iff found after _ word rest).mp read with ⟨_, _, settled⟩ | ⟨step, taken, behind⟩
  · exact absurd settled (unsettled after)
  · rcases interface.read_word_cases found _ word step taken with ⟨middle, settled, _⟩ | ⟨current, value, same, _, _, grown⟩
    · exact absurd settled (unsettled middle)
    · cases same
      rw [grown] at behind
      exact ⟨value, (read_valued_iff solitary found after value rest).mp behind⟩

theorem waiting_given (found : Matches ι) (value : String) (rest : List String)
    (plain : Word.ofText value = .plain value) :
    interface.readWords found (some ⟨option, []⟩) (value :: rest) =
      interface.readWords found (some ⟨option, [value]⟩) rest := by
  have waits : interface.takesMore ⟨option, []⟩ = true := by
    rw [takesMore, solitary.single]
    rfl
  rw [readWords.eq_def]
  simp only [plain, waits, if_pos, List.nil_append]

variable (accepted : (interface.spec option).check text = .ok ())
include accepted

theorem entered_restated (found after : Matches ι) (old : String)
    (entered : interface.enter found option [old] = .ok after) :
    ∃ next, interface.enter found option [text] = .ok next ∧ Restated option text true after next := by
  have checked : interface.checkValues option [text] = .ok () := by simp [checkValues, accepted]
  obtain ⟨new, made, lookups⟩ := interface.enter_ok found after option [old] entered
  obtain ⟨_, absent, _⟩ := (interface.entry_single_iff _ option [old] new solitary.single).mp made
  have written : interface.entry (found.find? option) option [text] = .ok ⟨option, [text], 1⟩ :=
    (interface.entry_single_iff _ option [text] _ solitary.single).mpr
      ⟨List.cons_ne_nil text [], absent, checked, rfl⟩
  obtain ⟨next, reached, others⟩ := interface.enter_of_entry found option [text] _ written
  refine ⟨next, reached, ?_, ?_, ?_⟩
  · intro x apart
    rw [others, lookups, if_neg apart, if_neg apart]
  · rw [Matches.given, lookups, if_pos rfl]
    rfl
  · rw [others, if_pos rfl]

theorem value_again (found first after : Matches ι) (old : String) (rest : List String)
    (entered : interface.enter found option [old] = .ok first) (read : interface.readWords first none rest = .ok after) :
    ∃ second next, interface.enter found option [text] = .ok second ∧ interface.readWords second none rest = .ok next ∧
      Restated option text true after next := by
  obtain ⟨second, reached, same⟩ := entered_restated solitary accepted found first old entered
  obtain ⟨next, final, alike⟩ :=
    read_words_restated solitary rest same none (fun _ _ _ => rfl) (fun _ _ _ => rfl) read
  exact ⟨second, next, reached, final, alike⟩

theorem attached_again (found after : Matches ι) (pending : Option (Pending ι)) (old : String) (rest : List String)
    (read : interface.readWords found pending (interface.attached (option, old) :: rest) = .ok after) :
    ∃ next, interface.readWords found pending (interface.attached (option, text) :: rest) = .ok next ∧
      Restated option text true after next := by
  obtain ⟨middle, first, settled, entered, behind⟩ := (interface.read_attached_iff found after pending option old rest solitary.attachable).mp read
  obtain ⟨second, next, reached, final, same⟩ := value_again solitary accepted middle first after old rest entered behind
  exact ⟨next, (interface.read_attached_iff found next pending option text rest solitary.attachable).mpr ⟨middle, second, settled, reached, final⟩, same⟩

theorem added_again (after : Matches ι) (words : List String)
    (unnamed : ∀ word ∈ words, interface.named? word ≠ some option)
    (read : interface.readWords [] none words = .ok after) :
    ∃ next, interface.readWords [] none (interface.attached (option, text) :: words) = .ok next ∧
      Restated option text false after next := by
  have first := interface.read_attached_word [] (option, text) words solitary.attachable accepted fun _ => rfl
  rw [first]
  have same : Restated option text false [] (Matches.append [] option [text]) := by
    refine ⟨?_, rfl, ?_⟩
    · intro x apart
      rw [Matches.find_append, if_neg apart]
    · rw [Matches.find_append, if_pos rfl]
      rfl
  exact read_words_restated solitary words same none (fun _ member => (nomatch member))
    (fun word member named => absurd named (unnamed word member)) read

variable (plain : Word.ofText text = .plain text)
include plain

theorem behind_again (found after : Matches ι) (pending : Option (Pending ι)) (old : String) (rest : List String)
    (read : interface.readWords found pending (interface.bare option :: old :: rest) = .ok after) :
    ∃ next, interface.readWords found pending (interface.bare option :: text :: rest) = .ok next ∧
      Restated option text true after next := by
  have bare_iff (after : Matches ι) (rest : List String) :=
    interface.read_bare_iff found after pending option rest solitary.attachable solitary.spelled
  obtain ⟨middle, settled, waiting⟩ := (bare_iff after (old :: rest)).mp read
  obtain ⟨value, first, entered, behind⟩ := waiting_takes solitary middle after old rest waiting
  obtain ⟨second, next, reached, final, same⟩ :=
    value_again solitary accepted middle first after value rest entered behind
  have valued := (read_valued_iff solitary middle next text rest).mpr ⟨second, reached, final⟩
  rw [← waiting_given solitary middle text rest plain] at valued
  exact ⟨next, (bare_iff next (text :: rest)).mpr ⟨middle, settled, valued⟩, same⟩

theorem exchanged_again (found after : Matches ι) (pending : Option (Pending ι)) (words others : List String)
    (exchanged : interface.Exchanged option text words others)
    (read : interface.readWords found pending words = .ok after) :
    ∃ next, interface.readWords found pending others = .ok next ∧ Restated option text true after next := by
  induction exchanged generalizing found pending with
  | attached old rest => exact attached_again solitary accepted found after pending old rest read
  | behind old rest => exact behind_again solitary accepted plain found after pending old rest read
  | later word rest others exchanged ih =>
      rcases (interface.read_words_cons_iff found after pending word rest).mp read with ⟨_, last, _⟩ | ⟨step, taken, behind⟩
      · rw [last] at exchanged
        cases exchanged
      · obtain ⟨next, final, same⟩ := ih step.1 step.2 behind
        exact ⟨next, (interface.read_words_cons_iff found next pending word others).mpr (.inr ⟨step, taken, final⟩), same⟩

theorem parse_again (environment : Environment) (words others : List String) (found : Matches ι)
    (again : interface.GivenAgain option text words others) (parsed : interface.parse environment words = .ok found) :
    ∃ other was, interface.parse environment others = .ok other ∧ Restated option text was found other := by
  unfold parse at parsed ⊢
  cases read : interface.readWords [] none words with
  | error stop =>
      rw [read] at parsed
      cases parsed
  | ok first =>
      have step : ∃ second was, interface.readWords [] none others = .ok second ∧ Restated option text was first second := by
        cases again with
        | exchanged _ both =>
            obtain ⟨second, reached, same⟩ := exchanged_again solitary accepted plain [] first none words others both read
            exact ⟨second, true, reached, same⟩
        | added unnamed =>
            obtain ⟨second, reached, same⟩ := added_again solitary accepted first words unnamed read
            exact ⟨second, false, reached, same⟩
      obtain ⟨second, was, reached, same⟩ := step
      rw [read] at parsed
      rw [reached]
      simp only [bind, Except.bind] at parsed ⊢
      cases environed : interface.readEnvironment environment first interface.options with
      | error stop =>
          rw [environed] at parsed
          cases parsed
      | ok third =>
          obtain ⟨fourth, now, filled, alike⟩ := read_environment_restated environment interface.options same environed
          rw [environed] at parsed
          rw [filled]
          obtain ⟨whole, checked⟩ := check_together_restated solitary alike parsed
          exact ⟨fourth, now, checked, whole ▸ alike⟩

end Again

end Interface
end Devnet.CommandLine
