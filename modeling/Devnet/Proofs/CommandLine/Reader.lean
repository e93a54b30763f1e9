import Devnet.CommandLine.Options
import Devnet.Proofs.CommandLine.Counted
import Devnet.Proofs.CommandLine.Variables
import Devnet.Proofs.Log.Default

set_option autoImplicit false

namespace Devnet.CommandLine.Reader

variable {ι α : Type} [DecidableEq ι]

theorem parse_iff (reader : Reader ι α) (environment : Environment) (words : List String) (arguments : α) :
    reader.parse environment words = .ok arguments ↔
      ∃ found, reader.interface.parse environment words = .ok found ∧ reader.ofMatches found = .ok arguments :=
  bind_ok_iff (reader.interface.parse environment words) reader.ofMatches arguments

-- What the programs have in common in reading their command lines. The flags decide about the verbosity and
-- about nothing else; `leveled` are arguments with another verbosity.
structure Lawful (reader : Reader ι α) (verbose quiet : ι) (leveled : α → Log.Threshold → α) : Prop where
  spellable : reader.interface.Spellable
  complete : ∀ option, option ∈ reader.interface.options
  counted : reader.interface.Counted verbose quiet
  apart : verbose ≠ quiet
  unfiltered : ∀ option, (reader.interface.spec option).variableName ≠ some Variable.logFilter
  recounted : ∀ found other : Matches ι, (∀ x, x ≠ verbose → other.find? x = found.find? x) →
    reader.ofMatches other = (reader.ofMatches found).map fun arguments =>
      leveled arguments (Log.verbosity (other.uses verbose) (other.uses quiet))
  level : ∀ arguments threshold, reader.verbosity (leveled arguments threshold) = threshold

namespace Lawful

variable {reader : Reader ι α} {verbose quiet : ι} {leveled : α → Log.Threshold → α}
  (lawful : reader.Lawful verbose quiet leveled)
include lawful

theorem verbosity_of_matches (found : Matches ι) (arguments : α) (read : reader.ofMatches found = .ok arguments) :
    reader.verbosity arguments = Log.verbosity (found.uses verbose) (found.uses quiet) := by
  have again := lawful.recounted found found fun _ _ => rfl
  rw [read] at again
  exact (congrArg reader.verbosity (Except.ok.inj again)).trans (lawful.level arguments _)

theorem lookups (found other : Matches ι) (same : ∀ x, other.find? x = found.find? x) :
    reader.ofMatches other = reader.ofMatches found := by
  have uses (x : ι) : other.uses x = found.uses x := by rw [Matches.uses, same, Matches.uses]
  rw [lawful.recounted found other fun x _ => same x, uses, uses]
  exact (lawful.recounted found found fun _ _ => rfl).symm

theorem terse_verbosity (environment : Environment) (words : List String) (arguments : α)
    (accepted : reader.parse environment words = .ok arguments)
    (terse : ∀ word ∈ words, reader.interface.mentions verbose word = false) :
    (reader.verbosity arguments).isVerbose = false := by
  obtain ⟨found, parsed, read⟩ := (reader.parse_iff environment words arguments).mp accepted
  rw [lawful.verbosity_of_matches found arguments read,
    reader.interface.parsed_unused environment words found verbose lawful.counted.unset parsed terse]
  exact Log.quiet_verbosity _

-- The counter stops far beyond the third flag.
theorem verbose_of_flags (environment : Environment) (words : List String) (arguments : α) (line : List (WordGroup ι))
    (accepted : reader.parse environment words = .ok arguments) (spells : reader.interface.Spells line words)
    (unmuted : reader.interface.occurrences line quiet = []) :
    (reader.verbosity arguments).isVerbose = true ↔ 3 ≤ (reader.interface.occurrences line verbose).length := by
  obtain ⟨found, parsed, read⟩ := (reader.parse_iff environment words arguments).mp accepted
  have muted : found.uses quiet = 0 := by
    rw [Matches.uses, Interface.found_unused lawful.spellable lawful.complete spells parsed quiet
      lawful.counted.rivalUnset unmuted]
  rw [lawful.verbosity_of_matches found arguments read, muted,
    Interface.found_counted lawful.counted lawful.spellable lawful.complete spells parsed, Log.verbose_from_third,
    countLimit]
  omega

theorem log_filter_unread (environment : Environment) (words : List String) (value : Option String) :
    reader.parse (environment.assign Variable.logFilter value) words = reader.parse environment words := by
  rw [parse, parse, reader.interface.parse_unnamed environment Variable.logFilter value words lawful.unfiltered]

theorem is_default {option : ι} {name : String} (backed : reader.interface.Backed option name)
    (environment : Environment) (words : List String) :
    IsDefault reader.interface reader.parse environment words option name :=
  Interface.is_default backed reader.parse reader.ofMatches (fun _ _ => rfl) lawful.lookups environment words

theorem accepted_rearranged (environment : Environment) (line other : List (WordGroup ι)) (arguments : α)
    (formed : ∀ group ∈ line, reader.interface.Forms group) (same : line.Perm other)
    (kept : ∀ option, (reader.interface.spec option).arity = .many →
      line.filter (reader.interface.gives option) = other.filter (reader.interface.gives option))
    (accepted : reader.parse environment (line.flatMap reader.interface.words) = .ok arguments) :
    reader.parse environment (other.flatMap reader.interface.words) = .ok arguments := by
  rw [reader.parse_iff] at accepted ⊢
  obtain ⟨found, parsed, read⟩ := accepted
  obtain ⟨again, reparsed, alike⟩ := reader.interface.parse_rearranged formed same kept lawful.spellable lawful.complete
    environment found parsed
  exact ⟨again, reparsed, (lawful.lookups found again alike).trans read⟩

theorem rearranged_iff (environment : Environment) (line other : List (WordGroup ι)) (arguments : α)
    (formed : ∀ group ∈ line, reader.interface.Forms group) (same : line.Perm other)
    (kept : ∀ option, (reader.interface.spec option).arity = .many →
      line.filter (reader.interface.gives option) = other.filter (reader.interface.gives option)) :
    reader.parse environment (line.flatMap reader.interface.words) = .ok arguments ↔
      reader.parse environment (other.flatMap reader.interface.words) = .ok arguments := by
  have others : ∀ group ∈ other, reader.interface.Forms group := fun group member => formed group (same.mem_iff.mpr member)
  have either := lawful.accepted_rearranged environment
  exact ⟨either line other arguments formed same kept,
    either other line arguments others same.symm fun option many => (kept option many).symm⟩

end Lawful
end Devnet.CommandLine.Reader
