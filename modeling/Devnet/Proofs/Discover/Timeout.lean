import Devnet.Proofs.CommandLine.Inserted
import Devnet.Proofs.Execution.Rearranged
import Devnet.Proofs.Text.Word

set_option autoImplicit false

namespace Devnet.Discover

open CommandLine

theorem timeout_solitary : interface.Solitary .timeout where
  attachable := ⟨by decide, rfl, by decide⟩
  spelled := by decide
  single := rfl
  unlettered := rfl
  compatible := by
    intro other
    cases other <;> rfl
  unrequired := fun _ member => (nomatch member)

theorem timeout_attached (text : String) : interface.attached (.timeout, text) = "--timeout=" ++ text := rfl

section Seconds

variable (text : String)

theorem seconds_pass (seconds : Nat) (read : Numeral.word text = .ok seconds) :
    interface.checkValues .timeout [text] = .ok () := by
  have checked : (interface.spec .timeout).check text = .ok () := by
    show checkSeconds text = .ok ()
    rw [checkSeconds, read]
  rw [Interface.checkValues, checked]
  rfl

theorem seconds_refused (e : Numeral.WordError) (read : Numeral.word text = .error e) :
    interface.checkValues .timeout [text] =
      .error (.rejected (.malformedValue "--timeout <SECONDS>" text e.message)) := by
  have checked : (interface.spec .timeout).check text = .error (.malformed e.message) := by
    show checkSeconds text = .error (.malformed e.message)
    rw [checkSeconds, read]
  rw [Interface.checkValues, checked]
  rfl

theorem seconds_of_pass (passes : interface.checkValues .timeout [text] = .ok ()) :
    ∃ seconds, Numeral.word text = .ok seconds := by
  cases read : Numeral.word text with
  | ok seconds => exact ⟨seconds, rfl⟩
  | error e => cases (seconds_refused text e read).symm.trans passes

theorem of_matches_timed (found whole : Matches Opt) (seconds : Nat) (read : Numeral.word text = .ok seconds)
    (beside : Interface.Beside .timeout none (some ⟨.timeout, [text], 1⟩) found whole) :
    Arguments.ofMatches whole = (Arguments.ofMatches found).map fun arguments =>
      { arguments with timeout := some seconds } := by
  have value (x : Opt) (apart : x ≠ .timeout) := Matches.value_same found whole x (beside.beside x apart)
  have timed : whole.value? .timeout = some text := by
    rw [Matches.value?, beside.second]
    rfl
  simp (disch := decide) only [Arguments.ofMatches, value, timed, Matches.given, Matches.uses, beside.beside,
    Option.bind_some, read]
  cases Url.parse ((found.value? .rpcUrl).getD Default.rpcUrl) <;> rfl

end Seconds

section Timed

variable (environment : Environment) (before after : List String) (text : String)

theorem parse_ok_iff (words : List String) (arguments : Arguments) :
    Arguments.parse environment words = .ok arguments ↔
      ∃ found, interface.parse environment words = .ok found ∧ Arguments.ofMatches found = .ok arguments :=
  bind_ok_iff (interface.parse environment words) Arguments.ofMatches arguments

theorem accepted_timed (result : Arguments)
    (accepted : Arguments.parse environment (before ++ interface.attached (.timeout, text) :: after) = .ok result) :
    interface.LeavesRoom .timeout before after ∧ ∃ arguments seconds,
      Arguments.parse environment (before ++ after) = .ok arguments ∧ Numeral.word text = .ok seconds ∧
        result = { arguments with timeout := some seconds } := by
  obtain ⟨whole, parsed, matched⟩ := (parse_ok_iff environment _ result).mp accepted
  obtain ⟨room, passes, found, reached, beside⟩ := Interface.parse_without timeout_solitary rfl environment spellable
    (fun x many => collects_nothing x many) text before after whole parsed
  obtain ⟨seconds, read⟩ := seconds_of_pass text passes
  rw [of_matches_timed text found whole seconds read beside] at matched
  cases made : Arguments.ofMatches found with
  | error stop =>
      rw [made] at matched
      cases matched
  | ok arguments =>
      rw [made] at matched
      exact ⟨room, arguments, seconds, (parse_ok_iff environment _ arguments).mpr ⟨found, reached, made⟩, read,
        (Except.ok.inj matched).symm⟩

variable (arguments : Arguments) (room : interface.LeavesRoom .timeout before after)
  (accepted : Arguments.parse environment (before ++ after) = .ok arguments)
include room accepted

theorem timed_accepted (seconds : Nat) (read : Numeral.word text = .ok seconds) :
    Arguments.parse environment (before ++ interface.attached (.timeout, text) :: after) =
      .ok { arguments with timeout := some seconds } := by
  obtain ⟨found, parsed, matched⟩ := (parse_ok_iff environment _ arguments).mp accepted
  obtain ⟨whole, reached, beside⟩ := Interface.parse_with timeout_solitary rfl environment spellable
    (fun x many => collects_nothing x many) text before after room found parsed (seconds_pass text seconds read)
  refine (parse_ok_iff environment _ _).mpr ⟨whole, reached, ?_⟩
  rw [of_matches_timed text found whole seconds read beside, matched]
  rfl

theorem timed_refused (e : Numeral.WordError) (read : Numeral.word text = .error e) :
    Arguments.parse environment (before ++ interface.attached (.timeout, text) :: after) =
      .error (.rejected (.malformedValue "--timeout <SECONDS>" text e.message)) := by
  obtain ⟨found, parsed, _⟩ := (parse_ok_iff environment _ arguments).mp accepted
  exact congrArg (·.bind Arguments.ofMatches) (Interface.parse_refused timeout_solitary environment spellable
    (fun x many => collects_nothing x many) text before after room found parsed _ (seconds_refused text e read))

end Timed

-- With other arguments that are acceptable the text alone decides; and no command line with a timeout is accepted
-- but one whose other arguments are.
theorem timeout_is_its_number (environment : Environment) (before after : List String) (text : String) :
    (∀ arguments, Arguments.parse environment (before ++ after) = .ok arguments →
      interface.LeavesRoom .timeout before after →
        (∀ result, Arguments.parse environment (before ++ ("--timeout=" ++ text) :: after) = .ok result ↔
          ∃ seconds, Numeral.IsWordText text seconds ∧ result = { arguments with timeout := some seconds } ∧
            result.requestTimeout = some ⟨seconds, 0⟩) ∧
        ((¬ ∃ seconds, Numeral.IsWordText text seconds) → ∃ fault, Numeral.IsFaultOf fault text ∧
          Arguments.parse environment (before ++ ("--timeout=" ++ text) :: after) =
            .error (.rejected (.malformedValue "--timeout <SECONDS>" text fault.message)))) ∧
    ∀ result, Arguments.parse environment (before ++ ("--timeout=" ++ text) :: after) = .ok result →
      interface.LeavesRoom .timeout before after ∧
        ∃ arguments, Arguments.parse environment (before ++ after) = .ok arguments := by
  rw [← timeout_attached]
  refine ⟨fun arguments accepted room => ⟨fun result => ⟨fun timed => ?_, ?_⟩, fun unspelled => ?_⟩, fun result timed => ?_⟩
  · obtain ⟨_, others, seconds, same, read, rfl⟩ := accepted_timed environment before after text result timed
    cases same.symm.trans accepted
    exact ⟨seconds, (Numeral.word_text_iff text seconds).mp read, rfl, rfl⟩
  · rintro ⟨seconds, spelled, rfl, _⟩
    exact timed_accepted environment before after text arguments room accepted seconds
      ((Numeral.word_text_iff text seconds).mpr spelled)
  · cases read : Numeral.word text with
    | ok seconds => exact absurd ⟨seconds, (Numeral.word_text_iff text seconds).mp read⟩ unspelled
    | error e =>
        exact ⟨e, (Numeral.word_fault_iff text e).mp read,
          timed_refused environment before after text arguments room accepted e read⟩
  · obtain ⟨room, arguments, _, accepted, _⟩ := accepted_timed environment before after text result timed
    exact ⟨room, arguments, accepted⟩

def hostedEnvironment : Environment := fun name => if name = Variable.rpcUrl then some "http://h/" else none

theorem timeout_is_its_number_greatest :
    Arguments.parse hostedEnvironment ["-v", "--timeout=+0018446744073709551615", "--stop-on-success", "--"] =
      .ok ⟨mixedUrl, some 18446744073709551615, true, .upTo .warn⟩ ∧
    Arguments.parse hostedEnvironment ["-v", "--timeout=18446744073709551616", "--stop-on-success", "--"] =
      .error (.rejected (.malformedValue "--timeout <SECONDS>" "18446744073709551616"
        "number too large to fit in target type")) := by
  have accepted : Arguments.parse hostedEnvironment ["-v", "--stop-on-success", "--"] =
      .ok ⟨mixedUrl, none, true, .upTo .warn⟩ := by decide +kernel
  have room : interface.LeavesRoom .timeout ["-v"] ["--stop-on-success", "--"] :=
    ⟨by decide, [.letters ['v']], by decide, by decide⟩
  have spelled : Numeral.IsWordText "+0018446744073709551615" 18446744073709551615 :=
    ⟨⟨"0018446744073709551615".toList, .inr (by decide), (Numeral.value_iff 10 _ _).mp (by decide)⟩, by decide⟩
  have large : Numeral.word "18446744073709551616" = .error .tooLarge := by decide
  refine ⟨?_, ?_⟩
  · obtain ⟨given, _⟩ := timeout_is_its_number hostedEnvironment ["-v"] ["--stop-on-success", "--"] "+0018446744073709551615"
    exact ((given _ accepted room).1 _).mpr ⟨_, spelled, rfl, rfl⟩
  · obtain ⟨given, _⟩ := timeout_is_its_number hostedEnvironment ["-v"] ["--stop-on-success", "--"] "18446744073709551616"
    have unread : ¬ ∃ seconds, Numeral.IsWordText "18446744073709551616" seconds := by
      rintro ⟨seconds, read⟩
      cases large.symm.trans ((Numeral.word_text_iff _ seconds).mpr read)
    obtain ⟨fault, blamed, refused⟩ := (given _ accepted room).2 unread
    rw [blamed.tooLarge.mpr ((Numeral.word_large_iff _).mp large)] at refused
    exact refused

end Devnet.Discover
