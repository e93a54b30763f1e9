import Devnet.Proofs.Probe.Reference

set_option autoImplicit false

namespace Devnet.Probe

def lineEnd (report : Report) (index : Nat) : Nat := ((report.take (index + 1)).flatMap lineBytes).length

theorem line_end_head (entry : Probed) (rest : Report) : lineEnd (entry :: rest) 0 = (lineBytes entry).length := by
  simp [lineEnd]

theorem line_end_later (entry : Probed) (rest : Report) (index : Nat) :
    lineEnd (entry :: rest) (index + 1) = (lineBytes entry).length + lineEnd rest index := by
  simp [lineEnd]

section Run

variable (probe : EndpointProbe)

theorem all_events_fetched (stopOnSuccess : Bool) (sink : Sink) (paths : List String) (event : Log.Event)
    (logged : event ∈ (all probe stopOnSuccess sink paths).events) :
    ∃ path ∈ paths, event ∈ (fetch probe path).events := by
  induction paths generalizing sink with
  | nil => cases logged
  | cons path rest ih =>
      cases returned : (fetch probe path).outcome with
      | none =>
          rw [all_step_stuck probe stopOnSuccess sink path rest returned] at logged
          exact ⟨path, List.mem_cons_self, logged⟩
      | some outcome =>
          cases written : sink.write (lineBytes ⟨path, outcome⟩) with
          | mk taken result =>
              cases result with
              | error failure =>
                  rw [all_step_refused probe stopOnSuccess sink path rest outcome returned taken failure written] at logged
                  exact ⟨path, List.mem_cons_self, logged⟩
              | ok next =>
                  rw [all_step_taken probe stopOnSuccess sink path rest outcome returned next taken written] at logged
                  rcases List.mem_append.mp logged with now | behind
                  · exact ⟨path, List.mem_cons_self, now⟩
                  · by_cases stops : (stopOnSuccess && (Probed.mk path outcome).body?.isSome) = true
                    · rw [if_pos stops] at behind
                      cases behind
                    · rw [if_neg stops] at behind
                      obtain ⟨other, member, fetched⟩ := ih next behind
                      exact ⟨other, List.mem_cons_of_mem path member, fetched⟩

def tried (stopOnSuccess : Bool) (paths : List String) : List String :=
  if stopOnSuccess then throughFirst probe paths else paths

theorem all_tried (stopOnSuccess : Bool) (sink : Sink) (paths : List String) :
    all probe stopOnSuccess sink paths = all probe false sink (tried probe stopOnSuccess paths) := by
  cases stopOnSuccess with
  | false => rfl
  | true => exact all_stopping probe sink paths

theorem tried_begins (stopOnSuccess : Bool) (paths : List String) : tried probe stopOnSuccess paths <+: paths := by
  cases stopOnSuccess with
  | false => exact List.prefix_rfl
  | true => exact (through_first_shortest probe paths).1

theorem tried_report (stopOnSuccess : Bool) (paths : List String) :
    (reference probe (tried probe stopOnSuccess paths)).report =
        some (.ok (heard probe (tried probe stopOnSuccess paths))) ∨
      (reference probe (tried probe stopOnSuccess paths)).report = none ∧
        ∃ path ∈ paths, (fetch probe path).outcome = none := by
  refine (reference_report probe _).imp_right ?_
  rintro ⟨waits, path, member, stalled⟩
  exact ⟨waits, path, (tried_begins probe stopOnSuccess paths).subset member, stalled⟩

theorem all_cons_fits (failure : SinkError) (room : Nat) (path : String) (rest : List String) (outcome : Outcome)
    (returned : (fetch probe path).outcome = some outcome) (fits : (lineBytes ⟨path, outcome⟩).length ≤ room) :
    all probe false (.limited room failure) (path :: rest) =
      (all probe false (.limited (room - (lineBytes ⟨path, outcome⟩).length) failure) rest).after ⟨path, outcome⟩
        (fetch probe path) (lineBytes ⟨path, outcome⟩) := by
  rw [all_step_taken probe false _ path rest outcome returned _ _ (Sink.write_fits room failure _ fits), Bool.false_and,
    if_neg Bool.false_ne_true]

theorem all_fits (failure : SinkError) (room : Nat) (paths : List String)
    (fits : (reference probe paths).written.length ≤ room) :
    all probe false (.limited room failure) paths = reference probe paths := by
  induction paths generalizing room with
  | nil => rfl
  | cons path rest ih =>
      cases returned : (fetch probe path).outcome with
      | none => rw [all_step_stuck probe false _ path rest returned, reference_stuck probe path rest returned]
      | some outcome =>
          rw [reference_cons probe path rest outcome returned] at fits ⊢
          simp only [Run.after, List.length_append] at fits
          rw [all_cons_fits probe failure room path rest outcome returned (by omega), ih _ (by omega)]

-- The first entry whose line ends beyond the room is the last that is probed.
theorem all_cut (failure : SinkError) (room : Nat) (paths : List String)
    (short : room < (reference probe paths).written.length) :
    ∃ first, first < (heard probe paths).length ∧
      (∀ index, index < first → lineEnd (heard probe paths) index ≤ room) ∧
      room < lineEnd (heard probe paths) first ∧
      all probe false (.limited room failure) paths =
        { report := some (.error failure)
          written := (reference probe paths).written.take room
          requests := ((heard probe paths).take (first + 1)).flatMap fun entry => (fetch probe entry.path).requests
          events := ((heard probe paths).take (first + 1)).flatMap fun entry => (fetch probe entry.path).events } := by
  induction paths generalizing room with
  | nil => exact absurd short (Nat.not_lt_zero room)
  | cons path rest ih =>
      cases returned : (fetch probe path).outcome with
      | none =>
          rw [reference_stuck probe path rest returned] at short
          exact absurd short (Nat.not_lt_zero room)
      | some outcome =>
          rw [heard_cons probe path rest outcome returned]
          rw [reference_cons probe path rest outcome returned] at short ⊢
          simp only [Run.after, List.length_append] at short ⊢
          by_cases fits : (lineBytes ⟨path, outcome⟩).length ≤ room
          · obtain ⟨first, listed, before, past, run⟩ := ih (room - (lineBytes ⟨path, outcome⟩).length) (by omega)
            refine ⟨first + 1, Nat.succ_lt_succ listed, ?_, ?_, ?_⟩
            · intro index earlier
              cases index with
              | zero =>
                  rw [line_end_head]
                  exact fits
              | succ index =>
                  have ends := before index (Nat.lt_of_succ_lt_succ earlier)
                  rw [line_end_later]
                  omega
            · rw [line_end_later]
              omega
            · rw [all_cons_fits probe failure room path rest outcome returned fits, run, List.take_append,
                List.take_of_length_le fits, List.take_succ_cons, List.flatMap_cons, List.flatMap_cons]
              rfl
          · have cut : room < (lineBytes ⟨path, outcome⟩).length := Nat.lt_of_not_le fits
            refine ⟨0, Nat.zero_lt_succ _, fun index none => absurd none (Nat.not_lt_zero index), ?_, ?_⟩
            · rw [line_end_head]
              exact cut
            · rw [all_step_refused probe false _ path rest outcome returned _ failure
                  (Sink.write_short room failure _ cut), List.take_append_of_le_length (Nat.le_of_lt cut)]
              simp [Run.cut]

theorem all_unfailed (stopOnSuccess : Bool) (sink : Sink) (paths : List String)
    (unfailed : ∀ failure, (all probe stopOnSuccess sink paths).report ≠ some (.error failure)) :
    all probe stopOnSuccess sink paths = reference probe (tried probe stopOnSuccess paths) := by
  rw [all_tried] at unfailed ⊢
  cases sink with
  | unlimited => exact all_unlimited_reference probe _
  | limited room failure =>
      by_cases fits : (reference probe (tried probe stopOnSuccess paths)).written.length ≤ room
      · exact all_fits probe failure room _ fits
      · obtain ⟨_, _, _, _, run⟩ := all_cut probe failure room _ (Nat.lt_of_not_le fits)
        exact absurd (by rw [run]) (unfailed failure)

theorem limited_sink_cuts_run (stopOnSuccess : Bool) (paths : List String) (room : Nat) :
    ∃ report : Report,
      ((all probe stopOnSuccess .unlimited paths).report = some (.ok report) ∨
        (all probe stopOnSuccess .unlimited paths).report = none ∧ ∃ path ∈ paths, (fetch probe path).outcome = none) ∧
      (all probe stopOnSuccess .unlimited paths).written = report.flatMap lineBytes ∧
      report.map Probed.path <+: paths ∧
      (∀ entry ∈ report, (fetch probe entry.path).outcome = some entry.outcome) ∧
      ((all probe stopOnSuccess .unlimited paths).written.length ≤ room →
        all probe stopOnSuccess (.limited room .writeZero) paths = all probe stopOnSuccess .unlimited paths) ∧
      (room < (all probe stopOnSuccess .unlimited paths).written.length →
        (all probe stopOnSuccess (.limited room .writeZero) paths).report = some (.error .writeZero) ∧
        (all probe stopOnSuccess (.limited room .writeZero) paths).written =
          (all probe stopOnSuccess .unlimited paths).written.take room ∧
        ∃ first, first < report.length ∧ (∀ index, index < first → lineEnd report index ≤ room) ∧
          room < lineEnd report first ∧
          (all probe stopOnSuccess (.limited room .writeZero) paths).requests =
            (report.take (first + 1)).flatMap fun entry => (fetch probe entry.path).requests) := by
  have whole (sink : Sink) := all_tried probe stopOnSuccess sink paths
  rw [whole, whole, all_unlimited_reference]
  refine ⟨heard probe (tried probe stopOnSuccess paths), ?_, rfl, ?_, heard_entries probe _,
    all_fits probe .writeZero room _, ?_⟩
  · exact tried_report probe stopOnSuccess paths
  · rw [heard_paths]
    exact (List.take_prefix _ _).trans (tried_begins probe stopOnSuccess paths)
  · intro short
    obtain ⟨first, listed, before, past, run⟩ := all_cut probe .writeZero room _ short
    rw [run]
    exact ⟨rfl, rfl, first, listed, before, past, rfl⟩

end Run
end Devnet.Probe
