import Devnet.Probe.Run
import Devnet.Proofs.Text.Utf8
import Mathlib.Data.List.Basic
import Mathlib.Data.List.Forall2

set_option autoImplicit false

namespace Devnet.Sink

theorem write_fits (room : Nat) (failure : SinkError) (bytes : Bytes) (fits : bytes.length ≤ room) :
    (Sink.limited room failure).write bytes = (bytes, .ok (.limited (room - bytes.length) failure)) := by
  rw [write, if_pos fits]

theorem write_short (room : Nat) (failure : SinkError) (bytes : Bytes) (short : room < bytes.length) :
    (Sink.limited room failure).write bytes = (bytes.take room, .error failure) := by
  rw [write, if_neg (Nat.not_le.mpr short)]

theorem write_pieces (sink : Sink) (pieces : List Bytes) :
    sink.writePieces pieces = sink.write pieces.flatten := by
  induction pieces generalizing sink with
  | nil => cases sink <;> simp [writePieces, write]
  | cons piece rest ih =>
      cases sink with
      | unlimited =>
          rw [writePieces, List.flatten_cons]
          simp only [write, ih]
      | limited room failure =>
          rw [writePieces, List.flatten_cons]
          by_cases fits : piece.length ≤ room
          · rw [write_fits room failure piece fits]
            simp only [ih]
            by_cases whole : (piece ++ rest.flatten).length ≤ room
            · have later : rest.flatten.length ≤ room - piece.length := by
                rw [List.length_append] at whole
                omega
              rw [write_fits _ failure _ later, write_fits _ failure _ whole, List.length_append, Nat.sub_add_eq]
            · have beyond : room - piece.length < rest.flatten.length := by
                rw [List.length_append] at whole
                omega
              rw [write_short _ failure _ beyond, write_short _ failure _ (Nat.lt_of_not_le whole),
                List.take_append, List.take_of_length_le fits]
          · have short : room < piece.length := Nat.lt_of_not_le fits
            have beyond : room < (piece ++ rest.flatten).length := by
              rw [List.length_append]
              omega
            rw [write_short _ failure _ short, write_short _ failure _ beyond,
              List.take_append_of_le_length (Nat.le_of_lt short)]

end Devnet.Sink

namespace Devnet.Probe

def writtenLine (path : String) : Outcome → String
  | .ok body => "Success on " ++ path ++ ": " ++ body ++ "\n"
  | .error e => "Error: " ++ e.message ++ "\n"

def lineBytes (entry : Probed) : Bytes := (writtenLine entry.path entry.outcome).toUTF8.data.toList

theorem line_bytes_encoded (entry : Probed) : lineBytes entry = Utf8.encode (writtenLine entry.path entry.outcome) :=
  (Utf8.encode_standard _).symm

-- A sink may be full within any piece of a line: what it took is what it takes of the whole line.
theorem write_line (sink : Sink) (entry : Probed) :
    sink.writePieces (entry.pieces.map Utf8.encode) = sink.write (lineBytes entry) := by
  obtain ⟨path, outcome⟩ := entry
  rw [Sink.write_pieces, line_bytes_encoded]
  cases outcome <;> simp [Probed.pieces, writtenLine, Utf8.encode_append]

theorem body_of_outcome (path : String) (outcome : Outcome) :
    (Probed.mk path outcome).body?.isSome = true ↔ ∃ body, outcome = .ok body := by
  cases outcome <;> simp [Probed.body?, Except.toOption]

theorem fetch_events_cases (probe : EndpointProbe) (path : String) (event : Log.Event)
    (logged : event ∈ (fetch probe path).events) :
    (∃ url, event = asking url) ∨ ∃ url status, event = answered url status := by
  rw [fetch] at logged
  cases joined : endpoint probe.base path with
  | error e =>
      rw [joined] at logged
      cases logged
  | ok url =>
      rw [joined] at logged
      rcases result : (probe.client.get probe.timeout url).result with _ | cause | answer
      · simp only [result, List.mem_singleton] at logged
        exact .inl ⟨url, logged⟩
      · simp only [result, List.mem_singleton] at logged
        exact .inl ⟨url, logged⟩
      · simp only [result, List.mem_cons, List.not_mem_nil, or_false] at logged
        rcases logged with first | second
        · exact .inl ⟨url, first⟩
        · exact .inr ⟨url, answer.status, second⟩

section Steps

variable (probe : EndpointProbe) (stopOnSuccess : Bool) (sink : Sink) (path : String) (rest : List String)

theorem all_step_stuck (waits : (fetch probe path).outcome = none) :
    all probe stopOnSuccess sink (path :: rest) = .stuck (fetch probe path) := by
  rw [all]
  simp only [waits]

variable (outcome : Outcome) (returned : (fetch probe path).outcome = some outcome)
include returned

theorem all_step_taken (next : Sink) (taken : Bytes)
    (written : sink.write (lineBytes ⟨path, outcome⟩) = (taken, .ok next)) :
    all probe stopOnSuccess sink (path :: rest) =
      (if stopOnSuccess && (Probed.mk path outcome).body?.isSome then Run.empty
        else all probe stopOnSuccess next rest).after ⟨path, outcome⟩ (fetch probe path) taken := by
  rw [all]
  simp only [returned, write_line, written]
  by_cases stops : (stopOnSuccess && (Probed.mk path outcome).body?.isSome) = true
  · rw [if_pos stops, if_pos stops]
  · rw [if_neg stops, if_neg stops]

theorem all_step_refused (taken : Bytes) (failure : SinkError)
    (written : sink.write (lineBytes ⟨path, outcome⟩) = (taken, .error failure)) :
    all probe stopOnSuccess sink (path :: rest) = .cut (fetch probe path) taken failure := by
  rw [all]
  simp only [returned, write_line, written]

end Steps

-- The entries of the paths in front of the first one that is waited for without end.
def heard (probe : EndpointProbe) : List String → Report
  | [] => []
  | path :: rest =>
      match (fetch probe path).outcome with
      | none => []
      | some outcome => ⟨path, outcome⟩ :: heard probe rest

def reference (probe : EndpointProbe) (paths : List String) : Run :=
  { report := if (heard probe paths).length = paths.length then some (.ok (heard probe paths)) else none
    written := (heard probe paths).flatMap lineBytes
    requests := (paths.take ((heard probe paths).length + 1)).flatMap fun path => (fetch probe path).requests
    events := (paths.take ((heard probe paths).length + 1)).flatMap fun path => (fetch probe path).events }

section Reference

variable (probe : EndpointProbe)

theorem heard_stuck (path : String) (rest : List String) (waits : (fetch probe path).outcome = none) :
    heard probe (path :: rest) = [] := by
  rw [heard, waits]

theorem heard_cons (path : String) (rest : List String) (outcome : Outcome)
    (returned : (fetch probe path).outcome = some outcome) :
    heard probe (path :: rest) = ⟨path, outcome⟩ :: heard probe rest := by
  rw [heard, returned]

theorem heard_entries (paths : List String) :
    ∀ entry ∈ heard probe paths, (fetch probe entry.path).outcome = some entry.outcome := by
  induction paths with
  | nil =>
      intro _ member
      cases member
  | cons path rest ih =>
      cases returned : (fetch probe path).outcome with
      | none =>
          rw [heard_stuck probe path rest returned]
          intro _ member
          cases member
      | some outcome =>
          rw [heard_cons probe path rest outcome returned]
          intro entry member
          rcases List.mem_cons.mp member with rfl | later
          · exact returned
          · exact ih entry later

theorem heard_paths (paths : List String) :
    (heard probe paths).map Probed.path = paths.take (heard probe paths).length := by
  induction paths with
  | nil => rfl
  | cons path rest ih =>
      cases returned : (fetch probe path).outcome with
      | none => rw [heard_stuck probe path rest returned, List.map_nil, List.length_nil, List.take_zero]
      | some outcome =>
          rw [heard_cons probe path rest outcome returned, List.map_cons, ih, List.length_cons, List.take_succ_cons]

theorem heard_whole_iff (paths : List String) :
    (heard probe paths).length = paths.length ↔ ∀ path ∈ paths, (fetch probe path).outcome ≠ none := by
  induction paths with
  | nil => simp [heard]
  | cons path rest ih =>
      cases returned : (fetch probe path).outcome with
      | none => simp [heard_stuck probe path rest returned, returned]
      | some outcome => simp [heard_cons probe path rest outcome returned, returned, ih]

theorem reference_stuck (path : String) (rest : List String) (waits : (fetch probe path).outcome = none) :
    reference probe (path :: rest) = .stuck (fetch probe path) := by
  simp [reference, heard_stuck probe path rest waits, Run.stuck]

theorem reference_cons (path : String) (rest : List String) (outcome : Outcome)
    (returned : (fetch probe path).outcome = some outcome) :
    reference probe (path :: rest) =
      (reference probe rest).after ⟨path, outcome⟩ (fetch probe path) (lineBytes ⟨path, outcome⟩) := by
  simp only [reference, heard_cons probe path rest outcome returned, Run.after, List.length_cons, List.take_succ_cons,
    List.flatMap_cons, Nat.add_right_cancel_iff]
  by_cases whole : (heard probe rest).length = rest.length
  · rw [if_pos whole, if_pos whole]
    rfl
  · rw [if_neg whole, if_neg whole]
    rfl

theorem all_unlimited_reference (paths : List String) : all probe false .unlimited paths = reference probe paths := by
  induction paths with
  | nil => rfl
  | cons path rest ih =>
      cases returned : (fetch probe path).outcome with
      | none => rw [all_step_stuck probe false _ path rest returned, reference_stuck probe path rest returned]
      | some outcome =>
          rw [all_step_taken probe false _ path rest outcome returned .unlimited _ rfl, Bool.false_and,
            if_neg Bool.false_ne_true, ih, reference_cons probe path rest outcome returned]

end Reference

section Stopping

variable (probe : EndpointProbe)

def Answers (path : String) : Prop := ∃ body, (fetch probe path).outcome = some (.ok body)

instance (path : String) : Decidable (Answers probe path) :=
  match returned : (fetch probe path).outcome with
  | some (.ok body) => .isTrue ⟨body, returned⟩
  | some (.error _) => .isFalse fun ⟨_, same⟩ => nomatch returned.symm.trans same
  | none => .isFalse fun ⟨_, same⟩ => nomatch returned.symm.trans same

theorem answers_iff_body (path : String) (outcome : Outcome) (returned : (fetch probe path).outcome = some outcome) :
    Answers probe path ↔ (Probed.mk path outcome).body?.isSome = true := by
  rw [body_of_outcome, Answers, returned]
  simp only [Option.some.injEq]

def throughFirst : List String → List String
  | [] => []
  | path :: rest => if Answers probe path then [path] else path :: throughFirst rest

theorem through_first_cons (path : String) (rest : List String) :
    ∃ later, throughFirst probe (path :: rest) = path :: later := by
  rw [throughFirst]
  by_cases answers : Answers probe path
  · exact ⟨[], if_pos answers⟩
  · exact ⟨throughFirst probe rest, if_neg answers⟩

theorem all_stopping (sink : Sink) (paths : List String) :
    all probe true sink paths = all probe false sink (throughFirst probe paths) := by
  induction paths generalizing sink with
  | nil => rfl
  | cons path rest ih =>
      cases returned : (fetch probe path).outcome with
      | none =>
          obtain ⟨later, same⟩ := through_first_cons probe path rest
          rw [same, all_step_stuck probe true sink path rest returned, all_step_stuck probe false sink path later returned]
      | some outcome =>
          cases written : sink.write (lineBytes ⟨path, outcome⟩) with
          | mk taken result =>
              cases result with
              | error failure =>
                  obtain ⟨later, same⟩ := through_first_cons probe path rest
                  rw [same, all_step_refused probe true sink path rest outcome returned taken failure written,
                    all_step_refused probe false sink path later outcome returned taken failure written]
              | ok next =>
                  have step (stops : Bool) (later : List String) :=
                    all_step_taken probe stops sink path later outcome returned next taken written
                  have answer := answers_iff_body probe path outcome returned
                  rw [throughFirst]
                  by_cases answers : Answers probe path
                  · rw [if_pos answers, step, step, answer.mp answers]
                    rfl
                  · rw [if_neg answers, step, step, ← ih, Bool.true_and, if_neg (mt answer.mpr answers)]
                    rfl

-- The shortest part in front of the paths with an answer in it; all of them if none answers.
def IsShortestWithAnswer (paths tried : List String) : Prop :=
  tried <+: paths ∧
    ((∃ path ∈ tried, Answers probe path) ∧
        (∀ front, front <+: paths → (∃ path ∈ front, Answers probe path) → tried.length ≤ front.length) ∨
      (∀ path ∈ paths, ¬ Answers probe path) ∧ tried = paths)

theorem through_first_shortest (paths : List String) :
    IsShortestWithAnswer probe paths (throughFirst probe paths) := by
  induction paths with
  | nil => exact ⟨List.prefix_rfl, .inr ⟨by simp, rfl⟩⟩
  | cons path rest ih =>
      rw [throughFirst]
      by_cases answers : Answers probe path
      · rw [if_pos answers]
        refine ⟨⟨rest, rfl⟩, .inl ⟨⟨path, List.mem_cons_self, answers⟩, ?_⟩⟩
        rintro front _ ⟨_, member, _⟩
        exact List.length_pos_of_mem member
      · rw [if_neg answers]
        refine ⟨(List.prefix_cons_inj path).mpr ih.1, ?_⟩
        rcases ih.2 with ⟨⟨answering, member, answer⟩, shortest⟩ | ⟨none, whole⟩
        · refine .inl ⟨⟨answering, List.mem_cons_of_mem path member, answer⟩, ?_⟩
          rintro front inFront ⟨other, otherMember, otherAnswer⟩
          cases front with
          | nil => cases otherMember
          | cons first more =>
              obtain ⟨rfl, inRest⟩ := List.cons_prefix_cons.mp inFront
              have later : other ∈ more := by
                rcases List.mem_cons.mp otherMember with rfl | later
                · exact absurd otherAnswer answers
                · exact later
              exact Nat.succ_le_succ (shortest more inRest ⟨other, later, otherAnswer⟩)
        · refine .inr ⟨?_, congrArg (path :: ·) whole⟩
          intro other member
          rcases List.mem_cons.mp member with rfl | later
          · exact answers
          · exact none other later

theorem first_success_through_first (paths : List String) :
    Report.firstSuccess? (heard probe (throughFirst probe paths)) = Report.firstSuccess? (heard probe paths) := by
  induction paths with
  | nil => rfl
  | cons path rest ih =>
      cases returned : (fetch probe path).outcome with
      | none =>
          obtain ⟨later, same⟩ := through_first_cons probe path rest
          rw [same, heard_stuck probe path later returned, heard_stuck probe path rest returned]
      | some outcome =>
          rw [throughFirst]
          by_cases answers : Answers probe path
          · obtain ⟨body, same⟩ := answers
            cases returned.symm.trans same
            rw [if_pos ⟨body, same⟩, heard_cons probe path _ _ same, heard_cons probe path _ _ same]
            rfl
          · have silent := mt (answers_iff_body probe path outcome returned).mpr answers
            rw [if_neg answers, heard_cons probe path _ _ returned, heard_cons probe path _ _ returned]
            simp only [Report.firstSuccess?, List.findSome?_cons, Option.not_isSome_iff_eq_none.mp silent,
              Option.map_none]
            exact ih

theorem successes_through_first (paths : List String) :
    Report.successes (heard probe (throughFirst probe paths)) = (Report.firstSuccess? (heard probe paths)).toList := by
  induction paths with
  | nil => rfl
  | cons path rest ih =>
      cases returned : (fetch probe path).outcome with
      | none =>
          obtain ⟨later, same⟩ := through_first_cons probe path rest
          rw [same, heard_stuck probe path later returned, heard_stuck probe path rest returned]
          rfl
      | some outcome =>
          rw [throughFirst]
          by_cases answers : Answers probe path
          · obtain ⟨body, same⟩ := answers
            cases returned.symm.trans same
            rw [if_pos ⟨body, same⟩, heard_cons probe path _ _ same, heard_cons probe path _ _ same]
            rfl
          · have silent := mt (answers_iff_body probe path outcome returned).mpr answers
            rw [if_neg answers, heard_cons probe path _ _ returned, heard_cons probe path _ _ returned]
            simp only [Report.firstSuccess?, Report.successes, List.findSome?_cons, List.filterMap_cons,
              Option.not_isSome_iff_eq_none.mp silent, Option.map_none]
            exact ih

theorem last_through_first (paths : List String) (path body : String)
    (first : Report.firstSuccess? (heard probe paths) = some (path, body)) :
    (heard probe (throughFirst probe paths)).getLast? = some ⟨path, .ok body⟩ := by
  induction paths with
  | nil => cases first
  | cons head rest ih =>
      cases returned : (fetch probe head).outcome with
      | none =>
          rw [heard_stuck probe head rest returned] at first
          cases first
      | some outcome =>
          rw [heard_cons probe head rest outcome returned] at first
          rw [throughFirst]
          by_cases answers : Answers probe head
          · obtain ⟨text, same⟩ := answers
            cases returned.symm.trans same
            cases first
            rw [if_pos ⟨_, same⟩, heard_cons probe _ _ _ same]
            rfl
          · have silent := mt (answers_iff_body probe head outcome returned).mpr answers
            simp only [Report.firstSuccess?, List.findSome?_cons, Option.not_isSome_iff_eq_none.mp silent,
              Option.map_none] at first
            rw [if_neg answers, heard_cons probe head _ _ returned, List.getLast?_cons, ih first]
            rfl

end Stopping

def Reports (probe : EndpointProbe) : List String → Report → Prop :=
  List.Forall₂ fun path entry => entry.path = path ∧ (fetch probe path).outcome = some entry.outcome

section Reports

variable (probe : EndpointProbe)

theorem reports_iff (paths : List String) (report : Report) :
    Reports probe paths report ↔ report = heard probe paths ∧ (heard probe paths).length = paths.length := by
  induction paths generalizing report with
  | nil => simp [Reports, heard]
  | cons path rest ih =>
      cases returned : (fetch probe path).outcome with
      | none =>
          rw [heard_stuck probe path rest returned]
          refine iff_of_false ?_ (by simp)
          intro reports
          cases reports with
          | cons head _ => cases returned.symm.trans head.2
      | some outcome =>
          rw [heard_cons probe path rest outcome returned]
          constructor
          · intro reports
            cases reports with
            | cons head later =>
                obtain ⟨rfl, same⟩ := head
                cases returned.symm.trans same
                obtain ⟨rfl, whole⟩ := (ih _).mp later
                exact ⟨rfl, congrArg (· + 1) whole⟩
          · rintro ⟨rfl, whole⟩
            exact .cons ⟨rfl, returned⟩ ((ih _).mpr ⟨rfl, Nat.succ.inj whole⟩)

theorem heard_front (front : List String) (path : String) (rest : List String) (report : Report)
    (reports : Reports probe front report) (waits : (fetch probe path).outcome = none) :
    heard probe (front ++ path :: rest) = report := by
  induction reports with
  | nil => exact heard_stuck probe path rest waits
  | cons head _ ih =>
      obtain ⟨rfl, returned⟩ := head
      rw [List.cons_append, heard_cons probe _ _ _ returned, ih]

theorem report_iff (paths : List String) (result : Except SinkError Report) :
    (reference probe paths).report = some result ↔ ∃ report, result = .ok report ∧ Reports probe paths report := by
  simp only [reports_iff, reference]
  by_cases whole : (heard probe paths).length = paths.length
  · simp [whole, eq_comm]
  · simp [whole]

theorem reference_report (paths : List String) :
    (reference probe paths).report = some (.ok (heard probe paths)) ∨
      (reference probe paths).report = none ∧ ∃ path ∈ paths, (fetch probe path).outcome = none := by
  by_cases whole : (heard probe paths).length = paths.length
  · exact .inl (if_pos whole)
  · refine .inr ⟨if_neg whole, ?_⟩
    rw [heard_whole_iff] at whole
    simpa only [ne_eq, not_forall, not_not, exists_prop] using whole

theorem all_report (paths : List String) (returns : ∀ path ∈ paths, (fetch probe path).outcome ≠ none) :
    (all probe false .unlimited paths).report = some (.ok (heard probe paths)) := by
  rw [all_unlimited_reference, reference, if_pos ((heard_whole_iff probe paths).mpr returns)]

theorem report_none_iff (paths : List String) :
    (reference probe paths).report = none ↔ ∃ path ∈ paths, (fetch probe path).outcome = none := by
  rcases reference_report probe paths with ends | ⟨waits, stalled⟩
  · obtain ⟨_, _, reports⟩ := (report_iff probe paths _).mp ends
    have returned := (heard_whole_iff probe paths).mp ((reports_iff probe paths _).mp reports).2
    refine iff_of_false (by rw [ends]; exact nofun) ?_
    rintro ⟨path, member, waits⟩
    exact returned path member waits
  · exact iff_of_true waits stalled

end Reports

theorem probing_is_its_single_probes (probe : EndpointProbe) (paths : List String) :
    ((all probe false .unlimited paths).report = none ↔ ∃ path ∈ paths, (fetch probe path).outcome = none) ∧
    (∀ result, (all probe false .unlimited paths).report = some result ↔
      ∃ report, result = .ok report ∧ Reports probe paths report) ∧
    (∀ report, Reports probe paths report →
      (all probe false .unlimited paths).written =
        report.flatMap (fun entry => (writtenLine entry.path entry.outcome).toUTF8.data.toList) ∧
      (all probe false .unlimited paths).requests = paths.flatMap fun path => (fetch probe path).requests) ∧
    (∀ front path rest report, paths = front ++ path :: rest → Reports probe front report →
      (fetch probe path).outcome = none →
        (all probe false .unlimited paths).written =
          report.flatMap (fun entry => (writtenLine entry.path entry.outcome).toUTF8.data.toList) ∧
        (all probe false .unlimited paths).requests =
          (front ++ [path]).flatMap fun path => (fetch probe path).requests) ∧
    (∃ tried, IsShortestWithAnswer probe paths tried ∧
      all probe true .unlimited paths = all probe false .unlimited tried) ∧
    (∀ full, (all probe false .unlimited paths).report = some (.ok full) →
      ∃ stopped : Report, (all probe true .unlimited paths).report = some (.ok stopped) ∧
        stopped.firstSuccess? = full.firstSuccess?) ∧
    ∀ stopped : Report, (all probe true .unlimited paths).report = some (.ok stopped) →
      stopped.successes = stopped.firstSuccess?.toList ∧
      ∀ path body, stopped.firstSuccess? = some (path, body) → stopped.getLast? = some ⟨path, .ok body⟩ := by
  rw [all_stopping, all_unlimited_reference, all_unlimited_reference]
  refine ⟨report_none_iff probe paths, report_iff probe paths, ?_, ?_, ?_, ?_, ?_⟩
  · intro report reports
    obtain ⟨rfl, whole⟩ := (reports_iff probe paths report).mp reports
    refine ⟨rfl, ?_⟩
    rw [reference, whole, List.take_of_length_le (Nat.le_succ _)]
  · rintro front path rest report rfl reports waits
    have entries := heard_front probe front path rest report reports waits
    have length : report.length = front.length := reports.length_eq.symm
    refine ⟨by rw [reference, entries]; rfl, ?_⟩
    have asked : (front ++ path :: rest).take (front.length + 1) = front ++ [path] := by
      rw [List.take_length_add_append, List.take_succ_cons, List.take_zero]
    rw [reference, entries, length, asked]
  · exact ⟨throughFirst probe paths, through_first_shortest probe paths,
      (all_unlimited_reference probe (throughFirst probe paths)).symm⟩
  · intro full reported
    obtain ⟨report, same, reports⟩ := (report_iff probe paths _).mp reported
    cases same
    obtain ⟨rfl, whole⟩ := (reports_iff probe paths full).mp reports
    have returns := (heard_whole_iff probe paths).mp whole
    have tried := (through_first_shortest probe paths).1
    refine ⟨heard probe (throughFirst probe paths), ?_, first_success_through_first probe paths⟩
    rw [reference, if_pos ((heard_whole_iff probe _).mpr fun path member => returns path (tried.subset member))]
  · intro stopped reported
    obtain ⟨report, same, reports⟩ := (report_iff probe _ _).mp reported
    cases same
    obtain ⟨rfl, -⟩ := (reports_iff probe _ stopped).mp reports
    rw [first_success_through_first]
    exact ⟨successes_through_first probe paths, last_through_first probe paths⟩

end Devnet.Probe
