import Devnet.Proofs.Log.Lines
import Devnet.Proofs.Probe.Cut
import Devnet.Proofs.Probe.Redirects
import Devnet.Proofs.Text.Decimal
import Devnet.Proofs.Url.Printable
import Mathlib.Data.List.Forall2

set_option autoImplicit false

namespace Devnet

theorem unbroken_around (front text behind : String) (first : Unbroken front) (middle : Unbroken text)
    (last : Unbroken behind) : Unbroken (front ++ text ++ behind) :=
  unbroken_append _ _ (unbroken_append _ _ first middle) last

theorem unbroken_feedless (text : String) (unbroken : Unbroken text) : '\n' ∉ text.toList :=
  fun member => (unbroken _ member).1 rfl

end Devnet

namespace Devnet.Utf8

theorem feed_spelled (n : Nat) (bytes : Bytes) (spells : Spells n bytes) : 10 ∈ bytes ↔ n = 10 := by
  have other (b : UInt8) (large : 0x80 ≤ b.toNat) : (10 : UInt8) ≠ b := by
    intro same
    rw [← same] at large
    exact absurd large (by decide)
  cases spells with
  | one a first small =>
      rw [List.mem_singleton, ← UInt8.toNat_inj, first]
      exact eq_comm
  | two a b first second low high =>
      refine iff_of_false ?_ (by omega)
      simp [other a (by omega), other b (by omega)]
  | three a b c first second third low high scalar =>
      refine iff_of_false ?_ (by omega)
      simp [other a (by omega), other b (by omega), other c (by omega)]
  | four a b c d first second third fourth low high =>
      refine iff_of_false ?_ (by omega)
      simp [other a (by omega), other b (by omega), other c (by omega), other d (by omega)]

theorem feed_encoded (text : String) : 10 ∈ encode text ↔ '\n' ∈ text.toList := by
  have each (c : Char) : 10 ∈ encodeChar c ↔ c = '\n' := by
    have feed : '\n'.toNat = 10 := rfl
    rw [feed_spelled c.toNat (encodeChar c) (encoded_spells c), ← feed, Char.toNat_inj]
  simp [encode, each]

theorem encode_injective (a b : String) (same : encode a = encode b) : a = b := by
  have left := (decode_ok_iff (encode a) a).mpr rfl
  have right := (decode_ok_iff (encode a) b).mpr same.symm
  exact Except.ok.inj (left.symm.trans right)

theorem decode_message_unbroken (e : DecodeError) : Unbroken e.message := by
  have number (n : Nat) : Unbroken (toString n) := Numeral.decimal_standard n ▸ decimal_unbroken n
  have invalid : Unbroken "invalid utf-8 sequence of " := by decide
  have whence : Unbroken " bytes from index " := by decide
  have incomplete : Unbroken "incomplete utf-8 byte sequence from index " := by decide
  rw [DecodeError.message]
  cases e.length with
  | some length =>
      exact unbroken_append _ _ (unbroken_around _ _ _ invalid (number length) whence) (number e.index)
  | none => exact unbroken_append _ _ incomplete (number e.index)

end Devnet.Utf8

namespace Devnet.Url

theorem printable_unbroken (url : Url) (parts : url.HasPrintableParts) : Unbroken url.text := by
  intro c member
  have printable := url.text_printable parts c member
  constructor
  · intro same
    rw [same] at printable
    cases printable
  · intro same
    rw [same] at printable
    cases printable

end Devnet.Url

namespace Devnet.Http

theorem reached_printable {client : Client} {network : Network} {origin url : Url} {count : Nat}
    (parts : origin.HasPrintableParts) (reached : Reaches client network origin count url) : url.HasPrintableParts := by
  induction reached with
  | start => exact parts
  | next count url target _ redirects ih =>
      obtain ⟨_, response, _, sent⟩ := redirects
      obtain ⟨location, _, joined⟩ := sent.location
      exact url.join_printable target location ih joined

theorem reason_unbroken (status : Status) : Unbroken status.reason := by
  unfold Status.reason Status.reason?
  split <;> decide

theorem told_unbroken {client : Client} {timeout : Option Duration} {network : Network} {origin : Url} {ending : Ending}
    {cause : Failure} (parts : origin.HasPrintableParts)
    (told : Told client timeout network origin ending (some (.error cause))) :
    cause.isTimeout = true ∨ Unbroken cause.text := by
  have sending : Unbroken "error sending request for url (" := by decide
  have closing : Unbroken ")" := by decide
  have named (url : Url) (url_parts : url.HasPrintableParts) : Unbroken url.withoutUserinfo.text :=
    Url.printable_unbroken _ (url.without_userinfo_printable url_parts)
  cases told with
  | unsent count url reached =>
      have url_parts := reached_printable parts reached
      have builder : Unbroken "builder error for url (" := by decide
      refine .inr (unbroken_around _ _ _ builder (named _ ?_) closing)
      split
      · exact url_parts
      · exact url.without_fragment_printable url_parts
  | refused => exact .inr (unbroken_around _ _ _ sending (named origin parts) closing)
  | broken => exact .inr (unbroken_around _ _ _ sending (named origin parts) closing)
  | expired _ _ late => exact .inl late
  | lost url reached =>
      have url_parts := reached_printable parts reached
      have following : Unbroken "error following redirect for url (" := by decide
      have bare := Url.printable_unbroken _
        (url.withoutUserinfo.without_fragment_printable (url.without_userinfo_printable url_parts))
      exact .inr (unbroken_around _ _ _ following bare closing)

theorem arrives_unbroken {timeout : Option Duration} {body : Body} {cause : Failure}
    (arrives : Arrives timeout body (some (.error cause))) : Unbroken cause.text := by
  have fixed : Unbroken bodyText := by decide
  cases arrives with
  | cut _ told => exact told ▸ fixed
  | expired _ _ told => exact told ▸ fixed

end Devnet.Http

namespace Devnet.Probe

open Http (Network)

theorem send_message_unbroken (url : Url) (cause : Http.Failure) (parts : url.HasPrintableParts)
    (told : cause.isTimeout = true ∨ Unbroken cause.text) : Unbroken (ProbeError.ofSend url cause).message := by
  have text := Url.printable_unbroken url parts
  have asking : Unbroken "request to " := by decide
  have failed : Unbroken " failed: " := by decide
  rw [ProbeError.ofSend]
  by_cases late : cause.isTimeout = true
  · rw [if_pos late]
    exact unbroken_around _ _ _ asking text (by decide)
  · have plain := told.resolve_left late
    rw [if_neg late]
    by_cases connecting : cause.isConnect = true
    · have connection : Unbroken "connection to " := by decide
      rw [if_pos connecting]
      exact unbroken_append _ _ (unbroken_around _ _ _ connection text failed) plain
    · rw [if_neg connecting]
      exact unbroken_append _ _ (unbroken_around _ _ _ asking text failed) plain

theorem outcome_message_unbroken (url : Url) (answer : Http.Answer) (e : ProbeError) (parts : url.HasPrintableParts)
    (told : ∀ cause, answer.bytes = some (.error cause) → Unbroken cause.text)
    (fails : outcomeOf url answer = some (.error e)) : Unbroken e.message := by
  have text := Url.printable_unbroken url parts
  have colon : Unbroken ": " := by decide
  rcases outcome_error_cases url answer e fails with rfl | ⟨cause, broken, rfl⟩ | ⟨cause, rfl⟩
  · have opening : Unbroken "HTTP Error " := by decide
    have blank : Unbroken " " := by decide
    have naming : Unbroken " for " := by decide
    have code := unbroken_around _ _ _ opening (decimal_unbroken answer.status) blank
    exact unbroken_append _ _ (unbroken_around _ _ _ code (Http.reason_unbroken answer.status) naming) text
  · have opening : Unbroken "failed to read response body from " := by decide
    exact unbroken_append _ _ (unbroken_around _ _ _ opening text colon) (told cause broken)
  · have opening : Unbroken "failed to decode response body from " := by decide
    exact unbroken_append _ _ (unbroken_around _ _ _ opening text colon) (Utf8.decode_message_unbroken cause)

theorem invalid_message_feeds (path : String) (cause : Url.ParseError) :
    '\n' ∈ (ProbeError.invalidUrl path cause).message.toList ↔ '\n' ∈ path.toList := by
  have opening : Unbroken "invalid endpoint \x60" := by decide
  have closing : Unbroken "\x60: " := by decide
  have told : Unbroken cause.message := by cases cause <;> decide
  have message : (ProbeError.invalidUrl path cause).message =
      "invalid endpoint \x60" ++ path ++ "\x60: " ++ cause.message := rfl
  simp only [message, String.toList_append, List.mem_append, unbroken_feedless _ opening, unbroken_feedless _ closing,
    unbroken_feedless _ told, false_or, or_false]

section Fetch

variable (probe : EndpointProbe) (network : Network) (rules : probe.client.Rules probe.timeout network)
  (parts : probe.base.HasPrintableParts)

section Told

include rules parts

theorem joined_message_unbroken (path : String) (url : Url) (joined : probe.base.join path = .ok url) (e : ProbeError)
    (fails : (fetch probe path).outcome = some (.error e)) : Unbroken e.message := by
  have url_parts := probe.base.join_printable url path parts joined
  obtain ⟨ending, ends⟩ := Http.ends_somehow probe.client network url
  have told := Http.told_of_ending rules ends
  rw [(fetch_joined probe path url joined).1] at fails
  rcases result : (probe.client.get probe.timeout url).result with _ | (cause | answer)
  · rw [result] at fails
    cases fails
  · rw [result] at fails told
    cases fails
    exact send_message_unbroken url cause url_parts (Http.told_unbroken url_parts told)
  · rw [result] at fails told
    cases told with
    | final response bytes arrives =>
        refine outcome_message_unbroken url _ e url_parts ?_ fails
        rintro cause rfl
        exact Http.arrives_unbroken arrives

theorem message_feeds_iff (path : String) (e : ProbeError) (fails : (fetch probe path).outcome = some (.error e)) :
    '\n' ∈ e.message.toList ↔ '\n' ∈ path.toList ∧ ∃ cause, e = .invalidUrl path cause := by
  cases joined : probe.base.join path with
  | error cause =>
      rw [fetch_unjoined probe path cause joined] at fails
      cases fails
      rw [invalid_message_feeds]
      exact ⟨fun member => ⟨member, cause, rfl⟩, fun both => both.1⟩
  | ok url =>
      have unbroken := joined_message_unbroken probe network rules parts path url joined e fails
      refine iff_of_false (unbroken_feedless _ unbroken) ?_
      rintro ⟨_, cause, rfl⟩
      cases joined.symm.trans ((invalid_iff probe path path cause).mp fails).2

end Told

include rules

theorem body_served (path body : String) (answers : (fetch probe path).outcome = some (.ok body)) :
    ∃ url response, network url = .respond response ∧ (200 ≤ response.status ∧ response.status ≤ 299) ∧
      response.content = .whole (Utf8.encode body) := by
  obtain ⟨_, response, bytes, _, ends, successful, whole, rfl⟩ := (ok_iff probe network rules path body).mp answers
  rw [← Utf8.encode_standard] at whole
  cases ends with
  | stopped _ last _ _ _ stops =>
      cases stops with
      | final _ _ reaction _ => exact ⟨last, response, reaction, successful, whole⟩

end Fetch

-- No body that is served whole and with success holds a line feed.
def ServesLines (network : Network) : Prop :=
  ∀ url response bytes, network url = .respond response → 200 ≤ response.status → response.status ≤ 299 →
    response.content = .whole bytes → 10 ∉ bytes

theorem content_feedless (response : Http.Response) (bytes : Bytes) (whole : response.content = .whole bytes)
    (feedless : ∀ body, response.body = .whole body → 10 ∉ body) : 10 ∉ bytes := by
  rw [Http.Response.content] at whole
  split at whole
  · cases whole
    exact List.not_mem_nil
  · exact feedless bytes whole

theorem serves_routed (node : Http.Node)
    (routes : ∀ route ∈ node.routes, ∀ response body, route.reaction = .respond response →
      response.body = .whole body → 10 ∉ body) :
    ServesLines node.network := by
  intro url response bytes reaction _ _ whole
  apply content_feedless response bytes whole
  rw [Http.Node.network] at reaction
  by_cases served : (url.scheme == "http" &&
      url.authority.map Url.Authority.host != some (.ipv4 Http.Node.deadAddress)) = true
  · rw [if_pos served, Http.Node.react] at reaction
    split at reaction
    case h_1 route found => exact fun body => routes route (List.mem_of_find?_eq_some found) response body reaction
    case h_2 =>
      cases reaction
      rintro _ ⟨⟩
      exact List.not_mem_nil
  · rw [if_neg served] at reaction
    cases reaction

structure Tells (entry : Probed) (line : Bytes) : Prop where
  single : 10 ∉ line
  answered : ∀ body, entry.outcome = .ok body ↔ line = Utf8.encode ("Success on " ++ entry.path ++ ": " ++ body)
  opened : (∃ body, entry.outcome = .ok body) ↔ Utf8.encode ("Success on " ++ entry.path ++ ": ") <+: line
  failed : ∀ e, entry.outcome = .error e → line = Utf8.encode ("Error: " ++ e.message)
  complains : (∃ e, entry.outcome = .error e) ↔ Utf8.encode "Error: " <+: line

def content (entry : Probed) : String :=
  match entry.outcome with
  | .ok body => "Success on " ++ entry.path ++ ": " ++ body
  | .error e => "Error: " ++ e.message

theorem line_bytes_content (entry : Probed) : lineBytes entry = Utf8.encode (content entry) ++ [10] := by
  obtain ⟨path, outcome⟩ := entry
  have feed : Utf8.encode "\n" = [10] := by decide
  rw [line_bytes_encoded]
  cases outcome <;> rw [writtenLine, Utf8.encode_append, feed] <;> rfl

theorem opening_head (path behind : String) : (Utf8.encode ("Success on " ++ path ++ behind)).head? = some 0x53 := by
  have first : (Utf8.encode "Success on ").head? = some 0x53 := by decide
  rw [Utf8.encode_append, Utf8.encode_append, List.append_assoc, List.head?_append, first]
  rfl

theorem complaint_head (behind : String) : (Utf8.encode ("Error: " ++ behind)).head? = some 0x45 := by
  have first : (Utf8.encode "Error: ").head? = some 0x45 := by decide
  rw [Utf8.encode_append, List.head?_append, first]
  rfl

theorem heads_apart (a b : Bytes) (first second : UInt8) (starts : a.head? = some first) (other : b.head? = some second)
    (apart : first ≠ second) : ¬ a <+: b := by
  intro inside
  obtain ⟨rest, same⟩ := inside
  have heads := congrArg List.head? same
  rw [List.head?_append, starts, other] at heads
  exact apart (Option.some.inj heads)

theorem tells_content (entry : Probed) (plain : '\n' ∉ (content entry).toList) :
    Tells entry (Utf8.encode (content entry)) := by
  have single : 10 ∉ Utf8.encode (content entry) := fun member => plain ((Utf8.feed_encoded _).mp member)
  obtain ⟨path, outcome⟩ := entry
  cases outcome with
  | ok body =>
      have complaint : ¬ Utf8.encode "Error: " <+: Utf8.encode ("Success on " ++ path ++ ": " ++ body) := by
        have opening := opening_head path (": " ++ body)
        rw [← String.append_assoc] at opening
        exact heads_apart _ _ 0x45 0x53 (by decide) opening (by decide)
      refine ⟨single, ?_, ?_, fun e same => (nomatch same), ?_⟩
      · intro other
        constructor
        · intro same
          rw [← Except.ok.inj same]
          rfl
        · intro same
          have texts := Utf8.encode_injective _ _ same
          rw [(String.append_right_inj _).mp texts]
      · refine iff_of_true ⟨body, rfl⟩ ?_
        rw [content, Utf8.encode_append _ body]
        exact List.prefix_append _ _
      · refine iff_of_false ?_ complaint
        intro fails
        obtain ⟨_, same⟩ := fails
        cases same
  | error e =>
      have opening (behind : String) : ¬ Utf8.encode ("Success on " ++ path ++ behind) <+: Utf8.encode ("Error: " ++ e.message) :=
        heads_apart _ _ 0x53 0x45 (opening_head path behind) (complaint_head e.message) (by decide)
      refine ⟨single, ?_, ?_, ?_, ?_⟩
      · intro body
        refine iff_of_false (fun same => nomatch same) ?_
        intro same
        have inside := opening (": " ++ body)
        rw [← String.append_assoc, ← same] at inside
        exact inside List.prefix_rfl
      · refine iff_of_false ?_ (opening ": ")
        intro answers
        obtain ⟨_, same⟩ := answers
        cases same
      · intro other same
        rw [← Except.error.inj same]
        rfl
      · refine iff_of_true ⟨e, rfl⟩ ?_
        rw [content, Utf8.encode_append]
        exact List.prefix_append _ _

end Devnet.Probe

namespace Devnet.Sink

def Takes (sink : Sink) (bytes : Bytes) : Prop := ∀ failure, (sink.write bytes).2 ≠ .error failure

end Devnet.Sink

namespace Devnet.Probe

section Run

variable (probe : EndpointProbe)

theorem all_taken (stopOnSuccess : Bool) (sink : Sink) (paths : List String)
    (takes : sink.Takes (all probe stopOnSuccess .unlimited paths).written) :
    all probe stopOnSuccess sink paths = reference probe (tried probe stopOnSuccess paths) := by
  rw [all_tried, all_unlimited_reference] at takes
  rw [all_tried]
  cases sink with
  | unlimited => exact all_unlimited_reference probe _
  | limited room failure =>
      apply all_fits
      by_cases fits : (reference probe (tried probe stopOnSuccess paths)).written.length ≤ room
      · exact fits
      · rw [Sink.Takes, Sink.write_short room failure _ (Nat.lt_of_not_le fits)] at takes
        exact absurd rfl (takes failure)

theorem entry_tells (network : Http.Network) (rules : probe.client.Rules probe.timeout network)
    (parts : probe.base.HasPrintableParts) (serves : ServesLines network) (entry : Probed)
    (returned : (fetch probe entry.path).outcome = some entry.outcome) (plain : '\n' ∉ entry.path.toList) :
    Tells entry (Utf8.encode (content entry)) := by
  apply tells_content
  obtain ⟨path, body | e⟩ := entry
  · have complaint : Unbroken "Error: " := by decide
    have message := message_feeds_iff probe network rules parts path _ returned
    simp only [content, String.toList_append, List.mem_append, unbroken_feedless _ complaint, message, false_or, not_and]
    exact fun feeds => absurd feeds plain
  · obtain ⟨url, response, reaction, successful, whole⟩ := body_served probe network rules path _ returned
    have feedless := serves url response _ reaction successful.1 successful.2 whole
    rw [Utf8.feed_encoded] at feedless
    have opening : Unbroken "Success on " := by decide
    have colon : Unbroken ": " := by decide
    simp only [content, String.toList_append, List.mem_append, unbroken_feedless _ opening, unbroken_feedless _ colon,
      feedless, or_false, false_or]
    exact plain

end Run

theorem run_writes_lines (text : String) (probe : EndpointProbe) (read : Url.parse text = .ok probe.base)
    (network : Http.Network) (rules : probe.client.Rules probe.timeout network) :
    (∀ stopOnSuccess sink paths, ServesLines network → (∀ path ∈ paths, '\n' ∉ path.toList) →
      sink.Takes (all probe stopOnSuccess .unlimited paths).written →
        ∃ (report : Report) (lines : List Bytes),
          ((all probe stopOnSuccess sink paths).report = some (.ok report) ∨
            (all probe stopOnSuccess sink paths).report = none ∧ ∃ path ∈ paths, (fetch probe path).outcome = none) ∧
          (all probe stopOnSuccess sink paths).written = lines.flatMap (fun line => line ++ [10]) ∧
          lines.length = report.length ∧ report.map Probed.path <+: paths ∧
          (∀ entry ∈ report, (fetch probe entry.path).outcome = some entry.outcome) ∧ List.Forall₂ Tells report lines) ∧
    ∀ path e, (fetch probe path).outcome = some (.error e) →
      ('\n' ∈ e.message.toList ↔ '\n' ∈ path.toList ∧ ∃ cause, e = .invalidUrl path cause) := by
  have parts := Url.parse_printable text probe.base read
  refine ⟨?_, message_feeds_iff probe network rules parts⟩
  intro stopOnSuccess sink paths serves plain takes
  have begins := tried_begins probe stopOnSuccess paths
  have reported := tried_report probe stopOnSuccess paths
  rw [all_taken probe stopOnSuccess sink paths takes]
  generalize tried probe stopOnSuccess paths = reached at begins reported
  have entries := heard_entries probe reached
  have named : (heard probe reached).map Probed.path <+: paths := by
    rw [heard_paths]
    exact (List.take_prefix _ _).trans begins
  refine ⟨heard probe reached, (heard probe reached).map fun entry => Utf8.encode (content entry), reported, ?_,
    List.length_map _, named, entries, ?_⟩
  · rw [List.flatMap_map]
    exact List.flatMap_congr fun entry _ => line_bytes_content entry
  · rw [List.forall₂_map_right_iff, List.forall₂_same]
    intro entry member
    exact entry_tells probe network rules parts serves entry (entries entry member)
      (plain entry.path (named.subset (List.mem_map_of_mem member)))

def windingNode : Http.Node :=
  ⟨[⟨"/a", .respond { status := 302, location := some "/b\n\rc", body := .whole [] }⟩,
    ⟨"/bc", .respond { status := 200, location := none, body := .whole [0xC3] }⟩,
    ⟨"/version", .respond { status := 200, location := none, body := .whole [0x76, 0x31] }⟩]⟩

def windingProbe : EndpointProbe :=
  ⟨.scripted windingNode.network, none, ⟨"http", some ⟨"", "", .name "h", none⟩, "/xy", none, none⟩⟩

theorem run_writes_lines_winding :
    ∃ (report : Report) (lines : List Bytes),
      (all windingProbe true .unlimited ["/a", "http://[", "/version", "/c"]).report = some (.ok report) ∧
      (all windingProbe true .unlimited ["/a", "http://[", "/version", "/c"]).written =
        lines.flatMap (fun line => line ++ [10]) ∧
      lines.length = 3 ∧ List.Forall₂ Tells report lines := by
  have read : Url.parse "http://h/x\ny" = .ok windingProbe.base := by decide +kernel
  have serves : ServesLines windingNode.network := by
    apply serves_routed
    intro route listed response body responds
    simp only [windingNode, List.mem_cons, List.not_mem_nil, or_false] at listed
    rcases listed with rfl | rfl | rfl <;> cases responds <;> rintro ⟨⟩ <;> decide
  have plain : ∀ path ∈ ["/a", "http://[", "/version", "/c"], '\n' ∉ path.toList := by decide
  obtain ⟨report, lines, reported, written, length, _, _, tells⟩ :=
    (run_writes_lines "http://h/x\ny" windingProbe read windingNode.network (Http.scripted_rules _ _)).1 true .unlimited
      ["/a", "http://[", "/version", "/c"] serves plain fun _ same => nomatch same
  have count : ((all windingProbe true .unlimited ["/a", "http://[", "/version", "/c"]).report.map fun result =>
      result.map List.length) = some (.ok 3) := by decide +kernel
  rcases reported with reported | ⟨waits, _⟩
  · rw [reported] at count
    exact ⟨report, lines, reported, written, length.trans (Except.ok.inj (Option.some.inj count)), tells⟩
  · rw [waits] at count
    cases count

end Devnet.Probe
