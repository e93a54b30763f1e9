import Devnet.Probe.Run
import Devnet.Proofs.Http.Chain
import Devnet.Proofs.Http.Scripted
import Devnet.Proofs.Text.Utf8

set_option autoImplicit false

namespace Devnet.Probe

open Http (Answer Arrives Ending Ends Failure Network Reaches Response Told)

theorem success_iff (status : Http.Status) : status.isSuccess = true ↔ 200 ≤ status ∧ status ≤ 299 := by
  simp [Http.Status.isSuccess]

def Encodes (text : String) (bytes : Bytes) : Prop := text.toUTF8.data.toList = bytes

theorem decode_encodes (bytes : Bytes) (text : String) : Utf8.decode bytes = .ok text ↔ Encodes text bytes := by
  rw [Utf8.decode_ok_iff, Utf8.encode_standard, Encodes]

theorem decode_error_iff (bytes : Bytes) :
    (∃ cause, Utf8.decode bytes = .error cause) ↔ ¬ ∃ text, Encodes text bytes := by
  simp only [← decode_encodes]
  cases Utf8.decode bytes <;> simp

section Answered

variable (url : Url) (answer : Answer)

theorem outcome_of_status (outside : ¬ (200 ≤ answer.status ∧ answer.status ≤ 299)) :
    outcomeOf url answer = some (.error (.status url answer.status)) := by
  rw [← success_iff, Bool.not_eq_true] at outside
  rw [outcomeOf, outside]
  rfl

theorem outcome_of_success (inside : 200 ≤ answer.status ∧ answer.status ≤ 299) :
    outcomeOf url answer =
      match answer.bytes with
      | none => none
      | some (.error cause) => some (.error (.body url cause))
      | some (.ok bytes) => some (decoded url bytes) := by
  rw [outcomeOf, (success_iff answer.status).mpr inside]
  rfl

end Answered

-- How the end of a chain of redirects shows in the outcome of the path.
inductive Classified (probe : EndpointProbe) (network : Network) (url : Url) : Ending → Option Outcome → Prop where
  | unsent (count : Nat) (last : Url) (reached : Reaches probe.client network url count last) :
      Classified probe network url .unsent (some (.error (.request url ⟨false, false, Http.unsentText url last⟩)))
  | refused : Classified probe network url .refused (some (.error (.connect url ⟨false, true, Http.sendingText url⟩)))
  | broken : Classified probe network url .broken (some (.error (.request url ⟨false, false, Http.sendingText url⟩)))
  | lost (last : Url) (reached : Reaches probe.client network url Http.redirectLimit last) :
      Classified probe network url .lost (some (.error (.request url ⟨false, false, Http.redirectText last⟩)))
  | expired (limited : probe.timeout ≠ none) : Classified probe network url .stalled (some (.error (.timeout url)))
  | endless (unlimited : probe.timeout = none) : Classified probe network url .stalled none
  | status (response : Response) (outside : ¬ (200 ≤ response.status ∧ response.status ≤ 299)) :
      Classified probe network url (.final response) (some (.error (.status url response.status)))
  | body (response : Response) (cause : Failure) (inside : 200 ≤ response.status ∧ response.status ≤ 299)
      (told : cause.text = Http.bodyText)
      (incomplete : response.content = .cut ∨ response.content = .stalled ∧ probe.timeout ≠ none) :
      Classified probe network url (.final response) (some (.error (.body url cause)))
  | waiting (response : Response) (inside : 200 ≤ response.status ∧ response.status ≤ 299)
      (incomplete : response.content = .stalled) (unlimited : probe.timeout = none) :
      Classified probe network url (.final response) none
  | decode (response : Response) (bytes : Bytes) (cause : Utf8.DecodeError)
      (inside : 200 ≤ response.status ∧ response.status ≤ 299) (whole : response.content = .whole bytes)
      (invalid : ¬ ∃ text, Encodes text bytes) :
      Classified probe network url (.final response) (some (.error (.decode url cause)))
  | text (response : Response) (bytes : Bytes) (text : String)
      (inside : 200 ≤ response.status ∧ response.status ≤ 299) (whole : response.content = .whole bytes)
      (encodes : Encodes text bytes) : Classified probe network url (.final response) (some (.ok text))

theorem answer_classified (probe : EndpointProbe) (network : Network) (url : Url) (response : Response)
    (bytes : Option (Except Failure Bytes)) (arrives : Arrives probe.timeout response.content bytes) :
    Classified probe network url (.final response) (outcomeOf url ⟨response.status, bytes⟩) := by
  by_cases inside : 200 ≤ response.status ∧ response.status ≤ 299
  · rw [outcome_of_success url _ inside]
    generalize content : response.content = body at arrives
    cases arrives with
    | whole bytes =>
        simp only [decoded]
        cases decoding : Utf8.decode bytes with
        | ok text => exact .text response bytes text inside content ((decode_encodes bytes text).mp decoding)
        | error cause =>
            exact .decode response bytes cause inside content ((decode_error_iff bytes).mp ⟨cause, decoding⟩)
    | cut cause told => exact .body response cause inside told (.inl content)
    | expired cause limited told => exact .body response cause inside told (.inr ⟨content, limited⟩)
    | endless unlimited => exact .waiting response inside content unlimited
  · rw [outcome_of_status url _ inside]
    exact .status response inside

def resultOutcome (url : Url) : Option (Except Failure Answer) → Option Outcome
  | none => none
  | some (.error cause) => some (.error (.ofSend url cause))
  | some (.ok answer) => outcomeOf url answer

section Fetch

variable (probe : EndpointProbe) (path : String)

theorem fetch_unjoined (cause : Url.ParseError) (unjoined : probe.base.join path = .error cause) :
    fetch probe path = ⟨some (.error (.invalidUrl path cause)), [], []⟩ := by
  rw [fetch, endpoint, unjoined]

variable (url : Url) (joined : probe.base.join path = .ok url)
include joined

theorem fetch_joined :
    (fetch probe path).outcome = resultOutcome url (probe.client.get probe.timeout url).result ∧
      (fetch probe path).requests = (probe.client.get probe.timeout url).requests := by
  rw [fetch, endpoint, joined]
  rcases result : (probe.client.get probe.timeout url).result with _ | (cause | answer) <;>
    simp only [result, resultOutcome, and_self]

theorem fetch_classified (network : Network) (rules : probe.client.Rules probe.timeout network) (ending : Ending)
    (ends : Ends probe.client network url ending) :
    Classified probe network url ending (fetch probe path).outcome := by
  have told := Http.told_of_ending rules ends
  rw [(fetch_joined probe path url joined).1]
  generalize (probe.client.get probe.timeout url).result = result at told
  cases told with
  | unsent count last reached => exact .unsent count last reached
  | refused => exact .refused
  | broken => exact .broken
  | expired cause limited late =>
      rw [resultOutcome, ProbeError.ofSend, if_pos late]
      exact .expired limited
  | endless unlimited => exact .endless unlimited
  | lost last reached => exact .lost last reached
  | final response bytes arrives => exact answer_classified probe network url response bytes arrives

end Fetch

theorem outcome_error_cases (url : Url) (answer : Answer) (e : ProbeError)
    (fails : outcomeOf url answer = some (.error e)) :
    e = .status url answer.status ∨ (∃ cause, answer.bytes = some (.error cause) ∧ e = .body url cause) ∨
      ∃ cause, e = .decode url cause := by
  by_cases inside : 200 ≤ answer.status ∧ answer.status ≤ 299
  · rw [outcome_of_success url answer inside] at fails
    obtain ⟨status, _ | failure | bytes⟩ := answer
    · cases fails
    · cases fails
      exact .inr (.inl ⟨failure, rfl, rfl⟩)
    · cases decoding : Utf8.decode bytes with
      | ok text => simp [decoded, decoding] at fails
      | error cause =>
          simp only [decoded, decoding, Option.some.injEq, Except.error.injEq] at fails
          exact .inr (.inr ⟨cause, fails.symm⟩)
  · rw [outcome_of_status url answer inside] at fails
    cases fails
    exact .inl rfl

theorem of_send_names (url : Url) (cause : Failure) :
    ProbeError.ofSend url cause = .timeout url ∨ ProbeError.ofSend url cause = .connect url cause ∨
      ProbeError.ofSend url cause = .request url cause := by
  rw [ProbeError.ofSend]
  by_cases late : cause.isTimeout = true
  · exact .inl (if_pos late)
  · rw [if_neg late]
    by_cases connecting : cause.isConnect = true
    · exact .inr (.inl (if_pos connecting))
    · exact .inr (.inr (if_neg connecting))

section Invalid

variable (probe : EndpointProbe) (path : String)

theorem invalid_iff (asked : String) (cause : Url.ParseError) :
    (fetch probe path).outcome = some (.error (.invalidUrl asked cause)) ↔
      asked = path ∧ probe.base.join path = .error cause := by
  cases joined : probe.base.join path with
  | error other =>
      rw [fetch_unjoined probe path other joined]
      simp [eq_comm]
  | ok url =>
      rw [(fetch_joined probe path url joined).1]
      refine iff_of_false ?_ (by simp)
      rcases (probe.client.get probe.timeout url).result with _ | (failure | answer)
      · exact nofun
      · rcases of_send_names url failure with told | told | told <;> simp [resultOutcome, told]
      · intro fails
        rcases outcome_error_cases url answer _ fails with same | ⟨_, _, same⟩ | ⟨_, same⟩ <;> cases same

theorem unjoined_iff (cause : Url.ParseError) :
    probe.base.join path = .error cause ↔ fetch probe path = ⟨some (.error (.invalidUrl path cause)), [], []⟩ := by
  constructor
  · exact fetch_unjoined probe path cause
  · intro same
    exact ((invalid_iff probe path path cause).mp (congrArg Fetch.outcome same)).right

end Invalid

section Outcomes

variable (probe : EndpointProbe) (network : Network) (rules : probe.client.Rules probe.timeout network) (path : String)
include rules

theorem fetch_ending (outcome : Option Outcome) (fetched : (fetch probe path).outcome = outcome)
    (valid : ∀ cause, outcome ≠ some (.error (.invalidUrl path cause))) :
    ∃ url ending, probe.base.join path = .ok url ∧ Ends probe.client network url ending ∧
      Classified probe network url ending outcome := by
  cases joined : probe.base.join path with
  | error cause =>
      rw [fetch_unjoined probe path cause joined] at fetched
      exact absurd fetched.symm (valid cause)
  | ok url =>
      obtain ⟨ending, ends⟩ := Http.ends_somehow probe.client network url
      exact ⟨url, ending, rfl, ends, fetched ▸ fetch_classified probe path url joined network rules ending ends⟩

theorem endless_iff :
    (fetch probe path).outcome = none ↔
      ∃ url, probe.base.join path = .ok url ∧ probe.timeout = none ∧
        (Ends probe.client network url .stalled ∨
          ∃ response, Ends probe.client network url (.final response) ∧
            (200 ≤ response.status ∧ response.status ≤ 299) ∧ response.content = .stalled) := by
  constructor
  · intro waits
    obtain ⟨url, ending, joined, ends, classified⟩ := fetch_ending probe network rules path none waits nofun
    cases classified with
    | endless unlimited => exact ⟨url, joined, unlimited, .inl ends⟩
    | waiting response inside stalls unlimited => exact ⟨url, joined, unlimited, .inr ⟨response, ends, inside, stalls⟩⟩
  · rintro ⟨url, joined, unlimited, ends | ⟨response, ends, inside, stalls⟩⟩
    · have classified := fetch_classified probe path url joined network rules _ ends
      generalize (fetch probe path).outcome = outcome at classified
      cases classified with
      | expired limited => exact absurd unlimited limited
      | endless => rfl
    · have classified := fetch_classified probe path url joined network rules _ ends
      generalize (fetch probe path).outcome = outcome at classified
      cases classified with
      | status _ outside => exact absurd inside outside
      | body _ _ _ _ incomplete => simp [stalls, unlimited] at incomplete
      | waiting => rfl
      | decode _ _ _ _ whole | text _ _ _ _ whole => simp [stalls] at whole

theorem timeout_iff (url : Url) :
    (fetch probe path).outcome = some (.error (.timeout url)) ↔
      probe.base.join path = .ok url ∧ Ends probe.client network url .stalled ∧ probe.timeout ≠ none := by
  constructor
  · intro late
    obtain ⟨asked, ending, joined, ends, classified⟩ := fetch_ending probe network rules path _ late nofun
    cases classified with
    | expired limited => exact ⟨joined, ends, limited⟩
  · rintro ⟨joined, ends, limited⟩
    have classified := fetch_classified probe path url joined network rules _ ends
    generalize (fetch probe path).outcome = outcome at classified
    cases classified with
    | expired => rfl
    | endless unlimited => exact absurd unlimited limited

theorem connect_iff (url : Url) :
    (∃ cause, (fetch probe path).outcome = some (.error (.connect url cause))) ↔
      probe.base.join path = .ok url ∧ Ends probe.client network url .refused := by
  constructor
  · rintro ⟨cause, fails⟩
    obtain ⟨asked, ending, joined, ends, classified⟩ := fetch_ending probe network rules path _ fails nofun
    cases classified with
    | refused => exact ⟨joined, ends⟩
  · rintro ⟨joined, ends⟩
    have classified := fetch_classified probe path url joined network rules _ ends
    generalize (fetch probe path).outcome = outcome at classified
    cases classified with
    | refused => exact ⟨_, rfl⟩

theorem request_iff (url : Url) :
    (∃ cause, (fetch probe path).outcome = some (.error (.request url cause))) ↔
      probe.base.join path = .ok url ∧ ∃ ending, Ends probe.client network url ending ∧
        (ending = .unsent ∨ ending = .broken ∨ ending = .lost) := by
  constructor
  · rintro ⟨cause, fails⟩
    obtain ⟨asked, ending, joined, ends, classified⟩ := fetch_ending probe network rules path _ fails nofun
    cases classified with
    | unsent => exact ⟨joined, .unsent, ends, .inl rfl⟩
    | broken => exact ⟨joined, .broken, ends, .inr (.inl rfl)⟩
    | lost => exact ⟨joined, .lost, ends, .inr (.inr rfl)⟩
  · rintro ⟨joined, ending, ends, kind⟩
    have classified := fetch_classified probe path url joined network rules _ ends
    generalize (fetch probe path).outcome = outcome at classified
    cases classified with
    | unsent | broken | lost => exact ⟨_, rfl⟩
    | _ => simp at kind

theorem status_iff (url : Url) (code : Http.Status) :
    (fetch probe path).outcome = some (.error (.status url code)) ↔
      probe.base.join path = .ok url ∧ ∃ response, Ends probe.client network url (.final response) ∧
        response.status = code ∧ ¬ (200 ≤ code ∧ code ≤ 299) := by
  constructor
  · intro fails
    obtain ⟨asked, ending, joined, ends, classified⟩ := fetch_ending probe network rules path _ fails nofun
    cases classified with
    | status response outside => exact ⟨joined, response, ends, rfl, outside⟩
  · rintro ⟨joined, response, ends, rfl, outside⟩
    have classified := fetch_classified probe path url joined network rules _ ends
    generalize (fetch probe path).outcome = outcome at classified
    cases classified with
    | status => rfl
    | body _ _ inside | waiting _ inside | decode _ _ _ inside | text _ _ _ inside => exact absurd inside outside

theorem body_iff (url : Url) :
    (∃ cause, (fetch probe path).outcome = some (.error (.body url cause))) ↔
      probe.base.join path = .ok url ∧ ∃ response, Ends probe.client network url (.final response) ∧
        (200 ≤ response.status ∧ response.status ≤ 299) ∧
        (response.content = .cut ∨ response.content = .stalled ∧ probe.timeout ≠ none) := by
  constructor
  · rintro ⟨cause, fails⟩
    obtain ⟨asked, ending, joined, ends, classified⟩ := fetch_ending probe network rules path _ fails nofun
    cases classified with
    | body response _ inside _ incomplete => exact ⟨joined, response, ends, inside, incomplete⟩
  · rintro ⟨joined, response, ends, inside, incomplete⟩
    have classified := fetch_classified probe path url joined network rules _ ends
    generalize (fetch probe path).outcome = outcome at classified
    cases classified with
    | status _ outside => exact absurd inside outside
    | body _ cause => exact ⟨cause, rfl⟩
    | waiting _ _ stalls unlimited => simp [stalls, unlimited] at incomplete
    | decode _ _ _ _ whole | text _ _ _ _ whole => simp [whole] at incomplete

theorem decode_iff (url : Url) :
    (∃ cause, (fetch probe path).outcome = some (.error (.decode url cause))) ↔
      probe.base.join path = .ok url ∧ ∃ response bytes, Ends probe.client network url (.final response) ∧
        (200 ≤ response.status ∧ response.status ≤ 299) ∧ response.content = .whole bytes ∧
        ¬ ∃ text, Encodes text bytes := by
  constructor
  · rintro ⟨cause, fails⟩
    obtain ⟨asked, ending, joined, ends, classified⟩ := fetch_ending probe network rules path _ fails nofun
    cases classified with
    | decode response bytes _ inside whole invalid => exact ⟨joined, response, bytes, ends, inside, whole, invalid⟩
  · rintro ⟨joined, response, bytes, ends, inside, whole, invalid⟩
    have classified := fetch_classified probe path url joined network rules _ ends
    generalize (fetch probe path).outcome = outcome at classified
    cases classified with
    | status _ outside => exact absurd inside outside
    | body _ _ _ _ incomplete => simp [whole] at incomplete
    | waiting _ _ stalls => simp [whole] at stalls
    | decode _ _ cause => exact ⟨cause, rfl⟩
    | text _ other text _ same encodes =>
        cases whole.symm.trans same
        exact absurd ⟨text, encodes⟩ invalid

theorem ok_iff (text : String) :
    (fetch probe path).outcome = some (.ok text) ↔
      ∃ url response bytes, probe.base.join path = .ok url ∧ Ends probe.client network url (.final response) ∧
        (200 ≤ response.status ∧ response.status ≤ 299) ∧ response.content = .whole bytes ∧ Encodes text bytes := by
  constructor
  · intro answers
    obtain ⟨url, ending, joined, ends, classified⟩ := fetch_ending probe network rules path _ answers nofun
    cases classified with
    | text response bytes _ inside whole encodes => exact ⟨url, response, bytes, joined, ends, inside, whole, encodes⟩
  · rintro ⟨url, response, bytes, joined, ends, inside, whole, encodes⟩
    have classified := fetch_classified probe path url joined network rules _ ends
    generalize (fetch probe path).outcome = outcome at classified
    cases classified with
    | status _ outside => exact absurd inside outside
    | body _ _ _ _ incomplete => simp [whole] at incomplete
    | waiting _ _ stalls => simp [whole] at stalls
    | decode _ other _ _ same invalid =>
        cases whole.symm.trans same
        exact absurd ⟨text, encodes⟩ invalid
    | text _ other spelled _ same spells =>
        cases whole.symm.trans same
        have left := (decode_encodes bytes text).mpr encodes
        have right := (decode_encodes bytes spelled).mpr spells
        cases left.symm.trans right
        rfl

theorem request_otherwise_iff (url : Url) :
    (∃ cause, (fetch probe path).outcome = some (.error (.request url cause))) ↔
      probe.base.join path = .ok url ∧ (∀ response, ¬ Ends probe.client network url (.final response)) ∧
        ¬ Ends probe.client network url .stalled ∧ ¬ Ends probe.client network url .refused := by
  rw [request_iff probe network rules path url]
  constructor
  · rintro ⟨joined, ending, ends, kind⟩
    have other (another : Ending) (apart : another ≠ .unsent ∧ another ≠ .broken ∧ another ≠ .lost) :
        ¬ Ends probe.client network url another := by
      intro also
      cases Http.ends_unique ends also
      rcases kind with rfl | rfl | rfl
      · exact apart.1 rfl
      · exact apart.2.1 rfl
      · exact apart.2.2 rfl
    exact ⟨joined, fun response => other _ ⟨nofun, nofun, nofun⟩, other _ ⟨nofun, nofun, nofun⟩,
      other _ ⟨nofun, nofun, nofun⟩⟩
  · rintro ⟨joined, unanswered, heard, accepted⟩
    obtain ⟨ending, ends⟩ := Http.ends_somehow probe.client network url
    refine ⟨joined, ending, ends, ?_⟩
    cases ending with
    | unsent => exact .inl rfl
    | broken => exact .inr (.inl rfl)
    | lost => exact .inr (.inr rfl)
    | refused => exact absurd ends accepted
    | stalled => exact absurd ends heard
    | final response => exact absurd ends (unanswered response)

end Outcomes

theorem unsent_iff (client : Http.Client) (network : Network) (url : Url) :
    Ends client network url .unsent ↔ ∃ count last, count ≤ 10 ∧ Reaches client network url count last ∧
      (last.scheme ∉ ["http", "https"] ∨ client.names last = false) := by
  have unasked (last : Url) : ¬ client.Asks last ↔ last.scheme ∉ ["http", "https"] ∨ client.names last = false := by
    rw [Http.Client.Asks, not_and_or]
    simp
  simp only [← unasked]
  constructor
  · intro ends
    cases ends with
    | stopped count last _ followed reached stops =>
        cases stops with
        | unsent other => exact ⟨count, last, followed, reached, other⟩
  · rintro ⟨count, last, followed, reached, other⟩
    exact .stopped count last _ followed reached (.unsent other)

theorem request_causes_iff (probe : EndpointProbe) (network : Network)
    (rules : probe.client.Rules probe.timeout network) (path : String) (url : Url) :
    (∃ cause, (fetch probe path).outcome = some (.error (.request url cause))) ↔
      probe.base.join path = .ok url ∧
        (Ends probe.client network url .broken ∨ Ends probe.client network url .lost ∨
          ∃ count last, count ≤ 10 ∧ Reaches probe.client network url count last ∧
            (last.scheme ∉ ["http", "https"] ∨ probe.client.names last = false)) := by
  rw [request_iff probe network rules path url, ← unsent_iff]
  constructor
  · rintro ⟨joined, ending, ends, rfl | rfl | rfl⟩
    · exact ⟨joined, .inr (.inr ends)⟩
    · exact ⟨joined, .inl ends⟩
    · exact ⟨joined, .inr (.inl ends)⟩
  · rintro ⟨joined, ends | ends | ends⟩
    · exact ⟨joined, .broken, ends, .inr (.inl rfl)⟩
    · exact ⟨joined, .lost, ends, .inr (.inr rfl)⟩
    · exact ⟨joined, .unsent, ends, .inl rfl⟩

theorem fetch_classifies (probe : EndpointProbe) (network : Network)
    (rules : probe.client.Rules probe.timeout network) (path : String) :
    (∀ asked cause, (fetch probe path).outcome = some (.error (.invalidUrl asked cause)) ↔
      asked = path ∧ probe.base.join path = .error cause) ∧
    (∀ cause, probe.base.join path = .error cause ↔
      fetch probe path = ⟨some (.error (.invalidUrl path cause)), [], []⟩) ∧
    (∀ url, probe.base.join path = .ok url → ∃ ending, Ends probe.client network url ending ∧
      ∀ other, Ends probe.client network url other → other = ending) ∧
    (∀ url, (fetch probe path).outcome = some (.error (.timeout url)) ↔
      probe.base.join path = .ok url ∧ Ends probe.client network url .stalled ∧ probe.timeout ≠ none) ∧
    (∀ url, (∃ cause, (fetch probe path).outcome = some (.error (.connect url cause))) ↔
      probe.base.join path = .ok url ∧ Ends probe.client network url .refused) ∧
    (∀ url, (∃ cause, (fetch probe path).outcome = some (.error (.request url cause))) ↔
      probe.base.join path = .ok url ∧ (∀ response, ¬ Ends probe.client network url (.final response)) ∧
        ¬ Ends probe.client network url .stalled ∧ ¬ Ends probe.client network url .refused) ∧
    (∀ url, (∃ cause, (fetch probe path).outcome = some (.error (.request url cause))) ↔
      probe.base.join path = .ok url ∧
        (Ends probe.client network url .broken ∨ Ends probe.client network url .lost ∨
          ∃ count last, count ≤ 10 ∧ Reaches probe.client network url count last ∧
            (last.scheme ∉ ["http", "https"] ∨ probe.client.names last = false))) ∧
    (∀ url code, (fetch probe path).outcome = some (.error (.status url code)) ↔
      probe.base.join path = .ok url ∧ ∃ response, Ends probe.client network url (.final response) ∧
        response.status = code ∧ ¬ (200 ≤ code ∧ code ≤ 299)) ∧
    (∀ url, (∃ cause, (fetch probe path).outcome = some (.error (.body url cause))) ↔
      probe.base.join path = .ok url ∧ ∃ response, Ends probe.client network url (.final response) ∧
        (200 ≤ response.status ∧ response.status ≤ 299) ∧
        (response.content = .cut ∨ response.content = .stalled ∧ probe.timeout ≠ none)) ∧
    (∀ url, (∃ cause, (fetch probe path).outcome = some (.error (.decode url cause))) ↔
      probe.base.join path = .ok url ∧ ∃ response bytes, Ends probe.client network url (.final response) ∧
        (200 ≤ response.status ∧ response.status ≤ 299) ∧ response.content = .whole bytes ∧
        ¬ ∃ text, Encodes text bytes) ∧
    (∀ text, (fetch probe path).outcome = some (.ok text) ↔
      ∃ url response bytes, probe.base.join path = .ok url ∧ Ends probe.client network url (.final response) ∧
        (200 ≤ response.status ∧ response.status ≤ 299) ∧ response.content = .whole bytes ∧ Encodes text bytes) ∧
    ((fetch probe path).outcome = none ↔
      ∃ url, probe.base.join path = .ok url ∧ probe.timeout = none ∧
        (Ends probe.client network url .stalled ∨
          ∃ response, Ends probe.client network url (.final response) ∧
            (200 ≤ response.status ∧ response.status ≤ 299) ∧ response.content = .stalled)) := by
  refine ⟨invalid_iff probe path, unjoined_iff probe path, ?_, timeout_iff probe network rules path,
    connect_iff probe network rules path, request_otherwise_iff probe network rules path,
    request_causes_iff probe network rules path, status_iff probe network rules path, body_iff probe network rules path,
    decode_iff probe network rules path, ok_iff probe network rules path, endless_iff probe network rules path⟩
  intro url _
  obtain ⟨ending, ends⟩ := Http.ends_somehow probe.client network url
  exact ⟨ending, ends, fun other also => Http.ends_unique also ends⟩

def slowNode : Http.Node :=
  ⟨[⟨"/a", .respond { status := 307, location := some "//[::2]:81/slow", body := .cut }⟩,
    ⟨"/slow", .respond { status := 206, location := none, body := .stalled }⟩]⟩

def slowUrl : Url := ⟨"http", some ⟨"", "", .name "h", none⟩, "/a", none, none⟩

def slowProbe (timeout : Option Duration) : EndpointProbe := ⟨.scripted slowNode.network, timeout, slowUrl⟩

theorem fetch_classifies_slow :
    (fetch (slowProbe none) "/a").outcome = none ∧
      ∃ cause, (fetch (slowProbe (some (.ofSeconds 5))) "/a").outcome = some (.error (.body slowUrl cause)) := by
  have joined : slowUrl.join "/a" = .ok slowUrl := by decide +kernel
  have redirects : Http.Redirects (Http.Client.scripted slowNode.network) slowNode.network slowUrl
      ⟨"http", some ⟨"", "", .ipv6 [0, 0, 0, 0, 0, 0, 0, 2], some 81⟩, "/slow", none, none⟩ :=
    Http.Scripted.redirects_of_target _ _ _ _ (by decide +kernel) rfl (by decide +kernel)
  have ends : Ends (Http.Client.scripted slowNode.network) slowNode.network slowUrl
      (.final { status := 206, location := none, body := .stalled }) := by
    refine .stopped 1 _ _ (by decide) (.next 0 _ _ .start redirects) ?_
    exact .final _ ((Http.Scripted.asks_iff _ _).mp (by decide +kernel)) rfl fun target onward =>
      absurd onward.redirection (by decide)
  constructor
  · obtain ⟨_, _, _, _, _, _, _, _, _, _, _, endless⟩ :=
      fetch_classifies (slowProbe none) slowNode.network (Http.scripted_rules _ _) "/a"
    exact endless.mpr ⟨slowUrl, joined, rfl, .inr ⟨_, ends, by decide, rfl⟩⟩
  · obtain ⟨_, _, _, _, _, _, _, _, body, _⟩ :=
      fetch_classifies (slowProbe (some (.ofSeconds 5))) slowNode.network (Http.scripted_rules _ _) "/a"
    exact (body slowUrl).mpr ⟨joined, _, ends, by decide, .inr ⟨rfl, nofun⟩⟩

end Devnet.Probe
