import Devnet.Proofs.Probe.Redirects

set_option autoImplicit false

namespace Devnet.ProbeError

def url? : ProbeError → Option Url
  | .invalidUrl _ _ => none
  | .connect url _ | .timeout url | .status url _ | .body url _ | .decode url _ | .request url _ => some url

theorem shown_behind (front text : String) : text.toList <:+: (front ++ text).toList := by
  rw [String.toList_append]
  exact List.infix_append_right

theorem shown_between (front text behind : String) : text.toList <:+: (front ++ text ++ behind).toList := by
  rw [String.toList_append]
  exact List.infix_append_of_infix_left (shown_behind front text)

theorem shown_within (front text behind more : String) : text.toList <:+: (front ++ text ++ behind ++ more).toList := by
  rw [String.toList_append]
  exact List.infix_append_of_infix_left (shown_between front text behind)

theorem message_names_url (e : ProbeError) (url : Url) (named : e.url? = some url) :
    url.text.toList <:+: e.message.toList := by
  cases e with
  | invalidUrl path cause => cases named
  | connect asked cause =>
      obtain rfl := Option.some.inj named
      exact shown_within "connection to " asked.text " failed: " cause.text
  | timeout asked =>
      obtain rfl := Option.some.inj named
      exact shown_between "request to " asked.text " timed out"
  | status asked code =>
      obtain rfl := Option.some.inj named
      exact shown_behind ("HTTP Error " ++ Numeral.decimal code ++ " " ++ Http.Status.reason code ++ " for ") asked.text
  | body asked cause =>
      obtain rfl := Option.some.inj named
      exact shown_within "failed to read response body from " asked.text ": " cause.text
  | decode asked cause =>
      obtain rfl := Option.some.inj named
      exact shown_within "failed to decode response body from " asked.text ": " cause.message
  | request asked cause =>
      obtain rfl := Option.some.inj named
      exact shown_within "request to " asked.text " failed: " cause.text

end Devnet.ProbeError

namespace Devnet.Probe

open Http (Network Reaches Response)

theorem of_send_url (url : Url) (cause : Http.Failure) : (ProbeError.ofSend url cause).url? = some url := by
  rcases of_send_names url cause with told | told | told <;> rw [told, ProbeError.url?]

theorem result_url (url : Url) (result : Option (Except Http.Failure Http.Answer)) (e : ProbeError)
    (fails : resultOutcome url result = some (.error e)) : e.url? = some url := by
  rcases result with _ | (cause | answer)
  · cases fails
  · cases fails
    exact of_send_url url cause
  · rcases outcome_error_cases url answer e fails with rfl | ⟨_, _, rfl⟩ | ⟨_, rfl⟩ <;> rfl

-- The response that an exchange ends with, and where it stands among the requests.
structure IsLast (client : Http.Client) (network : Network) (url : Url) (requests : List Url) (response : Response)
    (last : Url) : Prop where
  reached : ∃ count, count ≤ 10 ∧ Reaches client network url count last ∧ requests.length = count + 1
  responds : network last = .respond response
  stays : ∀ target, ¬ client.SendsOn last response target
  first : requests.head? = some url
  final : requests.getLast? = some last

theorem ends_last (probe : EndpointProbe) (network : Network) (rules : probe.client.Rules probe.timeout network)
    (path : String) (url : Url) (joined : probe.base.join path = .ok url) (response : Response)
    (ends : Http.Ends probe.client network url (.final response)) :
    ∃ last, IsLast probe.client network url (fetch probe path).requests response last := by
  cases ends with
  | stopped count last _ followed reached stops =>
      cases stops with
      | final _ asks reaction stays =>
          have logs := fetch_logs probe network rules path url joined
          have received : Http.Receives probe.client network last := ⟨asks, by simp [reaction]⟩
          have halts : Http.StopsAt probe.client network last (.final response) := .final response asks reaction stays
          have length := Http.logged_through logs count last followed reached received
            (.inr fun _ => Http.stops_final halts)
          have listed := (logs count last).mpr ⟨followed, reached, received⟩
          refine ⟨last, ⟨count, followed, reached, length⟩, reaction, stays, ?_, ?_⟩
          · have present : 0 < (fetch probe path).requests.length := by omega
            have asked := List.getElem?_eq_getElem present
            rw [List.head?_eq_getElem?, asked, (Http.reaches_start _).mp ((logs 0 _).mp asked).2.1]
          · rw [List.getLast?_eq_getElem?, length, Nat.add_sub_cancel, listed]

theorem error_names_endpoint (probe : EndpointProbe) (path : String) (e : ProbeError)
    (fails : (fetch probe path).outcome = some (.error e)) :
    (∃ cause, e = .invalidUrl path cause ∧ endpoint probe.base path = .error e) ∨
      ∃ url, endpoint probe.base path = .ok url ∧ e.url? = some url ∧ url.text.toList <:+: e.message.toList ∧
        ∀ network, probe.client.Rules probe.timeout network → ∀ named code, e = .status named code →
          ∃ response last, IsLast probe.client network url (fetch probe path).requests response last ∧
            response.status = code := by
  cases joined : probe.base.join path with
  | error cause =>
      rw [fetch_unjoined probe path cause joined] at fails
      obtain rfl := Except.error.inj (Option.some.inj fails)
      refine .inl ⟨cause, rfl, ?_⟩
      rw [endpoint, joined]
  | ok url =>
      have named := result_url url _ e ((fetch_joined probe path url joined).1.symm.trans fails)
      refine .inr ⟨url, by rw [endpoint, joined], named, e.message_names_url url named, ?_⟩
      intro network rules asked code same
      rw [same] at fails
      obtain ⟨joins, response, ends, status, _⟩ := (status_iff probe network rules path asked code).mp fails
      cases joined.symm.trans joins
      obtain ⟨last, isLast⟩ := ends_last probe network rules path url joined response ends
      exact ⟨response, last, isLast, status⟩

def strayNode : Http.Node :=
  ⟨[⟨"/a?k", .respond { status := 307, location := some "//x:y@[::2]:81/lost#f", body := .whole [] }⟩,
    ⟨"/lost", .respond { status := 599, location := none, body := .whole [] }⟩]⟩

def strayBase : Url := ⟨"http", some ⟨"u", "p", .name "h", none⟩, "/", none, none⟩

def strayProbe : EndpointProbe := ⟨.scripted strayNode.network, none, strayBase⟩

def strayEndpoint : Url := { strayBase with path := "/a", query := some "k", fragment := some "z" }

theorem error_names_endpoint_stray :
    (fetch strayProbe "/a?k#z").outcome = some (.error (.status strayEndpoint 599)) ∧
      "http://u:p@h/a?k#z".toList <:+: (ProbeError.status strayEndpoint 599).message.toList ∧
      ∃ response last, IsLast strayProbe.client strayNode.network strayEndpoint (fetch strayProbe "/a?k#z").requests
        response last ∧ response.status = 599 := by
  have fails : (fetch strayProbe "/a?k#z").outcome = some (.error (.status strayEndpoint 599)) := by decide +kernel
  rcases error_names_endpoint strayProbe "/a?k#z" _ fails with unjoined | joined
  · obtain ⟨_, same, _⟩ := unjoined
    cases same
  · obtain ⟨url, _, named, shown, last⟩ := joined
    obtain rfl := Option.some.inj named
    have text : strayEndpoint.text = "http://u:p@h/a?k#z" := by decide +kernel
    exact ⟨fails, text ▸ shown, last strayNode.network (Http.scripted_rules _ _) strayEndpoint 599 rfl⟩

end Devnet.Probe
