import Devnet.Proofs.Http.Requests
import Devnet.Proofs.Probe.Classification

set_option autoImplicit false

namespace Devnet.Http

def redirectComplaint : List Char := "error following redirect".toList

theorem complaint_apart (front middle back : String) (long : 9 ≤ front.toList.length)
    (apart : front.toList.take 9 ≠ redirectComplaint.take 9) :
    ¬ redirectComplaint <+: (front ++ middle ++ back).toList := by
  rintro ⟨rest, same⟩
  have fronts := congrArg (List.take 9) same
  rw [String.toList_append, String.toList_append, List.append_assoc, List.take_append_of_le_length long,
    List.take_append_of_le_length (by decide)] at fronts
  exact apart fronts.symm

theorem redirect_text_complains (url : Url) : redirectComplaint <+: (redirectText url).toList := by
  change redirectComplaint <+:
    ("error following redirect for url (" ++ url.withoutUserinfo.withoutFragment.text ++ ")").toList
  rw [String.toList_append, String.toList_append, List.append_assoc]
  exact List.IsPrefix.trans (by decide) (List.prefix_append _ _)

theorem unsent_text_apart (origin url : Url) : ¬ redirectComplaint <+: (unsentText origin url).toList :=
  complaint_apart "builder error for url (" _ ")" (by decide) (by decide)

theorem sending_text_apart (origin : Url) : ¬ redirectComplaint <+: (sendingText origin).toList :=
  complaint_apart "error sending request for url (" _ ")" (by decide) (by decide)

def Network.Stalls (network : Network) (url : Url) : Prop :=
  network url = .stall ∨ ∃ response, network url = .respond response ∧ response.content = .stalled

end Devnet.Http

namespace Devnet.Probe

open Http (Ends Ending Network Reaches Receives Redirects Response)

def LostInRedirects (url : Url) (outcome : Option Outcome) : Prop :=
  ∃ cause, outcome = some (.error (.request url cause)) ∧ Http.redirectComplaint <+: cause.text.toList

section Joined

variable (probe : EndpointProbe) (network : Network) (rules : probe.client.Rules probe.timeout network) (path : String)
  (url : Url) (joined : probe.base.join path = .ok url)
include rules joined

theorem fetch_logs : Http.Logs probe.client network url 10 (fetch probe path).requests := by
  rw [(fetch_joined probe path url joined).2]
  exact Http.get_logs rules url

theorem lost_iff : LostInRedirects url (fetch probe path).outcome ↔ Ends probe.client network url .lost := by
  constructor
  · rintro ⟨cause, fails, complains⟩
    obtain ⟨ending, ends⟩ := Http.ends_somehow probe.client network url
    have classified := fetch_classified probe path url joined network rules ending ends
    rw [fails] at classified
    cases classified with
    | unsent _ last => exact absurd complains (Http.unsent_text_apart url last)
    | broken => exact absurd complains (Http.sending_text_apart url)
    | lost => exact ends
  · intro ends
    have classified := fetch_classified probe path url joined network rules .lost ends
    generalize (fetch probe path).outcome = outcome at classified
    cases classified with
    | lost last => exact ⟨_, rfl, Http.redirect_text_complains last⟩

theorem requests_of_lost (lost : LostInRedirects url (fetch probe path).outcome) :
    (fetch probe path).requests.length = 11 := by
  have ends := (lost_iff probe network rules path url joined).mp lost
  cases ends with
  | stopped _ _ _ _ _ stops => cases stops
  | lost last target reached redirects =>
      exact Http.logged_through (fetch_logs probe network rules path url joined) 10 last (Nat.le_refl 10) reached
        (Http.receives_of_redirects redirects) (.inl rfl)

theorem lost_of_endless
    (endless : ∀ index asked, Reaches probe.client network url index asked →
      ∃ target, Redirects probe.client network asked target) :
    LostInRedirects url (fetch probe path).outcome := by
  have reached (count : Nat) : ∃ asked, Reaches probe.client network url count asked := by
    induction count with
    | zero => exact ⟨url, .start⟩
    | succ count ih =>
        obtain ⟨asked, before⟩ := ih
        obtain ⟨target, redirects⟩ := endless count asked before
        exact ⟨target, .next count asked target before redirects⟩
  apply (lost_iff probe network rules path url joined).mpr
  apply Http.lost_iff_redirected.mpr
  intro index _
  obtain ⟨asked, before⟩ := reached index
  obtain ⟨target, redirects⟩ := endless index asked before
  exact ⟨asked, target, before, redirects⟩

theorem unfollowed_status (index : Nat) (asked : Url) (response : Response) (followed : index ≤ 10)
    (reached : Reaches probe.client network url index asked) (asks : probe.client.Asks asked)
    (reaction : network asked = .respond response) (redirection : 300 ≤ response.status ∧ response.status ≤ 399)
    (stays : ∀ target, ¬ probe.client.SendsOn asked response target) :
    (fetch probe path).outcome = some (.error (.status url response.status)) ∧
      (fetch probe path).requests.length = index + 1 := by
  have stops : Http.StopsAt probe.client network asked (.final response) := .final response asks reaction stays
  have received : Receives probe.client network asked := ⟨asks, by simp [reaction]⟩
  refine ⟨?_, Http.logged_through (fetch_logs probe network rules path url joined) index asked followed reached received
    (.inr fun _ => Http.stops_final stops)⟩
  apply (status_iff probe network rules path url response.status).mpr
  refine ⟨joined, response, .stopped index asked _ followed reached stops, rfl, ?_⟩
  intro inside
  exact absurd (Nat.le_trans redirection.1 inside.2) (by decide)

theorem request_of_ending (index : Nat) (asked : Url) (followed : index ≤ 10)
    (reached : Reaches probe.client network url index asked) (received : Receives probe.client network asked) :
    asked ∈ (fetch probe path).requests :=
  List.mem_of_getElem? ((fetch_logs probe network rules path url joined index asked).mpr ⟨followed, reached, received⟩)

end Joined

-- Nothing but a node that keeps the client waiting keeps a fetch from ending.
theorem waits_for_stall (probe : EndpointProbe) (network : Network) (rules : probe.client.Rules probe.timeout network)
    (path : String) (waits : (fetch probe path).outcome = none) :
    probe.timeout = none ∧ ∃ asked ∈ (fetch probe path).requests, network.Stalls asked := by
  obtain ⟨url, joined, unlimited, cause⟩ := (endless_iff probe network rules path).mp waits
  refine ⟨unlimited, ?_⟩
  rcases cause with ends | ⟨response, ends, _, stalled⟩
  · cases ends with
    | stopped index asked _ followed reached stops =>
        cases stops with
        | stalled asks reaction =>
            exact ⟨asked, request_of_ending probe network rules path url joined index asked followed reached
              ⟨asks, by simp [reaction]⟩, .inl reaction⟩
  · cases ends with
    | stopped index asked _ followed reached stops =>
        cases stops with
        | final _ asks reaction stays =>
            exact ⟨asked, request_of_ending probe network rules path url joined index asked followed reached
              ⟨asks, by simp [reaction]⟩, .inr ⟨response, reaction, stalled⟩⟩

theorem fetch_ends (probe : EndpointProbe) (network : Network) (rules : probe.client.Rules probe.timeout network)
    (path : String) :
    (fetch probe path).requests.length ≤ 11 ∧
    (∀ cause, probe.base.join path = .error cause → (fetch probe path).requests = []) ∧
    ((fetch probe path).outcome = none →
      probe.timeout = none ∧ ∃ asked ∈ (fetch probe path).requests, network.Stalls asked) ∧
    ∀ url, probe.base.join path = .ok url →
      (∀ index asked, (fetch probe path).requests[index]? = some asked ↔
        index ≤ 10 ∧ Reaches probe.client network url index asked ∧ Receives probe.client network asked) ∧
      (∀ asked, (fetch probe path).requests[0]? = some asked → asked = url) ∧
      (∀ index asked, (fetch probe path).requests[index + 1]? = some asked →
        ∃ previous response location, (fetch probe path).requests[index]? = some previous ∧
          network previous = .respond response ∧ response.status ∈ [301, 302, 303, 307, 308] ∧
          response.location = some location ∧ previous.join location = .ok asked) ∧
      (LostInRedirects url (fetch probe path).outcome ↔ ∀ index, index ≤ 10 →
        ∃ asked target, Reaches probe.client network url index asked ∧ Redirects probe.client network asked target) ∧
      (LostInRedirects url (fetch probe path).outcome → (fetch probe path).requests.length = 11) ∧
      ((∀ index asked, Reaches probe.client network url index asked →
          ∃ target, Redirects probe.client network asked target) →
        LostInRedirects url (fetch probe path).outcome ∧
          (∀ text, (fetch probe path).outcome ≠ some (.ok text)) ∧
          ∀ named code, (fetch probe path).outcome ≠ some (.error (.status named code))) ∧
      ∀ index asked response, index ≤ 10 → Reaches probe.client network url index asked → probe.client.Asks asked →
        network asked = .respond response → 300 ≤ response.status ∧ response.status ≤ 399 →
          (∀ target, ¬ probe.client.SendsOn asked response target) →
            (fetch probe path).outcome = some (.error (.status url response.status)) ∧
              (fetch probe path).requests.length = index + 1 := by
  cases joined : probe.base.join path with
  | error cause =>
      rw [fetch_unjoined probe path cause joined]
      exact ⟨Nat.zero_le 11, fun _ _ => rfl, nofun, nofun⟩
  | ok url =>
      have logs := fetch_logs probe network rules path url joined
      refine ⟨Http.logged_length logs, nofun, waits_for_stall probe network rules path, ?_⟩
      rintro _ ⟨⟩
      refine ⟨logs, ?_, ?_, ?_, requests_of_lost probe network rules path url joined, ?_,
        unfollowed_status probe network rules path url joined⟩
      · intro asked listed
        exact (Http.reaches_start asked).mp ((logs 0 asked).mp listed).2.1
      · intro index asked listed
        obtain ⟨previous, before, _, response, reaction, sent⟩ := Http.logged_redirects logs index asked listed
        obtain ⟨location, named, target⟩ := sent.location
        exact ⟨previous, response, location, before, reaction, sent.redirection, named, target⟩
      · rw [lost_iff probe network rules path url joined]
        exact Http.lost_iff_redirected
      · intro endless
        have lost := lost_of_endless probe network rules path url joined endless
        obtain ⟨cause, fails, _⟩ := id lost
        rw [fails] at lost ⊢
        exact ⟨lost, nofun, nofun⟩

def circle : Http.Node :=
  ⟨[⟨"/a", .respond { status := 302, location := some "b", body := .whole [] }⟩,
    ⟨"/b", .respond { status := 308, location := some "/a", body := .whole [] }⟩]⟩

def circleUrl (path : String) : Url := ⟨"http", some ⟨"", "", .name "h", none⟩, path, none, none⟩

def circleProbe : EndpointProbe := ⟨.scripted circle.network, none, circleUrl "/"⟩

theorem circle_redirects :
    Redirects circleProbe.client circle.network (circleUrl "/a") (circleUrl "/b") ∧
      Redirects circleProbe.client circle.network (circleUrl "/b") (circleUrl "/a") := by
  constructor
  · exact Http.Scripted.redirects_of_target _ _ _ _ (by decide +kernel) rfl (by decide +kernel)
  · exact Http.Scripted.redirects_of_target _ _ _ _ (by decide +kernel) rfl (by decide +kernel)

theorem circle_endless (index : Nat) (asked : Url)
    (reached : Reaches circleProbe.client circle.network (circleUrl "/a") index asked) :
    asked = circleUrl "/a" ∨ asked = circleUrl "/b" := by
  induction index generalizing asked with
  | zero => exact .inl ((Http.reaches_start _).mp reached)
  | succ index ih =>
      obtain ⟨previous, before, redirects⟩ := (Http.reaches_next _ _).mp reached
      rcases ih previous before with rfl | rfl
      · exact .inr (Http.redirects_unique redirects circle_redirects.1)
      · exact .inl (Http.redirects_unique redirects circle_redirects.2)

theorem fetch_ends_circle :
    (fetch circleProbe "/a").requests.length = 11 ∧ ∀ text, (fetch circleProbe "/a").outcome ≠ some (.ok text) := by
  have joined : circleProbe.base.join "/a" = .ok (circleUrl "/a") := by decide +kernel
  have endless : ∀ index asked, Reaches circleProbe.client circle.network (circleUrl "/a") index asked →
      ∃ target, Redirects circleProbe.client circle.network asked target := by
    intro index asked reached
    rcases circle_endless index asked reached with rfl | rfl
    · exact ⟨_, circle_redirects.1⟩
    · exact ⟨_, circle_redirects.2⟩
  obtain ⟨_, _, _, _, eleven, never, _⟩ :=
    (fetch_ends circleProbe circle.network (Http.scripted_rules _ _) "/a").2.2.2 _ joined
  exact ⟨eleven (never endless).1, (never endless).2.1⟩

end Devnet.Probe
