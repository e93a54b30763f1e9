import Devnet.Proofs.Http.Chain

set_option autoImplicit false

namespace Devnet.Http

def Receives (client : Client) (network : Network) (url : Url) : Prop :=
  client.Asks url ∧ network url ≠ .refuse

section Logs

variable {client : Client} {network : Network}

theorem receives_of_redirects {url target : Url} (redirects : Redirects client network url target) :
    Receives client network url := by
  obtain ⟨asks, response, reaction, _⟩ := redirects
  refine ⟨asks, ?_⟩
  rw [reaction]
  exact nofun

-- A request is at its place in the log iff its URL is at that place in the chain, not behind the last
-- redirect that is followed, and it arrives somewhere.
def Logs (client : Client) (network : Network) (origin : Url) (left : Nat) (sent : List Url) : Prop :=
  ∀ index asked, sent[index]? = some asked ↔
    index ≤ left ∧ Reaches client network origin index asked ∧ Receives client network asked

theorem logs_nothing (url : Url) (left : Nat) (refused : ¬ Receives client network url) :
    Logs client network url left [] := by
  intro index asked
  refine iff_of_false (fun listed => nomatch listed) ?_
  rintro ⟨_, reached, received⟩
  cases index with
  | zero =>
      cases (reaches_start asked).mp reached
      exact refused received
  | succ index =>
      obtain ⟨target, redirects, _⟩ := (reaches_first asked index).mp reached
      exact refused (receives_of_redirects redirects)

theorem logs_head (url : Url) (left : Nat) (later : List Url) (received : Receives client network url)
    (behind : ∀ index asked, later[index]? = some asked ↔
      index + 1 ≤ left ∧ Reaches client network url (index + 1) asked ∧ Receives client network asked) :
    Logs client network url left (url :: later) := by
  intro index asked
  cases index with
  | zero =>
      rw [List.getElem?_cons_zero, reaches_start]
      constructor
      · intro same
        cases same
        exact ⟨Nat.zero_le left, rfl, received⟩
      · rintro ⟨_, rfl, _⟩
        rfl
  | succ index =>
      rw [List.getElem?_cons_succ]
      exact behind index asked

theorem logs_last (url : Url) (left : Nat) (received : Receives client network url)
    (stays : left = 0 ∨ ∀ target, ¬ Redirects client network url target) : Logs client network url left [url] := by
  apply logs_head url left [] received
  intro index asked
  refine iff_of_false (fun listed => nomatch listed) ?_
  rintro ⟨followed, reached, _⟩
  obtain ⟨target, redirects, _⟩ := (reaches_first asked index).mp reached
  rcases stays with spent | final
  · omega
  · exact final target redirects

theorem logs_onward (url target : Url) (left : Nat) (later : List Url) (redirects : Redirects client network url target)
    (logs : Logs client network target left later) : Logs client network url (left + 1) (url :: later) := by
  apply logs_head url (left + 1) later (receives_of_redirects redirects)
  intro index asked
  have onward : (∃ next, Redirects client network url next ∧ Reaches client network next index asked) ↔
      Reaches client network target index asked := by
    constructor
    · rintro ⟨next, sent, reached⟩
      cases redirects_unique redirects sent
      exact reached
    · intro reached
      exact ⟨target, redirects, reached⟩
  rw [logs index asked, reaches_first, Nat.add_le_add_iff_right, onward]

end Logs

section Rules

variable {client : Client} {timeout : Option Duration} {network : Network} (rules : client.Rules timeout network)
include rules

theorem stop_logs (hop : Hop) (left : Nat) (ending : Ending) (stops : StopsAt client network hop.url ending) :
    Logs client network hop.url left (client.pursue timeout hop).requests := by
  have final (target : Url) : ¬ Redirects client network hop.url target := stops_final stops
  cases stops with
  | unsent unasked =>
      rw [rules.unsent hop unasked]
      exact logs_nothing hop.url left fun received => unasked received.1
  | refused asks reaction =>
      rw [rules.refused hop asks reaction]
      exact logs_nothing hop.url left fun received => received.2 reaction
  | broken asks reaction =>
      rw [rules.broken hop asks reaction]
      exact logs_last hop.url left ⟨asks, by simp [reaction]⟩ (.inr final)
  | stalled asks reaction =>
      have received : Receives client network hop.url := ⟨asks, by simp [reaction]⟩
      by_cases limited : timeout = none
      · rw [rules.endless hop asks reaction limited]
        exact logs_last hop.url left received (.inr final)
      · obtain ⟨cause, _, exchange⟩ := rules.expired hop asks reaction limited
        rw [exchange]
        exact logs_last hop.url left received (.inr final)
  | final response asks reaction stays =>
      obtain ⟨bytes, _, exchange⟩ := rules.answered hop response asks reaction stays
      rw [exchange]
      exact logs_last hop.url left ⟨asks, by simp [reaction]⟩ (.inr final)

theorem pursue_logs (left : Nat) (hop : Hop) (budget : hop.followed + left = redirectLimit) :
    Logs client network hop.url left (client.pursue timeout hop).requests := by
  induction left generalizing hop with
  | zero =>
      rcases stops_or_redirects client network hop.url with ⟨ending, stops⟩ | ⟨target, redirects⟩
      · exact stop_logs rules hop 0 ending stops
      · have received := receives_of_redirects redirects
        obtain ⟨asks, response, reaction, sent⟩ := redirects
        rw [rules.exhausted hop response target asks reaction sent (Nat.le_of_eq budget.symm)]
        exact logs_last hop.url 0 received (.inl rfl)
  | succ left ih =>
      rcases stops_or_redirects client network hop.url with ⟨ending, stops⟩ | ⟨target, redirects⟩
      · exact stop_logs rules hop (left + 1) ending stops
      · obtain ⟨asks, response, reaction, sent⟩ := id redirects
        rw [rules.redirected hop response target asks reaction sent (by omega)]
        exact logs_onward hop.url target left _ redirects (ih ⟨hop.origin, hop.followed + 1, target⟩ (by simp; omega))

theorem get_logs (origin : Url) : Logs client network origin redirectLimit (client.get timeout origin).requests :=
  pursue_logs rules redirectLimit ⟨origin, 0, origin⟩ (Nat.zero_add _)

end Rules

section Logged

variable {client : Client} {network : Network} {origin : Url} {left : Nat} {sent : List Url}
  (logs : Logs client network origin left sent)
include logs

theorem logged_length : sent.length ≤ left + 1 := by
  apply Nat.le_of_not_lt
  intro beyond
  have listed := List.getElem?_eq_getElem beyond
  have followed := ((logs (left + 1) _).mp listed).1
  omega

theorem logged_redirects (index : Nat) (asked : Url) (listed : sent[index + 1]? = some asked) :
    ∃ previous, sent[index]? = some previous ∧ Redirects client network previous asked := by
  obtain ⟨followed, reached, _⟩ := (logs (index + 1) asked).mp listed
  obtain ⟨previous, before, redirects⟩ := (reaches_next asked index).mp reached
  exact ⟨previous, (logs index previous).mpr ⟨by omega, before, receives_of_redirects redirects⟩, redirects⟩

theorem logged_through (index : Nat) (last : Url) (followed : index ≤ left)
    (reached : Reaches client network origin index last) (received : Receives client network last)
    (ends : index = left ∨ ∀ target, ¬ Redirects client network last target) : sent.length = index + 1 := by
  have listed := (logs index last).mpr ⟨followed, reached, received⟩
  have present : index < sent.length := (List.getElem?_eq_some_iff.mp listed).1
  by_cases more : index + 1 < sent.length
  · obtain ⟨allowed, later, _⟩ := (logs (index + 1) _).mp (List.getElem?_eq_getElem more)
    obtain ⟨previous, before, redirects⟩ := (reaches_next _ index).mp later
    cases reaches_unique index before reached
    rcases ends with spent | final
    · omega
    · exact absurd redirects (final _)
  · omega

end Logged

-- The chain is cut behind the eleventh URL, if that one is redirected like all in front of it.
theorem lost_iff_redirected {client : Client} {network : Network} {origin : Url} :
    Ends client network origin .lost ↔ ∀ index, index ≤ redirectLimit →
      ∃ url target, Reaches client network origin index url ∧ Redirects client network url target := by
  constructor
  · intro ends index within
    cases ends with
    | stopped _ _ _ _ _ stops => cases stops
    | lost last target reached redirects =>
        exact reaches_before (.next redirectLimit last target reached redirects) (Nat.lt_succ_of_le within)
  · intro every
    obtain ⟨last, target, reached, redirects⟩ := every redirectLimit (Nat.le_refl _)
    exact .lost last target reached redirects

end Devnet.Http
