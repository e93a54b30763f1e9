import Devnet.Http.Scripted
import Devnet.Proofs.Http.Chain

set_option autoImplicit false

namespace Devnet.Http

namespace Scripted

section Url

variable (network : Network) (url : Url)

theorem asks_iff : asks url = true ↔ (Client.scripted network).Asks url := by
  simp [asks, Client.Asks, Client.scripted]

variable (response : Response)

theorem target_iff (target : Url) : target? url response = some target ↔ (Client.scripted network).SendsOn url response target := by
  have sends : (Client.scripted network).SendsOn url response target ↔
      response.status ∈ [301, 302, 303, 307, 308] ∧
        (∃ text, response.location = some text ∧ url.join text = .ok target) ∧ names target = true :=
    ⟨fun sent => ⟨sent.redirection, sent.location, sent.named⟩, fun sent => ⟨sent.1, sent.2.1, sent.2.2⟩⟩
  rw [sends, target?, Status.isRedirect, ← List.contains_iff_mem]
  by_cases redirect : [301, 302, 303, 307, 308].contains response.status = true
  · rw [if_pos redirect, and_iff_right redirect]
    cases response.location with
    | none => simp
    | some text => cases joined : url.join text <;> simp [joined, Except.toOption, Option.filter_eq_some_iff]
  · rw [if_neg redirect]
    simp only [redirect, reduceCtorEq, Bool.false_eq_true, false_and]

theorem stays_iff : target? url response = none ↔ ∀ target, ¬ (Client.scripted network).SendsOn url response target := by
  simp only [← target_iff, Option.eq_none_iff_forall_ne_some]

theorem redirects_of_target (target : Url) (asked : asks url = true) (reaction : network url = .respond response)
    (onward : target? url response = some target) : Redirects (Client.scripted network) network url target :=
  ⟨(asks_iff network url).mp asked, response, reaction, (target_iff network url response target).mp onward⟩

end Url

theorem read_arrives (timeout : Option Duration) (body : Body) : Arrives timeout body (read timeout body) := by
  cases body with
  | whole bytes => exact .whole bytes
  | cut => exact .cut _ rfl
  | stalled =>
      by_cases unlimited : timeout = none
      · rw [read, if_pos unlimited]
        exact .endless unlimited
      · rw [read, if_neg unlimited]
        exact .expired _ unlimited rfl

theorem follow_asks (network : Network) (timeout : Option Duration) (origin url : Url) (left : Nat)
    (asked : asks url = true) :
    follow network timeout origin left url =
      match network url with
      | .refuse => ⟨some (.error ⟨false, true, sendingText origin⟩), []⟩
      | .fail => ⟨some (.error ⟨false, false, sendingText origin⟩), [url]⟩
      | .stall =>
          if timeout = none then ⟨none, [url]⟩
          else ⟨some (.error ⟨true, false, "operation timed out"⟩), [url]⟩
      | .respond response =>
          match target? url response with
          | none => ⟨some (.ok ⟨response.status, read timeout response.content⟩), [url]⟩
          | some target =>
              match left with
              | 0 => ⟨some (.error ⟨false, false, redirectText url⟩), [url]⟩
              | more + 1 => (follow network timeout origin more target).behind url := by
  rw [follow.eq_def, asked]
  rfl

end Scripted

theorem scripted_pursue (network : Network) (timeout : Option Duration) (hop : Hop) :
    (Client.scripted network).pursue timeout hop =
      Scripted.follow network timeout hop.origin (redirectLimit - hop.followed) hop.url := rfl

theorem scripted_rules (network : Network) (timeout : Option Duration) :
    (Client.scripted network).Rules timeout network := by
  have pursued (hop : Hop) (asks : (Client.scripted network).Asks hop.url) :=
    Scripted.follow_asks network timeout hop.origin hop.url (redirectLimit - hop.followed)
      ((Scripted.asks_iff network hop.url).mpr asks)
  constructor
  case unsent =>
    intro hop unasked
    have asks : Scripted.asks hop.url = false := by
      rw [← Bool.not_eq_true, Scripted.asks_iff network]
      exact unasked
    rw [scripted_pursue, Scripted.follow.eq_def, asks]
    rfl
  case refused =>
    intro hop asks reaction
    rw [scripted_pursue, pursued hop asks, reaction]
  case broken =>
    intro hop asks reaction
    rw [scripted_pursue, pursued hop asks, reaction]
  case expired =>
    intro hop asks reaction limited
    refine ⟨⟨true, false, "operation timed out"⟩, rfl, ?_⟩
    rw [scripted_pursue, pursued hop asks, reaction]
    exact if_neg limited
  case endless =>
    intro hop asks reaction unlimited
    rw [scripted_pursue, pursued hop asks, reaction]
    exact if_pos unlimited
  case answered =>
    intro hop response asks reaction stays
    have final := (Scripted.stays_iff network hop.url response).mpr stays
    refine ⟨_, Scripted.read_arrives timeout response.content, ?_⟩
    rw [scripted_pursue, pursued hop asks, reaction]
    simp only [final]
  case redirected =>
    intro hop response target asks reaction sent more
    have onward := (Scripted.target_iff network hop.url response target).mpr sent
    have left : redirectLimit - hop.followed = redirectLimit - (hop.followed + 1) + 1 := by omega
    rw [scripted_pursue, scripted_pursue, pursued hop asks, reaction]
    simp only [onward, left]
  case exhausted =>
    intro hop response target asks reaction sent spent
    have onward := (Scripted.target_iff network hop.url response target).mpr sent
    have left : redirectLimit - hop.followed = 0 := Nat.sub_eq_zero_of_le spent
    rw [scripted_pursue, pursued hop asks, reaction]
    simp only [onward, left]

end Devnet.Http
