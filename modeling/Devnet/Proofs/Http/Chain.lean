import Devnet.Http.Network

set_option autoImplicit false

namespace Devnet.Http

inductive Ending where
  | unsent
  | refused
  | broken
  | stalled
  | lost
  | final (response : Response)
  deriving DecidableEq, Repr

section Chain

variable (client : Client) (network : Network)

def Redirects (url target : Url) : Prop :=
  client.Asks url ∧ ∃ response, network url = .respond response ∧ client.SendsOn url response target

-- The URL is reached from the origin by a number of redirects.
inductive Reaches (origin : Url) : Nat → Url → Prop where
  | start : Reaches origin 0 origin
  | next (count : Nat) (url target : Url) (reached : Reaches origin count url)
      (redirects : Redirects client network url target) : Reaches origin (count + 1) target

inductive StopsAt (url : Url) : Ending → Prop where
  | unsent (unasked : ¬ client.Asks url) : StopsAt url .unsent
  | refused (asks : client.Asks url) (reaction : network url = .refuse) : StopsAt url .refused
  | broken (asks : client.Asks url) (reaction : network url = .fail) : StopsAt url .broken
  | stalled (asks : client.Asks url) (reaction : network url = .stall) : StopsAt url .stalled
  | final (response : Response) (asks : client.Asks url) (reaction : network url = .respond response)
      (stays : ∀ target, ¬ client.SendsOn url response target) : StopsAt url (.final response)

inductive Ends (origin : Url) : Ending → Prop where
  | stopped (count : Nat) (url : Url) (ending : Ending) (followed : count ≤ redirectLimit)
      (reached : Reaches client network origin count url) (stops : StopsAt client network url ending) :
      Ends origin ending
  | lost (url target : Url) (reached : Reaches client network origin redirectLimit url)
      (redirects : Redirects client network url target) : Ends origin .lost

end Chain

section Steps

variable {client : Client} {network : Network}

theorem sends_on_unique {url a b : Url} {response : Response} (left : client.SendsOn url response a)
    (right : client.SendsOn url response b) : a = b := by
  obtain ⟨text, located, joined⟩ := left.location
  obtain ⟨other, alsoLocated, alsoJoined⟩ := right.location
  cases located.symm.trans alsoLocated
  exact Except.ok.inj (joined.symm.trans alsoJoined)

theorem redirects_unique {url a b : Url} (left : Redirects client network url a)
    (right : Redirects client network url b) : a = b := by
  obtain ⟨_, response, reaction, sent⟩ := left
  obtain ⟨_, other, answers, onward⟩ := right
  cases reaction.symm.trans answers
  exact sends_on_unique sent onward

theorem stops_or_redirects (client : Client) (network : Network) (url : Url) :
    (∃ ending, StopsAt client network url ending) ∨ ∃ target, Redirects client network url target := by
  by_cases asks : client.Asks url
  · cases reaction : network url with
    | refuse => exact .inl ⟨_, .refused asks reaction⟩
    | fail => exact .inl ⟨_, .broken asks reaction⟩
    | stall => exact .inl ⟨_, .stalled asks reaction⟩
    | respond response =>
        by_cases onward : ∃ target, client.SendsOn url response target
        · obtain ⟨target, sent⟩ := onward
          exact .inr ⟨target, asks, response, reaction, sent⟩
        · exact .inl ⟨_, .final response asks reaction (not_exists.mp onward)⟩
  · exact .inl ⟨_, .unsent asks⟩

theorem stops_final {url target : Url} {ending : Ending} (stops : StopsAt client network url ending) :
    ¬ Redirects client network url target := by
  rintro ⟨asks, response, reaction, sent⟩
  cases stops with
  | unsent unasked => exact unasked asks
  | refused _ other => cases reaction.symm.trans other
  | broken _ other => cases reaction.symm.trans other
  | stalled _ other => cases reaction.symm.trans other
  | final answer _ other stays =>
      cases reaction.symm.trans other
      exact stays target sent

theorem stops_unique {url : Url} {a b : Ending} (left : StopsAt client network url a)
    (right : StopsAt client network url b) : a = b := by
  cases left <;> cases right <;> simp_all

end Steps

section Reached

variable {client : Client} {network : Network} {origin : Url}

theorem reaches_start (url : Url) : Reaches client network origin 0 url ↔ url = origin := by
  constructor
  · intro reached
    cases reached
    rfl
  · rintro rfl
    exact .start

theorem reaches_next (target : Url) (count : Nat) :
    Reaches client network origin (count + 1) target ↔
      ∃ url, Reaches client network origin count url ∧ Redirects client network url target := by
  constructor
  · intro reached
    cases reached with
    | next _ url _ before redirects => exact ⟨url, before, redirects⟩
  · rintro ⟨url, before, redirects⟩
    exact .next count url target before redirects

theorem reaches_first (target : Url) (count : Nat) :
    Reaches client network origin (count + 1) target ↔
      ∃ url, Redirects client network origin url ∧ Reaches client network url count target := by
  induction count generalizing target with
  | zero =>
      rw [reaches_next]
      constructor
      · rintro ⟨url, reached, redirects⟩
        cases reached
        exact ⟨target, redirects, .start⟩
      · rintro ⟨url, redirects, reached⟩
        cases reached
        exact ⟨origin, .start, redirects⟩
  | succ count ih =>
      rw [reaches_next]
      constructor
      · rintro ⟨last, reached, redirects⟩
        obtain ⟨url, first, later⟩ := (ih last).mp reached
        exact ⟨url, first, (reaches_next target count).mpr ⟨last, later, redirects⟩⟩
      · rintro ⟨url, first, reached⟩
        obtain ⟨last, later, redirects⟩ := (reaches_next target count).mp reached
        exact ⟨last, (ih last).mpr ⟨url, first, later⟩, redirects⟩

theorem reaches_unique {a b : Url} (count : Nat) (left : Reaches client network origin count a)
    (right : Reaches client network origin count b) : a = b := by
  induction count generalizing a b with
  | zero => rw [(reaches_start a).mp left, (reaches_start b).mp right]
  | succ count ih =>
      obtain ⟨url, before, redirects⟩ := (reaches_next a count).mp left
      obtain ⟨other, earlier, onward⟩ := (reaches_next b count).mp right
      cases ih before earlier
      exact redirects_unique redirects onward

theorem reaches_before {target : Url} {count index : Nat} (reached : Reaches client network origin count target)
    (earlier : index < count) :
    ∃ url next, Reaches client network origin index url ∧ Redirects client network url next := by
  induction reached with
  | start => exact absurd earlier (Nat.not_lt_zero index)
  | next count url target before redirects ih =>
      rcases Nat.lt_succ_iff_lt_or_eq.mp earlier with sooner | rfl
      · exact ih sooner
      · exact ⟨url, target, before, redirects⟩

theorem reaches_no_further {url target : Url} {ending : Ending} {count index : Nat}
    (reached : Reaches client network origin count url) (stops : StopsAt client network url ending)
    (other : Reaches client network origin index target) : index ≤ count := by
  apply Nat.le_of_not_lt
  intro beyond
  obtain ⟨same, next, before, redirects⟩ := reaches_before other beyond
  cases reaches_unique count reached before
  exact stops_final stops redirects

end Reached

section Ended

variable {client : Client} {network : Network} {origin : Url}

theorem ends_from (left count : Nat) (url : Url) (budget : count + left = redirectLimit)
    (reached : Reaches client network origin count url) : ∃ ending, Ends client network origin ending := by
  induction left generalizing count url with
  | zero =>
      have last : count = redirectLimit := budget
      rcases stops_or_redirects client network url with ⟨ending, stops⟩ | ⟨target, redirects⟩
      · exact ⟨ending, .stopped count url ending (Nat.le_of_eq last) reached stops⟩
      · exact ⟨.lost, .lost url target (last ▸ reached) redirects⟩
  | succ left ih =>
      rcases stops_or_redirects client network url with ⟨ending, stops⟩ | ⟨target, redirects⟩
      · exact ⟨ending, .stopped count url ending (by omega) reached stops⟩
      · exact ih (count + 1) target (by omega) (.next count url target reached redirects)

theorem ends_somehow (client : Client) (network : Network) (origin : Url) :
    ∃ ending, Ends client network origin ending :=
  ends_from redirectLimit 0 origin (Nat.zero_add _) .start

theorem stopped_unlost {url last target : Url} {ending : Ending} {count : Nat} (followed : count ≤ redirectLimit)
    (reached : Reaches client network origin count url) (stops : StopsAt client network url ending)
    (chain : Reaches client network origin redirectLimit last) (redirects : Redirects client network last target) :
    False := by
  have further := reaches_no_further reached stops (.next redirectLimit last target chain redirects)
  omega

theorem ends_unique {a b : Ending} (left : Ends client network origin a) (right : Ends client network origin b) :
    a = b := by
  cases left with
  | stopped count url _ followed reached stops =>
      cases right with
      | stopped index other _ _ arrived halts =>
          have length : count = index :=
            Nat.le_antisymm (reaches_no_further arrived halts reached) (reaches_no_further reached stops arrived)
          subst length
          cases reaches_unique count reached arrived
          exact stops_unique stops halts
      | lost last target chain redirects => exact (stopped_unlost followed reached stops chain redirects).elim
  | lost last target chain redirects =>
      cases right with
      | stopped count url _ followed reached stops => exact (stopped_unlost followed reached stops chain redirects).elim
      | lost => rfl

end Ended

inductive Told (client : Client) (timeout : Option Duration) (network : Network) (origin : Url) :
    Ending → Option (Except Failure Answer) → Prop where
  | unsent (count : Nat) (url : Url) (reached : Reaches client network origin count url) :
      Told client timeout network origin .unsent (some (.error ⟨false, false, unsentText origin url⟩))
  | refused : Told client timeout network origin .refused (some (.error ⟨false, true, sendingText origin⟩))
  | broken : Told client timeout network origin .broken (some (.error ⟨false, false, sendingText origin⟩))
  | expired (cause : Failure) (limited : timeout ≠ none) (late : cause.isTimeout = true) :
      Told client timeout network origin .stalled (some (.error cause))
  | endless (unlimited : timeout = none) : Told client timeout network origin .stalled none
  | lost (url : Url) (reached : Reaches client network origin redirectLimit url) :
      Told client timeout network origin .lost (some (.error ⟨false, false, redirectText url⟩))
  | final (response : Response) (bytes : Option (Except Failure Bytes)) (arrives : Arrives timeout response.content bytes) :
      Told client timeout network origin (.final response) (some (.ok ⟨response.status, bytes⟩))

section Rules

variable {client : Client} {timeout : Option Duration} {network : Network} (rules : client.Rules timeout network)
  {origin : Url}
include rules

theorem get_reaches {count : Nat} {url : Url} (followed : count ≤ redirectLimit)
    (reached : Reaches client network origin count url) :
    (client.get timeout origin).result = (client.pursue timeout ⟨origin, count, url⟩).result := by
  induction reached with
  | start => rfl
  | next count url target _ redirects ih =>
      obtain ⟨asks, response, reaction, sent⟩ := redirects
      have more : count < redirectLimit := by omega
      rw [ih (Nat.le_of_lt more), rules.redirected ⟨origin, count, url⟩ response target asks reaction sent more]
      rfl

theorem told_of_stop {count : Nat} {url : Url} {ending : Ending} (reached : Reaches client network origin count url)
    (stops : StopsAt client network url ending) :
    Told client timeout network origin ending (client.pursue timeout ⟨origin, count, url⟩).result := by
  cases stops with
  | unsent unasked =>
      rw [rules.unsent ⟨origin, count, url⟩ unasked]
      exact .unsent count url reached
  | refused asks reaction =>
      rw [rules.refused ⟨origin, count, url⟩ asks reaction]
      exact .refused
  | broken asks reaction =>
      rw [rules.broken ⟨origin, count, url⟩ asks reaction]
      exact .broken
  | stalled asks reaction =>
      by_cases limited : timeout = none
      · rw [rules.endless ⟨origin, count, url⟩ asks reaction limited]
        exact .endless limited
      · obtain ⟨cause, late, exchange⟩ := rules.expired ⟨origin, count, url⟩ asks reaction limited
        rw [exchange]
        exact .expired cause limited late
  | final response asks reaction stays =>
      obtain ⟨bytes, arrives, exchange⟩ := rules.answered ⟨origin, count, url⟩ response asks reaction stays
      rw [exchange]
      exact .final response bytes arrives

theorem told_of_ending {ending : Ending} (ends : Ends client network origin ending) :
    Told client timeout network origin ending (client.get timeout origin).result := by
  cases ends with
  | stopped count url _ followed reached stops =>
      rw [get_reaches rules followed reached]
      exact told_of_stop rules reached stops
  | lost url target reached redirects =>
      obtain ⟨asks, response, reaction, sent⟩ := redirects
      rw [get_reaches rules (Nat.le_refl _) reached,
        rules.exhausted ⟨origin, redirectLimit, url⟩ response target asks reaction sent (Nat.le_refl _)]
      exact .lost url reached

end Rules

end Devnet.Http
