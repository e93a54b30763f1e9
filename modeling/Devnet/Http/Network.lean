import Devnet.Http.Client
import Devnet.Url.Parser

set_option autoImplicit false

namespace Devnet.Http

inductive Body where
  | whole (bytes : Bytes)
  -- The connection is closed before the end of the body.
  | cut
  -- The connection stays open, and the rest does not come.
  | stalled
  deriving DecidableEq, Repr

-- A final response: what an interim one announces is still to come.
structure Response where
  status : Status
  location : Option String
  body : Body
  final : status.isFinal = true := by exact Eq.refl true
  deriving DecidableEq, Repr

def Response.content (response : Response) : Body :=
  if response.status = 204 ∨ response.status = 304 then .whole [] else response.body

inductive Reaction where
  | respond (response : Response)
  -- The connection stays open and no response comes.
  | stall
  -- The connection is closed, or what comes is not HTTP.
  | fail
  -- There is no connection.
  | refuse
  deriving DecidableEq, Repr

abbrev Network := Url → Reaction

def unsentText (origin url : Url) : String :=
  let named := if url = origin then url else url.withoutFragment
  s!"builder error for url ({named.withoutUserinfo.text})"

def sendingText (origin : Url) : String := s!"error sending request for url ({origin.withoutUserinfo.text})"

def redirectText (url : Url) : String :=
  s!"error following redirect for url ({url.withoutUserinfo.withoutFragment.text})"

def bodyText : String := "error decoding response body"

def redirectLimit : Nat := 10

inductive Arrives (timeout : Option Duration) : Body → Option (Except Failure Bytes) → Prop where
  | whole (bytes : Bytes) : Arrives timeout (.whole bytes) (some (.ok bytes))
  | cut (cause : Failure) (told : cause.text = bodyText) : Arrives timeout .cut (some (.error cause))
  | expired (cause : Failure) (limited : timeout ≠ none) (told : cause.text = bodyText) :
      Arrives timeout .stalled (some (.error cause))
  | endless (unlimited : timeout = none) : Arrives timeout .stalled none

namespace Client

def Asks (client : Client) (url : Url) : Prop :=
  (url.scheme = "http" ∨ url.scheme = "https") ∧ client.names url = true

structure SendsOn (client : Client) (url : Url) (response : Response) (target : Url) : Prop where
  redirection : response.status ∈ [301, 302, 303, 307, 308]
  location : ∃ text, response.location = some text ∧ url.join text = .ok target
  named : client.names target = true

-- What the programs rely on: a rule for each thing that can come of one request.
structure Rules (client : Client) (timeout : Option Duration) (network : Network) : Prop where
  unsent : ∀ hop, ¬ client.Asks hop.url →
    client.pursue timeout hop = ⟨some (.error ⟨false, false, unsentText hop.origin hop.url⟩), []⟩
  refused : ∀ hop, client.Asks hop.url → network hop.url = .refuse →
    client.pursue timeout hop = ⟨some (.error ⟨false, true, sendingText hop.origin⟩), []⟩
  broken : ∀ hop, client.Asks hop.url → network hop.url = .fail →
    client.pursue timeout hop = ⟨some (.error ⟨false, false, sendingText hop.origin⟩), [hop.url]⟩
  expired : ∀ hop, client.Asks hop.url → network hop.url = .stall → timeout ≠ none →
    ∃ cause, cause.isTimeout = true ∧ client.pursue timeout hop = ⟨some (.error cause), [hop.url]⟩
  endless : ∀ hop, client.Asks hop.url → network hop.url = .stall → timeout = none →
    client.pursue timeout hop = ⟨none, [hop.url]⟩
  answered : ∀ hop response, client.Asks hop.url → network hop.url = .respond response →
    (∀ target, ¬ client.SendsOn hop.url response target) →
      ∃ bytes, Arrives timeout response.content bytes ∧
        client.pursue timeout hop = ⟨some (.ok ⟨response.status, bytes⟩), [hop.url]⟩
  redirected : ∀ hop response target, client.Asks hop.url → network hop.url = .respond response →
    client.SendsOn hop.url response target → hop.followed < redirectLimit →
      client.pursue timeout hop = (client.pursue timeout ⟨hop.origin, hop.followed + 1, target⟩).behind hop.url
  exhausted : ∀ hop response target, client.Asks hop.url → network hop.url = .respond response →
    client.SendsOn hop.url response target → redirectLimit ≤ hop.followed →
      client.pursue timeout hop = ⟨some (.error ⟨false, false, redirectText hop.url⟩), [hop.url]⟩

end Client
end Devnet.Http
