import Devnet.Http.Network

set_option autoImplicit false

namespace Devnet.Http

structure Route where
  target : String
  reaction : Reaction
  deriving DecidableEq, Repr

structure Node where
  routes : List Route
  deriving DecidableEq, Repr

def notFound : Response := { status := 404, location := none, body := .whole [] }

namespace Node

def react (node : Node) (target : String) : Reaction :=
  match node.routes.find? fun route => route.target == target with
  | some route => route.reaction
  | none => .respond notFound

-- The address of the loopback network on which nothing listens, `127.0.0.9`.
def deadAddress : Nat := 127 * 16777216 + 9

-- A network in which the node stands for every host and port, as a proxy does, and speaks plain HTTP alone.
def network (node : Node) : Network := fun url =>
  if url.scheme == "http" && url.authority.map Url.Authority.host != some (.ipv4 deadAddress) then
    node.react url.target
  else .refuse

end Node

def Network.unreachable : Network := fun _ => .refuse

namespace Scripted

def unnameable : List Char := ['\x22', '\x60', '\x7b', '\x7d']

def longestName : Nat := 65534

def names (url : Url) : Bool :=
  (url.authority.all fun authority => authority.host.text.toList.all fun c => !unnameable.contains c) &&
    url.withoutUserinfo.text.utf8ByteSize ≤ longestName

def asks (url : Url) : Bool := (url.scheme == "http" || url.scheme == "https") && names url

def target? (url : Url) (response : Response) : Option Url :=
  if response.status.isRedirect then
    match response.location with
    | some location => (url.join location).toOption.filter names
    | none => none
  else none

def read (timeout : Option Duration) : Body → Option (Except Failure Bytes)
  | .whole bytes => some (.ok bytes)
  | .cut => some (.error ⟨false, false, bodyText⟩)
  | .stalled => if timeout = none then none else some (.error ⟨true, false, bodyText⟩)

def follow (network : Network) (timeout : Option Duration) (origin : Url) (left : Nat) (url : Url) : Exchange :=
  if !asks url then ⟨some (.error ⟨false, false, unsentText origin url⟩), []⟩
  else
    match network url with
    | .refuse => ⟨some (.error ⟨false, true, sendingText origin⟩), []⟩
    | .fail => ⟨some (.error ⟨false, false, sendingText origin⟩), [url]⟩
    | .stall =>
        if timeout = none then ⟨none, [url]⟩
        else ⟨some (.error ⟨true, false, "operation timed out"⟩), [url]⟩
    | .respond response =>
        match target? url response with
        | none => ⟨some (.ok ⟨response.status, read timeout response.content⟩), [url]⟩
        | some target =>
            match left with
            | 0 => ⟨some (.error ⟨false, false, redirectText url⟩), [url]⟩
            | more + 1 => (follow network timeout origin more target).behind url

end Scripted

-- A client that does what the rules ask for.
def Client.scripted (network : Network) : Client where
  names := Scripted.names
  pursue timeout hop := Scripted.follow network timeout hop.origin (redirectLimit - hop.followed) hop.url

end Devnet.Http
