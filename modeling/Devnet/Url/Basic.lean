set_option autoImplicit false

namespace Devnet

-- Where a URL points to. An empty name is the host of a URL whose authority names none.
inductive Url.Host where
  | name (text : String)
  | ipv4 (address : Nat)
  | ipv6 (pieces : List Nat)
  deriving DecidableEq, Repr

-- User information, host and port. An empty text is an absent user name or password, and the
-- port is absent when it is the default of the scheme.
structure Url.Authority where
  username : String
  password : String
  host : Url.Host
  port : Option Nat
  deriving DecidableEq, Repr

structure Url where
  scheme : String
  authority : Option Url.Authority
  path : String
  query : Option String
  fragment : Option String
  deriving DecidableEq, Repr

inductive Url.Kind where
  | web
  | file
  | other
  deriving DecidableEq, Repr

namespace Url

def kindOf (scheme : String) : Kind :=
  if scheme = "file" then .file
  else if scheme ∈ ["http", "https", "ws", "wss", "ftp"] then .web
  else .other

def defaultPort? (scheme : String) : Option Nat :=
  if scheme = "http" ∨ scheme = "ws" then some 80
  else if scheme = "https" ∨ scheme = "wss" then some 443
  else if scheme = "ftp" then some 21
  else none

-- In every scheme but the `other` ones a backslash separates like a slash.
def Kind.isSpecial : Kind → Bool
  | .other => false
  | _ => true

def kind (url : Url) : Kind := kindOf url.scheme

def isVerbatim (url : Url) : Bool :=
  url.authority.isNone && url.path.toList.head? != some '/'

inductive ParseError where
  | emptyHost
  | invalidDomainName
  | invalidPort
  | invalidIpv4
  | invalidIpv6
  | invalidHostCharacter
  | relativeWithoutBase
  | relativeToVerbatim
  deriving DecidableEq, Repr

def ParseError.message : ParseError → String
  | .emptyHost => "empty host"
  | .invalidDomainName => "invalid international domain name"
  | .invalidPort => "invalid port number"
  | .invalidIpv4 => "invalid IPv4 address"
  | .invalidIpv6 => "invalid IPv6 address"
  | .invalidHostCharacter => "invalid domain character"
  | .relativeWithoutBase => "relative URL without a base"
  | .relativeToVerbatim => "relative URL with a cannot-be-a-base base"

end Url
end Devnet
