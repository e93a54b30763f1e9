import Devnet.Url.Host

set_option autoImplicit false

namespace Devnet.Url

def Authority.userinfo (authority : Authority) : String :=
  if authority.username = "" ∧ authority.password = "" then ""
  else
    authority.username ++ (if authority.password = "" then "" else ":" ++ authority.password) ++ "@"

def Authority.portText (authority : Authority) : String :=
  match authority.port with
  | none => ""
  | some port => ":" ++ Numeral.decimal port

def Authority.text (authority : Authority) : String :=
  "//" ++ authority.userinfo ++ authority.host.text ++ authority.portText

def beforePath (url : Url) : String :=
  match url.authority with
  | some authority => authority.text
  | none => if url.path.toList.take 2 = ['/', '/'] then "/." else ""

def queryText (url : Url) : String :=
  match url.query with
  | none => ""
  | some query => "?" ++ query

def fragmentText (url : Url) : String :=
  match url.fragment with
  | none => ""
  | some fragment => "#" ++ fragment

def text (url : Url) : String :=
  url.scheme ++ ":" ++ url.beforePath ++ url.path ++ url.queryText ++ url.fragmentText

instance : ToString Url := ⟨Url.text⟩

def withoutUserinfo (url : Url) : Url :=
  { url with
    authority := url.authority.map fun authority => { authority with username := "", password := "" } }

def withoutFragment (url : Url) : Url := { url with fragment := none }

def target (url : Url) : String := url.path ++ url.queryText

end Devnet.Url
