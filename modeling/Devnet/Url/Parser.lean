import Devnet.Url.Host
import Devnet.Url.Path

/-
Reading URLs, alone or relative to a base. Control characters and spaces around the text are dropped
first, tabs and line breaks inside it on the way: in the path of a file, a gap that they leave behind
a drive letter still counts.
-/
set_option autoImplicit false

namespace Devnet.Url

def trimmed (text : String) : List Char :=
  let blank : Char → Bool := fun c => c.toNat ≤ 0x20
  ((text.toList.dropWhile blank).reverse.dropWhile blank).reverse

def isSlash (c : Char) : Bool := c == '/' || c == '\\'

def isSchemeCharacter (c : Char) : Bool :=
  isLetter c || (0x30 ≤ c.toNat && c.toNat ≤ 0x39) || ['+', '-', '.'].contains c

def scheme? (text : List Char) : Option (String × List Char) :=
  match text.dropWhile (· ≠ ':') with
  | _ :: rest =>
      let name := withoutGaps (text.takeWhile (· ≠ ':'))
      match name with
      | first :: _ =>
          if isLetter first && name.all isSchemeCharacter then
            some (String.ofList (name.map lowerAscii), rest)
          else none
      | [] => none
  | [] => none

def queryAndFragment (kind : Kind) (text : List Char) : Option String × Option String :=
  let fragmentOf (chars : List Char) := String.ofList (percentEncode keepsInFragment chars)
  match withoutGaps text with
  | '?' :: rest =>
      let query := String.ofList (percentEncode (keepsInQuery kind.isSpecial) (rest.takeWhile (· ≠ '#')))
      match rest.dropWhile (· ≠ '#') with
      | _ :: fragment => (some query, some (fragmentOf fragment))
      | [] => (some query, none)
  | _ :: fragment => (none, some (fragmentOf fragment))
  | [] => (none, none)

def finish (scheme : String) (authority : Option Authority) (path rest : List Char) : Url :=
  let (query, fragment) := queryAndFragment (kindOf scheme) rest
  { scheme, authority, path := String.ofList path, query, fragment }

def lastAt? (authority : List Char) : Option Nat :=
  if authority.contains '@' then
    some (authority.length - 1 - (authority.reverse.takeWhile (· ≠ '@')).length)
  else none

def userinfo (kind : Kind) (text : List Char) : Except ParseError (String × String × List Char) :=
  let ends (c : Char) : Bool := ['/', '?', '#'].contains c || (c == '\\' && kind.isSpecial)
  match lastAt? (text.takeWhile fun c => !ends c) with
  | none => .ok ("", "", text)
  | some 0 =>
      match text.drop 1 with
      | c :: rest => if ends c then .error .emptyHost else .ok ("", "", c :: rest)
      | [] => .ok ("", "", [])
  | some length =>
      let info := text.take length
      let encoded (chars : List Char) := String.ofList (percentEncode keepsInUserinfo chars)
      .ok (encoded (info.takeWhile (· ≠ ':')), encoded ((info.dropWhile (· ≠ ':')).drop 1),
        text.drop (length + 1))

-- Splits the text of a host off; a colon inside square brackets belongs to it.
def splitHost (kind : Kind) (inBrackets : Bool) : List Char → List Char × List Char
  | [] => ([], [])
  | c :: rest =>
      if (c = ':' ∧ !inBrackets) ∨ (c = '\\' ∧ kind.isSpecial) ∨ c = '/' ∨ c = '?' ∨ c = '#' then
        ([], c :: rest)
      else
        let (host, after) :=
          splitHost kind (if c = '[' then true else if c = ']' then false else inBrackets) rest
        (c :: host, after)

-- A port of at most 65535 that ends with the authority; without digits there is none.
def port (text : List Char) : Except ParseError (Option Nat × List Char) :=
  let isDigit (c : Char) : Bool := (Numeral.digit? 10 c).isSome
  let digits := text.takeWhile isDigit
  let rest := text.dropWhile isDigit
  let number := (Numeral.value? 10 digits).getD 0
  if number > 65535 then .error .invalidPort
  else
    match rest with
    | c :: _ =>
        if endsSegment c then .ok (if digits.isEmpty then none else some number, rest)
        else .error .invalidPort
    | [] => .ok (if digits.isEmpty then none else some number, [])

def host (kind : Kind) (text : List Char) : Except ParseError Host :=
  if kind.isSpecial then
    if text.isEmpty then .error .emptyHost else domainHost text
  else unparsedHost text

def withAuthority (scheme : String) (text : List Char) : Except ParseError Url := do
  let kind := kindOf scheme
  let (username, password, afterInfo) ← userinfo kind text
  let (hostText, afterHost) := splitHost kind false afterInfo
  let host ← host kind hostText
  let hostIsEmpty := host == .name ""
  if hostIsEmpty && afterHost.head? == some ':' then throw .emptyHost
  let (port, afterPort) ←
    match afterHost with
    | ':' :: rest => port rest
    | _ => .ok (none, afterHost)
  if hostIsEmpty && !(username == "" && password == "") then throw .emptyHost
  let authority : Authority :=
    { username, password, host, port := if port = defaultPort? scheme then none else port }
  let (state, rest) := pathAfterAuthority kind afterPort
  return finish scheme (some authority) state.path rest

def fileAuthority (host : Host) : Option Authority := some ⟨"", "", host, none⟩

def noHost : Host := .name ""

-- A file URL from the text after its two slashes. A drive letter is no host, and neither is
-- `localhost`.
def fileWithHost (text : List Char) : Except ParseError Url := do
  let hostText := withoutGaps (text.takeWhile fun c => !endsSegment c)
  if isDrive hostText then
    let (state, rest) := extendPath .file ['/'] false text
    return finish "file" (fileAuthority noHost) state.path rest
  let rest := text.dropWhile fun c => !endsSegment c
  let host ← if hostText.isEmpty then .ok noHost else domainHost hostText
  if host = noHost ∨ host = .name "localhost" then
    let (state, rest) := extendPath .file ['/'] false rest
    return finish "file" (fileAuthority noHost) state.path rest
  let (state, rest) := pathAfterAuthority .file rest
  return finish "file" (fileAuthority (if state.onHost then host else noHost)) state.path rest

def firstSegment (path : List Char) : List Char := (path.drop 1).takeWhile (· ≠ '/')

def fileFromRoot (base : Option Url) (text : List Char) : Url :=
  let (authority, path) : Option Authority × List Char :=
    if startsWithDrive (withoutGaps (text.drop 1)) then (fileAuthority noHost, [])
    else
      match base with
      | none => (fileAuthority noHost, [])
      | some base =>
          let drive := firstSegment base.path.toList
          if isNormalDrive drive then (fileAuthority noHost, '/' :: drive) else (base.authority, [])
  let (state, rest) := extendPath .file path false text
  finish "file" authority state.path rest

def onBase (base : Url) (path rest : List Char) : Url := finish base.scheme base.authority path rest

def samePath? (base : Url) (text : List Char) : Option Url :=
  match text with
  | [] => some { base with fragment := none }
  | '?' :: _ => some (onBase base base.path.toList text)
  | '#' :: _ => some { base with fragment := (queryAndFragment base.kind text).2 }
  | _ => none

def freshFile (text : List Char) : Url :=
  let (state, rest) := extendPath .file ['/'] false text
  finish "file" (fileAuthority noHost) state.path rest

-- A reference to a file by a text without a slash at its start. A drive letter leaves the base.
def besideFile (base : Option Url) (text : List Char) : Url :=
  match base with
  | none => freshFile text
  | some base =>
      match samePath? base text with
      | some url => url
      | none =>
          if startsWithDrive (withoutGaps text) then freshFile text
          else
            let (state, rest) := extendPath .file (dropSegment .file base.path.toList) true text
            onBase base state.path rest

def fileReference (base : Option Url) (text : List Char) : Except ParseError Url :=
  match text.dropWhile isGap with
  | [] => .ok (besideFile base [])
  | first :: rest =>
      if isSlash first then
        match rest.dropWhile isGap with
        | [] => .ok (fileFromRoot base [first])
        | second :: rest =>
            if isSlash second then fileWithHost rest
            else .ok (fileFromRoot base (first :: second :: rest))
      else .ok (besideFile base (first :: rest))

def fromRoot (base : Url) (text : List Char) : Url :=
  let (state, rest) := extendPath base.kind ['/'] true text
  onBase base state.path rest

def besidePath (base : Url) (text : List Char) : Url :=
  let path := dropSegment base.kind base.path.toList
  let (state, rest) := extendPath base.kind (if path.isEmpty then ['/'] else path) true text
  onBase base state.path rest

def reference (base : Url) (text : List Char) : Except ParseError Url :=
  match samePath? base text with
  | some url => .ok url
  | none =>
      match text with
      | '/' :: '/' :: authority => withAuthority base.scheme authority
      | first :: second :: rest =>
          if isSlash first && isSlash second then withAuthority base.scheme (rest.dropWhile isSlash)
          else if isSlash first then .ok (fromRoot base (second :: rest))
          else .ok (besidePath base text)
      | [first] => .ok (if isSlash first then fromRoot base [] else besidePath base text)
      | [] => .ok base

def otherUrl (scheme : String) (text : List Char) : Except ParseError Url :=
  match text with
  | '/' :: '/' :: authority => withAuthority scheme authority
  | '/' :: path =>
      let (state, rest) := extendPath .other ['/'] true path
      .ok (finish scheme none state.path rest)
  | _ =>
      let isEnd (c : Char) : Bool := c == '?' || c == '#'
      .ok (finish scheme none (percentEncode keepsVerbatim (text.takeWhile fun c => !isEnd c))
        (text.dropWhile fun c => !isEnd c))

-- A URL from the text after its scheme. A special scheme that is also the base's makes a text
-- with fewer than two slashes relative.
def withScheme (base : Option Url) (scheme : String) (text : List Char) : Except ParseError Url :=
  let sameScheme := base.filter fun base => base.scheme = scheme
  match kindOf scheme with
  | .file => fileReference sameScheme text
  | .web =>
      let text := withoutGaps text
      let slashes := (text.takeWhile isSlash).length
      match sameScheme with
      | some base =>
          if slashes < 2 then reference base text else withAuthority scheme (text.dropWhile isSlash)
      | none => withAuthority scheme (text.dropWhile isSlash)
  | .other => otherUrl scheme (withoutGaps text)

def resolve (base : Option Url) (text : String) : Except ParseError Url :=
  let chars := trimmed text
  match scheme? chars, base with
  | some (scheme, rest), _ => withScheme base scheme rest
  | none, none => .error .relativeWithoutBase
  | none, some base =>
      if (withoutGaps chars).head? = some '#' then
        .ok { base with fragment := (queryAndFragment base.kind chars).2 }
      else if base.isVerbatim then .error .relativeToVerbatim
      else if base.kind = .file then fileReference (some base) chars
      else reference base (withoutGaps chars)

def parse (text : String) : Except ParseError Url := resolve none text

def join (base : Url) (text : String) : Except ParseError Url := resolve (some base) text

end Devnet.Url
