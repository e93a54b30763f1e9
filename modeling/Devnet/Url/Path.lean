import Devnet.Url.Basic
import Devnet.Url.Encode

set_option autoImplicit false

namespace Devnet.Url

def isLetter (c : Char) : Bool :=
  (0x41 ≤ c.toNat && c.toNat ≤ 0x5A) || (0x61 ≤ c.toNat && c.toNat ≤ 0x7A)

def isGap (c : Char) : Bool := ['\t', '\n', '\r'].contains c

def withoutGaps (text : List Char) : List Char := text.filter fun c => !isGap c

def endsSegment (c : Char) : Bool := ['/', '\\', '?', '#'].contains c

def startsWithDrive : List Char → Bool
  | letter :: mark :: rest =>
      isLetter letter && [':', '|'].contains mark &&
        (match rest with
          | [] => true
          | c :: _ => endsSegment c)
  | _ => false

def isDrive (segment : List Char) : Bool := segment.length == 2 && startsWithDrive segment

def isNormalDrive (segment : List Char) : Bool :=
  isDrive segment && segment.getLast? == some ':'

def isSingleDot (segment : List Char) : Bool :=
  segment == ['.'] || segment.map (fun c => if c = 'E' then 'e' else c) == ['%', '2', 'e']

def isDoubleDot (segment : List Char) : Bool :=
  let folded := segment.map fun c => if c = 'E' then 'e' else c
  [['.', '.'], ['%', '2', 'e', '%', '2', 'e'], ['%', '2', 'e', '.'], ['.', '%', '2', 'e']].contains folded

def throughLastSlash (text : List Char) : List Char :=
  (text.reverse.dropWhile (· ≠ '/')).reverse

def afterLastSlash (text : List Char) : List Char :=
  (text.reverse.takeWhile (· ≠ '/')).reverse

def dropSegment (kind : Kind) (path : List Char) : List Char :=
  if !path.contains '/' then path
  else if kind == .file && isNormalDrive (afterLastSlash path) then path
  else throughLastSlash path

-- The final slash of a path closes a segment: it is neither the root nor follows a drive letter.
def closesSegment (path : List Char) : Bool :=
  let before := path.dropLast
  path.getLast? == some '/' && before.contains '/' && !startsWithDrive (afterLastSlash before ++ ['/'])

def parent (kind : Kind) (path : List Char) : List Char :=
  dropSegment kind (if closesSegment path then path.dropLast else path)

def withSlash (path : List Char) : List Char :=
  if path.getLast? = some '/' then path else path ++ ['/']

-- A path under construction; `onHost` tells that no drive letter has replaced the host.
structure PathState where
  path : List Char
  onHost : Bool

def PathState.add (kind : Kind) (state : PathState) (segment : List Char) (slash : Bool) : PathState :=
  if isDoubleDot segment then
    let path := parent kind state.path
    { state with path := if slash then withSlash path else path }
  else if isSingleDot segment then { state with path := withSlash state.path }
  else
    let closing := if slash then ['/'] else []
    if kind == .file && state.path.length == 1 && isDrive segment then
      { path := state.path ++ segment.take 1 ++ [':'] ++ closing, onHost := false }
    else { state with path := state.path ++ segment ++ closing }

-- A run of characters after a drive letter at the root of a file path starts behind a slash; the
-- result is the path and the segment in front of that run.
def afterDrive (kind : Kind) (path segment : List Char) : List Char × List Char :=
  if kind == .file && isNormalDrive ((path ++ segment).drop 1) then
    let whole := path ++ segment ++ ['/']
    (whole.take (path.length + 1), whole.drop (path.length + 1))
  else (path, segment)

-- Reads segments up to a question mark, a hash or the end; `segment` is already read. A run of
-- characters starts, as `fresh` tells, at the start of the text, of a segment, and after a gap.
def readSegments (kind : Kind) (state : PathState) (segment : List Char) (fresh : Bool) :
    List Char → PathState × List Char
  | [] => (state.add kind segment false, [])
  | c :: rest =>
      if isGap c then readSegments kind state segment true rest
      else if c = '/' ∨ (c = '\\' ∧ kind.isSpecial) then
        readSegments kind (state.add kind segment true) [] true rest
      else if c = '?' ∨ c = '#' then (state.add kind segment false, c :: rest)
      else
        let (path, segment) :=
          if fresh then afterDrive kind state.path segment else (state.path, segment)
        readSegments kind { state with path := path }
          (segment ++ encodeCharacter keepsInPath c) false rest

-- Extends a path by the segments of a text. A file path keeps one slash at its start.
def extendPath (kind : Kind) (path : List Char) (onHost : Bool) (text : List Char) :
    PathState × List Char :=
  let (state, rest) := readSegments kind ⟨path, onHost⟩ [] true text
  match kind with
  | .file => ({ state with path := '/' :: state.path.dropWhile (· = '/') }, rest)
  | _ => (state, rest)

-- The path that follows an authority. Special URLs always have one; others may have none.
def pathAfterAuthority (kind : Kind) (text : List Char) : PathState × List Char :=
  match kind.isSpecial, text with
  | true, c :: rest =>
      if c = '/' ∨ c = '\\' then extendPath kind ['/'] true rest else extendPath kind ['/'] true text
  | true, [] => extendPath kind ['/'] true []
  | false, c :: rest =>
      if c = '?' ∨ c = '#' then (⟨[], true⟩, c :: rest)
      else if c = '/' then extendPath kind [] true text
      else extendPath kind ['/'] true text
  | false, [] => (⟨[], true⟩, [])

end Devnet.Url
