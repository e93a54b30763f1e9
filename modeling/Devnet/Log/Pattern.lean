import Devnet.Text.Alphanumeric
import Devnet.Text.Alphanumeric
import Devnet.Text.Numeral

/-
Patterns: the regular expressions that a log filter may compare a field with. All that matters here is
whether a text is one, so a reader keeps of what it reads only how deep it is nested. A text is no
pattern either when it asks for what takes the tables of a character database (classes of characters,
boundaries of words, letters in either case), or for bytes outside characters.
-/
set_option autoImplicit false

namespace Devnet.Log.Pattern

-- The flags that matter: letters match in either case, characters and not bytes are matched, and
-- blanks and comments do not count.
structure Flags where
  ignoresCase : Bool
  unicode : Bool
  spaced : Bool
  deriving DecidableEq, Repr

def Flags.initial : Flags := ⟨false, true, false⟩

-- The value of a flag after a list of letters, those behind a dash switching off.
def switched (letters : List Char) (letter : Char) (old : Bool) : Bool :=
  if (letters.takeWhile (· ≠ '-')).contains letter then true
  else if letters.contains letter then false
  else old

def Flags.apply (flags : Flags) (letters : List Char) : Flags :=
  ⟨switched letters 'i' flags.ignoresCase, switched letters 'u' flags.unicode,
    switched letters 'x' flags.spaced⟩

-- The text behind blanks and comments; a comment goes from a number sign to the end of its line.
def skipFrom (inComment : Bool) : List Char → List Char
  | [] => []
  | c :: rest =>
      if inComment then skipFrom (c != '\n') rest
      else if Blank.isBlank c then skipFrom false rest
      else if c = '#' then skipFrom true rest
      else c :: rest

def skip (flags : Flags) (text : List Char) : List Char :=
  if flags.spaced then skipFrom false text else text

inductive Atom where
  | literal (c : Char) (isByte : Bool)
  | shorthand (negated : Bool)
  | property
  | anchor
  | wordBoundary
  deriving DecidableEq, Repr

def hexDigits? (flags : Flags) (value : Nat) : Nat → List Char → Option (Nat × List Char)
  | 0, text => some (value, skip flags text)
  | left + 1, text =>
      match skip flags text with
      | [] => none
      | c :: rest =>
          match Numeral.digit? 16 c with
          | some digit => hexDigits? flags (value * 16 + digit) left rest
          | none => none

def character? (code : Nat) : Option Char :=
  if code < 0xD800 ∨ (0xE000 ≤ code ∧ code < 0x110000) then some (Char.ofNat code) else none

def hexEscape? (flags : Flags) (digits : Nat) (text : List Char) : Option (Atom × List Char) :=
  match hexDigits? flags 0 digits text with
  | none => none
  | some (code, rest) => (character? code).map fun c => (.literal c (digits == 2), rest)

def controlEscape? (c : Char) : Option Char :=
  match c with
  | 'a' => some '\x07'
  | 'f' => some '\x0c'
  | 'n' => some '\n'
  | 'r' => some '\r'
  | 't' => some '\t'
  | 'v' => some '\x0b'
  | _ => none

def isEscapable (c : Char) : Bool :=
  c.toNat < 0x80 && !Alphanumeric.isAlphanumeric c && c != '<' && c != '>'

def shortEscape? (c : Char) : Option Atom :=
  match controlEscape? c with
  | some control => some (.literal control false)
  | none =>
      if ['d', 's', 'w'].contains c then some (.shorthand false)
      else if ['D', 'S', 'W'].contains c then some (.shorthand true)
      else if ['p', 'P'].contains c then some .property
      else if ['A', 'z'].contains c then some .anchor
      else if ['b', 'B', '<', '>'].contains c then some .wordBoundary
      else if isEscapable c then some (.literal c false)
      else none

def escape? (flags : Flags) : List Char → Option (Atom × List Char)
  | [] => none
  | c :: rest =>
      if c = 'x' then hexEscape? flags 2 rest
      else if c = 'u' then hexEscape? flags 4 rest
      else if c = 'U' then hexEscape? flags 8 rest
      else (shortEscape? c).map fun atom => (atom, rest)

def nestingLimit : Nat := 250

-- Nesting of a list of parts: two parts or more are a level of their own.
def nesting (parts : List Nat) : Nat :=
  let deepest := parts.foldl max 0
  if parts.length ≥ 2 then deepest + 1 else deepest

/-! Sets of characters in brackets -/

def admitsInSet (flags : Flags) : Atom → Bool
  | .literal c _ => if flags.unicode then !flags.ignoresCase else c.toNat < 0x80
  | .shorthand negated => !flags.unicode && !negated
  | _ => false

-- A set may hold a named class. Without characters, what is not in the class is unknown.
def admitsClass (flags : Flags) (negated : Bool) : Bool :=
  if flags.unicode then !flags.ignoresCase else !negated

def classNames : List String :=
  ["alnum", "alpha", "ascii", "blank", "cntrl", "digit", "graph", "lower", "print", "punct", "space",
    "upper", "word", "xdigit"]

def namedClass? : List Char → Option (Bool × List Char)
  | ':' :: rest =>
      let name := rest.dropWhile (· = '^')
      let hats := rest.takeWhile (· = '^')
      match name.dropWhile (· ≠ ':') with
      | ':' :: ']' :: after =>
          if hats.length ≤ 1 && classNames.contains (String.ofList (name.takeWhile (· ≠ ':'))) then
            some (!hats.isEmpty, after)
          else none
      | _ => none
  | _ => none

def behindDash (flags : Flags) (text : List Char) : Option Char :=
  if flags.spaced then
    match text.dropWhile Blank.isBlank with
    | '#' :: comment => (comment.dropWhile Blank.isBlank).head?
    | rest => rest.head?
  else text.head?

def setAtom? (flags : Flags) : List Char → Option (Atom × List Char)
  | [] => none
  | c :: rest => if c = '\\' then escape? flags rest else some (.literal c false, rest)

def rangeRest? (flags : Flags) (first : Atom) (text : List Char) : Option (List Char) :=
  match first, setAtom? flags (skip flags text) with
  | .literal low _, some (.literal high isByte, rest) =>
      if low.toNat ≤ high.toNat && admitsInSet flags first && admitsInSet flags (.literal high isByte) then
        some rest
      else none
  | _, _ => none

def setItemRest? (flags : Flags) (text : List Char) : Option (List Char) :=
  match setAtom? flags text with
  | none => none
  | some (atom, rest) =>
      let single := if admitsInSet flags atom then some (skip flags rest) else none
      match skip flags rest with
      | '-' :: more =>
          if [some ']', some '-'].contains (behindDash flags more) then single
          else rangeRest? flags atom more
      | _ => single

def isOperator (c : Char) (rest : List Char) : Bool :=
  ['&', '-', '~'].contains c && rest.head? == some c

def setNesting (left : Option Nat) (items : List Nat) : Nat :=
  match left with
  | none => nesting items
  | some depth => max depth (nesting items) + 1

def openedSet (flags : Flags) (text : List Char) : Bool × List Char :=
  match skip flags text with
  | '^' :: items => (true, items)
  | items => (false, items)

-- Nesting of a set, and the text behind its bracket. At its start (`isStart`) dashes and a first
-- closing bracket are items. A unit of `fuel` for each character and one more are enough.
def set? (flags : Flags) : Nat → Bool → Option Nat → List Nat → List Char → Option (Nat × List Char)
  | 0, _, _, _, _ => none
  | fuel + 1, isStart, left, items, text =>
      match skip flags text with
      | [] => none
      | c :: rest =>
          if isStart && (c == '-' || (c == ']' && items.isEmpty)) then
            if admitsInSet flags (.literal c false) then set? flags fuel (c == '-') left (0 :: items) rest
            else none
          else if c = ']' then some (setNesting left items, rest)
          else if c = '[' then
            match namedClass? rest with
            | some (negated, after) =>
                if admitsClass flags negated then set? flags fuel false left (0 :: items) after else none
            | none =>
                let (negated, inside) := openedSet flags rest
                if negated && !flags.unicode then none
                else
                  match set? flags fuel true none [] inside with
                  | some (depth, after) => set? flags fuel false left ((depth + 1) :: items) after
                  | none => none
          else if isOperator c rest then
            set? flags fuel false (some (setNesting left items)) [] (rest.drop 1)
          else
            match setItemRest? flags (c :: rest) with
            | some after => set? flags fuel false left (0 :: items) after
            | none => none

def bracketed? (flags : Flags) (text : List Char) : Option (Nat × List Char) :=
  let (negated, inside) := openedSet flags text
  if negated && !flags.unicode then none
  else (set? flags (inside.length + 1) true none [] inside).map fun (depth, after) => (depth + 1, after)

/-! Groups -/

inductive Opening where
  | flags (letters : List Char)
  | group (letters : List Char) (name : Option (List Char))
  deriving DecidableEq, Repr

def flagLetters? (found : List Char) : List Char → Option (List Char × List Char)
  | [] => none
  | c :: rest =>
      if c = ':' ∨ c = ')' then
        if found.getLast? = some '-' then none else some (found, c :: rest)
      else if ['-', 'i', 'm', 's', 'U', 'u', 'R', 'x'].contains c && !found.contains c then
        flagLetters? (found ++ [c]) rest
      else none

def flagged? (text : List Char) : Option (Opening × List Char) :=
  match flagLetters? [] text with
  | some (letters, ':' :: after) => some (.group letters none, after)
  | some (letters, _ :: after) => if letters.isEmpty then none else some (.flags letters, after)
  | _ => none

def isName (name : List Char) : Bool :=
  (match name with
    | [] => false
    | first :: _ => first == '_' || Alphanumeric.isAlphabetic first) &&
    name.all fun c => ['_', '.', '[', ']'].contains c || Alphanumeric.isAlphanumeric c

def named? (text : List Char) : Option (Opening × List Char) :=
  let name := text.takeWhile (· ≠ '>')
  match text.dropWhile (· ≠ '>') with
  | _ :: after => if isName name then some (.group [] (some name), after) else none
  | [] => none

def opening? (flags : Flags) (text : List Char) : Option (Opening × List Char) :=
  match skip flags text with
  | '?' :: 'P' :: '<' :: rest => named? rest
  | '?' :: '<' :: rest => named? rest
  | '?' :: rest => flagged? rest
  | rest => some (.group [] none, rest)

/-! Patterns -/

def admits (flags : Flags) : Atom → Bool
  | .literal c isByte => if flags.unicode then !flags.ignoresCase else !(isByte && 0x80 ≤ c.toNat)
  | .shorthand negated => !flags.unicode && !negated
  | .property => false
  | .anchor => true
  | .wordBoundary => !flags.unicode

def atomRest? (flags : Flags) (c : Char) (rest : List Char) : Option (List Char) :=
  if c = '\x7b' then none
  else if c = '.' then if flags.unicode then some rest else none
  else if c = '^' ∨ c = '$' then some rest
  else if c = '\\' then
    match escape? flags rest with
    | some (atom, after) => if admits flags atom then some after else none
    | none => none
  else if admits flags (.literal c false) then some rest
  else none

structure Part where
  depth : Nat
  isRepeatable : Bool
  deriving DecidableEq, Repr

def repeated? : List Part → Option (List Part)
  | part :: others => if part.isRepeatable then some (⟨part.depth + 1, true⟩ :: others) else none
  | [] => none

def partsNesting (parts : List Part) : Nat := nesting (parts.map Part.depth)

-- What is read of a group or of the whole pattern: its nesting, the names of groups so far, and the
-- text that is left.
structure Body where
  depth : Nat
  names : List (List Char)
  rest : List Char

-- Reads alternatives up to a closing parenthesis or the end of the text; the nesting of those before
-- and the parts of this one are known. A unit of `fuel` for each character and one more are enough.
def body? : Nat → Flags → List (List Char) → List Nat → List Part → List Char → Option Body
  | 0, _, _, _, _, _ => none
  | fuel + 1, flags, names, before, parts, text =>
      match skip flags text with
      | [] => some ⟨nesting (partsNesting parts :: before), names, []⟩
      | c :: rest =>
          if c = ')' then some ⟨nesting (partsNesting parts :: before), names, c :: rest⟩
          else if c = '|' then body? fuel flags names (partsNesting parts :: before) [] rest
          else if c = '(' then
            match opening? flags rest with
            | none => none
            | some (.flags letters, after) =>
                body? fuel (flags.apply letters) names before (⟨0, false⟩ :: parts) after
            | some (.group letters name, after) =>
                if name.any fun name => names.contains name then none
                else
                  match body? fuel (flags.apply letters) (name.toList ++ names) [] [] after with
                  | some ⟨depth, names, _ :: after⟩ =>
                      body? fuel flags names before (⟨depth + 1, true⟩ :: parts) after
                  | _ => none
          else if ['?', '*', '+'].contains c then
            match repeated? parts with
            | some parts =>
                body? fuel flags names before parts (if rest.head? = some '?' then rest.drop 1 else rest)
            | none => none
          else if c = '[' then
            match bracketed? flags rest with
            | some (depth, after) => body? fuel flags names before (⟨depth, true⟩ :: parts) after
            | none => none
          else
            match atomRest? flags c rest with
            | some after => body? fuel flags names before (⟨0, true⟩ :: parts) after
            | none => none

def isPattern (text : List Char) : Bool :=
  match body? (text.length + 1) .initial [] [] [] text with
  | some ⟨depth, _, []⟩ => depth ≤ nestingLimit
  | _ => false

end Devnet.Log.Pattern
