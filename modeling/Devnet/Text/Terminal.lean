import Devnet.Text.Utf8

/-
Texts as they show where nothing controls a terminal: control sequences are left out, and of the
control characters only white space stays.
-/
set_option autoImplicit false

namespace Devnet.Terminal

inductive Mode where
  | text
  -- Behind an escape character, or the intermediate characters that follow it.
  | escape
  | intermediate
  | parameters
  -- In the text of a command, which a bell ends.
  | command
  -- In any other text that is no output.
  | string
  deriving DecidableEq, Repr

def isWhite (c : Char) : Bool := ['\t', '\n', '\x0c', '\r'].contains c

def afterEscape (c : Char) : Mode :=
  if c = '[' then .parameters
  else if c = ']' then .command
  else if ['P', 'X', '^', '_'].contains c then .string
  else if c.toNat ≤ 0x2F then .intermediate
  else .text

def endsString (c : Char) : Bool := (Utf8.encodeChar c).contains 0x9C

def step (mode : Mode) (c : Char) : Mode × Bool :=
  if c = '\x1b' then (.escape, false)
  else if c = '\x18' ∨ c = '\x1a' then (.text, false)
  else
    match mode with
    | .command => (if c = '\x07' then .text else .command, false)
    | .string => (if endsString c then .text else .string, false)
    | mode =>
        if isWhite c then (.text, true)
        else if c.toNat < 0x20 ∨ c = '\x7f' then (mode, false)
        else if mode = .text then (.text, true)
        else if c.toNat > 0x7F then (mode, false)
        else if mode = .escape then (afterEscape c, false)
        else if mode = .intermediate then (if c.toNat ≤ 0x2F then .intermediate else .text, false)
        else (if c.toNat ≤ 0x3F then .parameters else .text, false)

def shown (mode : Mode) : List Char → List Char
  | [] => []
  | c :: rest =>
      let (mode, shows) := step mode c
      if shows then c :: shown mode rest else shown mode rest

def plain (text : String) : String := String.ofList (shown .text text.toList)

end Devnet.Terminal
