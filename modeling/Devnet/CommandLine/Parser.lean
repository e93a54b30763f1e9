import Devnet.CommandLine.Interface

/-
Parsing command lines. An option that takes values stays open for the words after it and is
entered into the matches when the next option or the end is reached. Environment variables stand
in for options that are not given. Last come conflicts and requirements.
-/
set_option autoImplicit false

namespace Devnet.CommandLine

structure Match (ι : Type) where
  option : ι
  values : List String
  uses : Nat

-- Options in the order in which they were first given; one that counts moves to the end.
abbrev Matches (ι : Type) := List (Match ι)

def countLimit : Nat := 255

variable {ι : Type} [DecidableEq ι]

namespace Matches

def find? (found : Matches ι) (option : ι) : Option (Match ι) :=
  List.find? (fun entry => entry.option = option) found

def given (found : Matches ι) (option : ι) : Bool := (found.find? option).isSome

def without (found : Matches ι) (option : ι) : Matches ι :=
  List.filter (fun entry => entry.option ≠ option) found

def value? (found : Matches ι) (option : ι) : Option String :=
  (found.find? option).bind fun entry => entry.values.head?

def values? (found : Matches ι) (option : ι) : Option (List String) :=
  (found.find? option).map fun entry => entry.values

def uses (found : Matches ι) (option : ι) : Nat :=
  match found.find? option with
  | some entry => entry.uses
  | none => 0

def append (found : Matches ι) (option : ι) (values : List String) : Matches ι :=
  if found.given option then
    found.map fun entry =>
      if entry.option = option then { entry with values := entry.values ++ values } else entry
  else found ++ [⟨option, values, 1⟩]

end Matches

structure Pending (ι : Type) where
  option : ι
  values : List String

namespace Interface

def checkValues (interface : Interface ι) (option : ι) : List String → Except Stop Unit
  | [] => .ok ()
  | value :: rest =>
      match (interface.spec option).check value with
      | .ok _ => checkValues interface option rest
      | .error .notAChoice => .error (.rejected (.notAChoice (interface.display option) value))
      | .error (.malformed reason) =>
          .error (.rejected (.malformedValue (interface.display option) value reason))

def enter (interface : Interface ι) (found : Matches ι) (option : ι) (values : List String) :
    Except Stop (Matches ι) :=
  match (interface.spec option).arity with
  | .help => .error .help
  | .version => .error .version
  | .flag =>
      if found.given option then .error (.rejected (.repeated (interface.display option)))
      else .ok (found ++ [⟨option, [], 1⟩])
  | .count => .ok (found.without option ++ [⟨option, [], min countLimit (found.uses option + 1)⟩])
  | .one =>
      if values.isEmpty then .error (.rejected (.missingValue (interface.display option)))
      else if found.given option then .error (.rejected (.repeated (interface.display option)))
      else (interface.checkValues option values).map fun _ => found ++ [⟨option, values, 1⟩]
  | .many => (interface.checkValues option values).map fun _ => found.append option values

def settle (interface : Interface ι) (found : Matches ι) :
    Option (Pending ι) → Except Stop (Matches ι)
  | none => .ok found
  | some pending => interface.enter found pending.option pending.values

def enterLetters (interface : Interface ι) (found : Matches ι) : List Char → Except Stop (Matches ι)
  | [] => .ok found
  | c :: rest =>
      match interface.short? c with
      | none => .error (.rejected (.unexpectedArgument (String.ofList ['-', c])))
      | some option =>
          match interface.enter found option [] with
          | .ok found => enterLetters interface found rest
          | .error stop => .error stop

inductive Word where
  | terminator
  | long (name : String) (value : Option String)
  | letters (chars : List Char)
  | plain (text : String)
  deriving DecidableEq, Repr

def Word.ofText (text : String) : Word :=
  match text.toList with
  | ['-', '-'] => .terminator
  | '-' :: '-' :: rest =>
      .long (String.ofList (rest.takeWhile (· ≠ '=')))
        (if rest.contains '=' then some (String.ofList ((rest.dropWhile (· ≠ '=')).drop 1)) else none)
  | '-' :: c :: rest => .letters (c :: rest)
  | _ => .plain text

def readLetters (interface : Interface ι) (found : Matches ι) (pending : Option (Pending ι))
    (chars : List Char) : Except Stop (Matches ι) :=
  match chars with
  | [] => .ok found
  | c :: _ =>
      match interface.short? c with
      | none => .error (.rejected (.unexpectedArgument (String.ofList ['-', c])))
      | some _ =>
          match interface.settle found pending with
          | .ok found => interface.enterLetters found chars
          | .error stop => .error stop

def readLong (interface : Interface ι) (found : Matches ι) (pending : Option (Pending ι))
    (name : String) (value : Option String) : Except Stop (Matches ι × Option (Pending ι)) :=
  match interface.long? name with
  | none => .error (.rejected (.unexpectedArgument ("--" ++ name)))
  | some option =>
      if (interface.spec option).takesValue then
        match interface.settle found pending with
        | .error stop => .error stop
        | .ok found =>
            match value with
            | none => .ok (found, some ⟨option, []⟩)
            | some value => (interface.enter found option [value]).map fun found => (found, none)
      else
        match value with
        | some value => .error (.rejected (.unexpectedValue (interface.display option) value))
        | none =>
            match interface.settle found pending with
            | .error stop => .error stop
            | .ok found => (interface.enter found option []).map fun found => (found, none)

def takesMore (interface : Interface ι) (pending : Pending ι) : Bool :=
  match (interface.spec pending.option).arity with
  | .one => pending.values.isEmpty
  | .many => true
  | _ => false

def readWords (interface : Interface ι) (found : Matches ι) (pending : Option (Pending ι)) :
    List String → Except Stop (Matches ι)
  | [] => interface.settle found pending
  | text :: rest =>
      match Word.ofText text with
      | .terminator =>
          match rest with
          | [] => interface.settle found pending
          | next :: _ => .error (.rejected (.unexpectedArgument next))
      | .long name value =>
          match interface.readLong found pending name value with
          | .error stop => .error stop
          | .ok (found, pending) => readWords interface found pending rest
      | .letters chars =>
          match interface.readLetters found pending chars with
          | .error stop => .error stop
          | .ok found => readWords interface found none rest
      | .plain text =>
          match pending with
          | none => .error (.rejected (.unexpectedArgument text))
          | some current =>
              if interface.takesMore current then
                readWords interface found (some { current with values := current.values ++ [text] }) rest
              else .error (.rejected (.unexpectedArgument text))

def readEnvironment (interface : Interface ι) (environment : Environment) (found : Matches ι) :
    List ι → Except Stop (Matches ι)
  | [] => .ok found
  | option :: rest =>
      match (interface.spec option).variableName.bind environment with
      | none => readEnvironment interface environment found rest
      | some value =>
          if found.given option then readEnvironment interface environment found rest
          else
            match interface.checkValues option [value] with
            | .error stop => .error stop
            | .ok _ => readEnvironment interface environment (found ++ [⟨option, [value], 1⟩]) rest

def areExclusive (interface : Interface ι) (a b : ι) : Bool :=
  (interface.spec a).excludes.contains b || (interface.spec b).excludes.contains a

def conflict? (interface : Interface ι) (found : Matches ι) : Option (ι × ι) :=
  found.findSome? fun entry =>
    (List.find? (fun other =>
        other.option ≠ entry.option && interface.areExclusive entry.option other.option) found).map
      fun other => (entry.option, other.option)

def isUnmet (found : Matches ι) (requirement : Requirement ι) : Bool :=
  ((found.values? requirement.other).getD []).contains requirement.value &&
    !found.given requirement.option

def checkTogether (interface : Interface ι) (found : Matches ι) : Except Stop (Matches ι) :=
  match interface.conflict? found with
  | some (a, b) => .error (.rejected (.conflict (interface.display a) (interface.display b)))
  | none =>
      if interface.requirements.any (isUnmet found) then .error (.rejected .missingRequired)
      else .ok found

def parse (interface : Interface ι) (environment : Environment) (words : List String) :
    Except Stop (Matches ι) := do
  let found ← interface.readWords [] none words
  let found ← interface.readEnvironment environment found interface.options
  interface.checkTogether found

end Interface
end Devnet.CommandLine
