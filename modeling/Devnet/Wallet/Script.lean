import Devnet.Json.Printer
import Devnet.Wallet.Echo
import Devnet.Wallet.Files
import Devnet.Wallet.Run

set_option autoImplicit false

namespace Devnet

-- What a scripted program does: it may first print its arguments as a JSON array on a line, then
-- writes its bytes a number of times, and exits.
structure Script where
  echoArguments : Bool
  stdout : Bytes
  stderr : Bytes
  times : Nat
  status : Int
  deriving DecidableEq, Repr

namespace Script

def silent : Script := ⟨false, [], [], 1, 0⟩

def exit (script : Script) (arguments : List String) : Exit :=
  let echoed := if script.echoArguments then Utf8.encode (Json.stringArray arguments ++ "\n") else []
  { status := (script.status % 256).toNat
    stdout := echoed ++ (List.replicate script.times script.stdout).flatten
    stderr := (List.replicate script.times script.stderr).flatten }

def names : List String := ["fakewallet", "fakelauncher"]

def systemExit (name : String) (arguments : List String) : Exit :=
  if name = "echo" then ⟨0, Echo.output arguments, []⟩
  else if name = "false" then ⟨1, [], []⟩
  else ⟨0, [], []⟩

def argumentBound : Nat := 131072

def fits (arguments : List String) : Bool := arguments.all fun argument => argument.utf8ByteSize + 1 ≤ argumentBound

def started (command : Command) (exit : Exit) : Except SpawnFailure Exit :=
  if fits command.arguments then .ok exit else .error .argumentsTooLong

-- What a program's name leads to; a name without a slash is looked up among the programs.
def target (script : Script) (command : Command) : Except SpawnFailure Exit :=
  let program := command.program
  if program.toList.contains '/' then
    match Files.target program with
    | .program name => started command (systemExit name command.arguments)
    | .directory => .error .permissionDenied
    | .plain => .error .permissionDenied
    | .missing => .error .notFound
    | .behindFile => .error .notADirectory
    | .tooLong => .error .nameTooLong
  else if program ∈ names then started command (script.exit command.arguments)
  else if program ∈ Files.systemPrograms then started command (systemExit program command.arguments)
  else if program = "." ∨ program = ".." then .error .permissionDenied
  else if program.utf8ByteSize > Files.longestName then .error .nameTooLong
  else .error .notFound

def machine (script : Script) : Machine := script.target

end Script
end Devnet
