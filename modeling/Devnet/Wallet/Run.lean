import Devnet.Log.Event
import Devnet.Text.Utf8
import Devnet.Wallet.Command

set_option autoImplicit false

namespace Devnet

inductive SpawnFailure where
  | nulByte
  | notFound
  | permissionDenied
  | notADirectory
  | nameTooLong
  | argumentsTooLong
  deriving DecidableEq, Repr

def SpawnFailure.message : SpawnFailure → String
  | .nulByte => "nul byte found in provided data"
  | .notFound => "No such file or directory (os error 2)"
  | .permissionDenied => "Permission denied (os error 13)"
  | .notADirectory => "Not a directory (os error 20)"
  | .nameTooLong => "File name too long (os error 36)"
  | .argumentsTooLong => "Argument list too long (os error 7)"

structure Exit where
  status : Nat
  stdout : Bytes
  stderr : Bytes
  deriving DecidableEq, Repr

abbrev Machine := Command → Except SpawnFailure Exit

structure SpawnError where
  program : String
  reason : SpawnFailure
  deriving DecidableEq, Repr

def SpawnError.message (e : SpawnError) : String := s!"failed to spawn `{e.program}`: {e.reason.message}"

structure WalletOutput where
  status : Nat
  stdout : String
  stderr : String
  deriving DecidableEq, Repr

def WalletOutput.success (output : WalletOutput) : Bool := output.status == 0

def statusText (status : Nat) : String := "exit status: " ++ Numeral.decimal status

namespace Command

def logTarget : String := "devnet_utils::wallet"

def spawning (command : Command) : Log.Event :=
  ⟨.debug, logTarget, "Spawning wallet.", [⟨"program", command.program⟩]⟩

def exited (status : Nat) : Log.Event :=
  ⟨.trace, logTarget, "Wallet exited.", [⟨"status", statusText status⟩]⟩

-- Texts with a NUL cannot be handed to a program.
def hasNul (command : Command) : Bool :=
  (command.program :: command.arguments).any fun text => text.toList.contains '\x00'

def spawn (command : Command) (machine : Machine) : Except SpawnFailure Exit :=
  if command.hasNul then .error .nulByte else machine command

-- Runs the command. A status other than zero is no error.
def run (command : Command) (machine : Machine) : Except SpawnError WalletOutput × List Log.Event :=
  match command.spawn machine with
  | .error reason => (.error ⟨command.program, reason⟩, [command.spawning])
  | .ok exit =>
      (.ok ⟨exit.status, Utf8.decodeLossy exit.stdout, Utf8.decodeLossy exit.stderr⟩,
        [command.spawning, exited exit.status])

section Run

variable (command : Command) (machine : Machine)

theorem run_of_failure (reason : SpawnFailure) (failed : command.spawn machine = .error reason) :
    command.run machine = (.error ⟨command.program, reason⟩, [command.spawning]) := by
  rw [run, failed]

theorem run_of_exit (exit : Exit) (ended : command.spawn machine = .ok exit) :
    command.run machine =
      (.ok ⟨exit.status, Utf8.decodeLossy exit.stdout, Utf8.decodeLossy exit.stderr⟩,
        [command.spawning, exited exit.status]) := by
  rw [run, ended]

end Run
end Command
end Devnet
