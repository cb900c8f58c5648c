import RelayCat.Automaton.Machine
import RelayCat.Cli.Config
import RelayCat.Cobra.Args
import RelayCat.Go.CommandLine
import RelayCat.WinService.Render

/-!
# Services on Windows

On Windows a service is an entry of the Service Control Manager with one text, the command line
of its process. `Install` writes the command into it behind `service run`, and the process that
is started later splits the text and parses it as a command line of its own. What the manager
answers is free, but for one thing: it has at most one service of a name. How `CreateService` puts
the words into one text is a parameter.

`service install` does not check a name that the configuration gives, so a service can be stored
that `service run` refuses to run.
-/

namespace RelayCat.WinService.Windows

open Go Utf8 Automaton Cobra Command Cli CommandLine

/-- A service as the manager keeps it. -/
structure Registration where
  displayName : Bytes
  description : Bytes
  automatic : Bool
  commandLine : List UInt16
  deriving DecidableEq

section Step

variable (quote : Bytes → String) (binaryPath : Bytes → List Bytes → Bytes)

inductive Act where
  | install (i : ℕ) (err : Option Err)
  | delete (name : Bytes)

end Step

section Run

variable (parseDuration : ParseDuration) (sys : Surroundings)

/-- `os.Args` of the process of a service. -/
def argv (r : Registration) : List Bytes := commandLineToArgv (utf16ToString r.commandLine)

end Run

section Parse

variable {parseDuration : ParseDuration} {sys : Surroundings} {cfg : InstallConfig}

end Parse

section Stored

variable {quote : Bytes → String} {binaryPath : Bytes → List Bytes → Bytes}
  {cfg : ℕ → InstallConfig} {s : Manager}

end Stored

section Samples

end Samples

end RelayCat.WinService.Windows
