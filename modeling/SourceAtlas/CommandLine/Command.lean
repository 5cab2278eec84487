import SourceAtlas.CommandLine.Arguments
import SourceAtlas.Config.Load

/-!
# Commands

A command line names one of three commands: `analyze` with a path, `serve` with the address of the
server, and `sweep`.  In front of the command the log level may be set.

`Invocation.parse` reads a command line.  A request for help and a mistake both end the program
before anything is done (`Exit`).
-/

namespace SourceAtlas.CommandLine

/-- Where a server listens, and whether it reloads what it serves. -/
structure Server where
  host : String := "127.0.0.1"
  tcpPort : Int := 4000
  reload : Bool := false
deriving DecidableEq, Repr

/-- A command. -/
inductive Command
  | analyze (path : String)
  | serve (server : Server)
  | sweep
deriving DecidableEq, Repr

/-- What a command line asks for. -/
structure Invocation where
  logLevel : Option String
  command : Command
deriving DecidableEq, Repr

/-- Why a program ends before its command is run. -/
inductive Exit
  | help
  | usage
deriving DecidableEq, Repr

/-- The exit code. -/
def Exit.code : Exit → Nat
  | .help => 0
  | .usage => 2

/-- How the program is used. -/
def usage : String :=
  "usage: source-atlas [-h] [--log-level LEVEL] COMMAND\n\n" ++
    "  analyze PATH                              " ++
      "print the analysis of an archive or a directory\n" ++
    "  serve [--host HOST] [--port PORT] [--reload]\n" ++
    "                                            announce a server\n" ++
    "  sweep                                     remove what is older than the retention\n"

/-! ## The parsers -/

/-- The flags that every parser knows. -/
def helpFlags : List Flag := [⟨"-h", false⟩, ⟨"--help", false⟩]

/-- The flags in front of a command. -/
def globalFlags : List Flag := helpFlags ++ [⟨"--log-level", true⟩]

/-- The flags of `serve`. -/
def serveFlags : List Flag :=
  helpFlags ++ [⟨"--host", true⟩, ⟨"--port", true⟩, ⟨"--reload", false⟩]

/-- Whether a flag asks for help. -/
def asksForHelp (name : String) : Bool :=
  name = "-h" || name = "--help"

/-- What the arguments of a command are read into, and whether one of them has no place. -/
structure Parsed (α : Type) where
  value : α
  hasStray : Bool

/-- Read the arguments of a parser into a value, event by event. -/
def parseWith {α : Type} (flags : List Flag) (words : Words) (step : α → Event → Except Exit α)
    (initial : α) (arguments : List String) : Except Exit (Parsed α) := do
  let reading := Reading.of flags words arguments
  let value ← reading.events.foldlM (fun value event =>
    match event with
    | .flag name none => if asksForHelp name then .error .help else step value event
    | event => step value event) initial
  if reading.mistaken then throw .usage
  return ⟨value, reading.hasStray⟩

/-- Take the path of `analyze`. -/
def analyzeStep (path : Option String) : Event → Except Exit (Option String)
  | .word value => .ok (some value)
  | _ => .ok path

/-- Take a flag of `serve`. -/
def serveStep (server : Server) : Event → Except Exit Server
  | .flag "--host" (some value) => .ok { server with host := value }
  | .flag "--port" (some value) =>
    match readInt value with
    | .ok tcpPort => .ok { server with tcpPort }
    | .error _ => .error .usage
  | .flag "--reload" none => .ok { server with reload := true }
  | _ => .ok server

/-- Read the arguments of a command. -/
def parseCommand (name : String) (arguments : List String) : Except Exit (Parsed Command) :=
  match name with
  | "analyze" => do
    let parsed ← parseWith helpFlags .single analyzeStep none arguments
    match parsed.value with
    | some path => return ⟨.analyze path, parsed.hasStray⟩
    | none => throw .usage
  | "serve" => do
    let parsed ← parseWith serveFlags .none serveStep {} arguments
    return ⟨.serve parsed.value, parsed.hasStray⟩
  | "sweep" => do
    let parsed ← parseWith helpFlags .none (fun (value : Unit) _ => .ok value) () arguments
    return ⟨.sweep, parsed.hasStray⟩
  | _ => throw .usage

/-- What is known of an invocation while it is read. -/
structure Draft where
  logLevel : Option String
  command : Option (Parsed Command)

/-- Take the log level or the command. -/
def globalStep (draft : Draft) : Event → Except Exit Draft
  | .flag "--log-level" (some value) => .ok { draft with logLevel := some value }
  | .command name arguments =>
    (parseCommand name arguments).map fun command => { draft with command := some command }
  | _ => .ok draft

/-- Read a command line. -/
def Invocation.parse (arguments : List String) : Except Exit Invocation := do
  let parsed ← parseWith globalFlags .command globalStep ⟨none, none⟩ arguments
  match parsed.value.command with
  | some command =>
    if parsed.hasStray || command.hasStray then throw .usage
    return ⟨parsed.value.logLevel, command.value⟩
  | none => throw .usage

end SourceAtlas.CommandLine
