import RespClient.Shell.Target

namespace RespClient.Shell

open Simulation (World)

/-- How the shell came to its end. -/
inductive Exit where
  | done
  | usage (e : UsageError)
  /-- It did not get as far as running anything. -/
  | stopped (f : Failure)
  /-- The command of the command line failed. -/
  | commandFailed
  /-- A reply is awaited that never comes. -/
  | waiting

def Exit.code : Exit → Nat
  | done | usage .displayHelp | waiting => 0
  | stopped _ | commandFailed => 1
  | usage _ => 2

def helpText : String :=
  "\n".intercalate [
    "Ferrule CLI - Usage",
    "",
    "Commands:",
    "  Any server command is sent as typed, e.g.",
    "  SET key value              Set key to hold string value",
    "  GET key                    Get the value of key",
    "  CLUSTER SLOTS              Show the slot map (cluster mode)",
    "",
    "Quoting:",
    "  Arguments separated by whitespace; \"double\" or 'single' quotes group words.",
    "  The first argument is the routing key unless the command takes none.",
    "",
    "Local Commands:",
    "  HELP                       Show this help message",
    "  QUIT                       Exit the CLI",
    ""]

/-- What a line asks of the shell itself. -/
inductive LocalCommand where
  | leave
  | help

def LocalCommand.ofName? (name : String) : Option LocalCommand :=
  match Text.upper name with
  | "QUIT" | "EXIT" => some .leave
  | "HELP" => some .help
  | _ => none

/-- The message for a command that failed; the outermost cause is named once more. -/
def failureLine (f : Failure) : String :=
  "Error: " ++ f.message ++ " error=" ++ f.headD ""

/-- Send a command and wait for what it shows; none if nothing ever comes back. What else can act does so
before the shell goes on. -/
def execute (w : World) (t : Target) (command : Command) : World × Option (Except Failure String) :=
  let (held, a, w) := t.send w command
  let (w, y) := w.waitFor a
  let w := w.runFor 0 fun _ => false
  let w := held.toList.foldl World.release w
  match y with
  | some (.outcome o) => (w, some (display? false o))
  | _ => (w, none)

/-- Run the command of the command line, after which the target is closed. -/
def runCommand (w : World) (t : Target) (words : List String) : World × Exit :=
  match command? words with
  | none => (t.close w, .done)
  | some command =>
    let (w, shown) := execute w t command
    let w := t.close w
    match shown with
    | some (.ok text) => (w.say .info text, .done)
    | some (.error f) => (w.say .error (failureLine f), .commandFailed)
    | none => (w, .waiting)

def greet (w : World) (t : Target) : World :=
  ((w.say .info "Ferrule CLI v0.4.0").say .info ("Connected to " ++ t.describe w)).say .info
    "Type HELP for available commands\n"

def prompt (w : World) (t : Target) : World := w.say .prompt ("ferrule " ++ t.describe w ++ ">")

def leave (w : World) (t : Target) : World × Exit := (t.close (w.say .info "Goodbye!"), .done)

/-- Take up a typed line; there is no exit while the shell goes on. -/
def takeLine (w : World) (t : Target) (line : String) : World × Option Exit :=
  match tokens? line with
  | none => (w.say .error "Error: Unterminated quote", none)
  | some [] => (w, none)
  | some (name :: rest) =>
    match LocalCommand.ofName? name with
    | some .leave => let (w, e) := leave w t; (w, some e)
    | some .help => (w.say .info helpText, none)
    | none =>
      match command? (name :: rest) with
      | none => (w, none)
      | some command =>
        match execute w t command with
        | (w, some (.ok text)) => (w.say .info text, none)
        | (w, some (.error f)) => (w.say .error (failureLine f), none)
        | (w, none) => (w, some .waiting)

/-- Take up typed lines, each behind a prompt, until one ends the shell or none is left. -/
def takeLines (w : World) (t : Target) : List String → World × Exit
  | [] => leave (prompt w t) t
  | line :: rest =>
    match takeLine (prompt w t) t line with
    | (w, some e) => (w, e)
    | (w, none) => takeLines w t rest

/-- The settings of a command line. Documents are found by their names. -/
def settings (documents : List (String × Document)) (flags : Flags) : Except Failure Settings :=
  match flags.config with
  | none => .ok (({} : Settings).apply flags)
  | some name =>
    match documents.find? fun d => d.1 == name with
    | none =>
      .error ["Failed to read config file " ++ name, "No such file or directory (os error 2)"]
    | some (_, d) =>
      match Settings.read d with
      | none => .error ["Failed to parse config file " ++ name]
      | some s => .ok (s.apply flags)

/-- Open the target of the settings and wait until it is open. -/
def openTarget (w : World) (s : Settings) : World × Except Exit Target :=
  match Target.start w s with
  | (w, .error f) => (w, .error (.stopped f))
  | (w, .ok (opening, a)) =>
    match w.waitFor a with
    | (w, none) => (w, .error .waiting)
    | (w, some y) =>
      match Target.conclude w opening y with
      | (w, .error f) => (w, .error (.stopped f))
      | (w, .ok t) => (w, .ok t)

/-- Everything up to the first prompt: the target, unless the shell has ended by then. -/
def start (w : World) (documents : List (String × Document)) (args : List String) :
    World × Except Exit Target :=
  match Flags.ofArgs args with
  | .error e => (w, .error (.usage e))
  | .ok flags =>
    match settings documents flags with
    | .error f => (w, .error (.stopped f))
    | .ok s =>
      match openTarget w s with
      | (w, .error e) => (w, .error e)
      | (w, .ok t) =>
        if flags.command.isEmpty then (greet w t, .ok t)
        else
          let (w, e) := runCommand w t flags.command
          (w, .error e)

/-- The shell from its command line to its end, with all of its input. -/
def run (w : World) (documents : List (String × Document)) (args : List String) (input : String) :
    World × Exit :=
  match start w documents args with
  | (w, .error e) => (w, e)
  | (w, .ok t) => takeLines w t (Text.lines input)

end RespClient.Shell
