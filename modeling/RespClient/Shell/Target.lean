import RespClient.Shell.Layout
import RespClient.Shell.Settings
import RespClient.Shell.Tokens
import RespClient.Simulation.Client

namespace RespClient.Shell

open Simulation (World Await Yield)

/-- Why the shell could not do something: a message, and below it the messages of its causes. -/
abbrev Failure := List String

def Failure.message (f : Failure) : String := ": ".intercalate f

inductive Target where
  | direct (c : Simulation.ConnId)
  | cluster (k : Nat)
  | sentinel (k : Nat) (c : Simulation.ConnId)

/-- An opening under way, with the message for its failure. -/
inductive Opening where
  | direct (context : String)
  | cluster (k : Nat) (context : String)
  | sentinel (k : Nat) (context : String)

def Opening.context : Opening → String
  | direct context | cluster _ context | sentinel _ context => context

namespace Target

/-- Begin to open the target of the settings, unless they are found invalid at once. -/
def start (w : World) (s : Settings) : World × Except Failure (Opening × Await) :=
  match s.mode with
  | .direct =>
    let address := Address.join s.host s.port
    let (a, w) := w.dialFor address s.connection
    (w, .ok (.direct ("Failed to connect to " ++ address), a))
  | .cluster =>
    match s.cluster.validate with
    | .error e => (w, .error ("Failed to open cluster" :: e.chain))
    | .ok () =>
      let (k, a, w) := w.openCluster s.cluster
      (w, .ok (.cluster k "Failed to open cluster", a))
  | .sentinel =>
    match s.sentinel.validate with
    | .error e => (w, .error ("Invalid sentinel configuration" :: e.chain))
    | .ok () =>
      let (k, w) := w.addResolver s.sentinel .shell
      let (a, w) := w.callResolver k (.opening s.sentinel.masterName s.sentinel.role)
      (w, .ok (.sentinel k
        ("Failed to resolve " ++ s.sentinel.role.name ++ " of " ++ s.sentinel.masterName), a))

/-- What an opening came to. A target that could not be opened is given up. -/
def conclude (w : World) (o : Opening) (y : Yield) : World × Except Failure Target :=
  match o, y with
  | .direct _, .connected (.ok c) => (w, .ok (.direct c))
  | .cluster k _, .finished (.ok ()) => (w.observe k .shell, .ok (.cluster k))
  | .sentinel k _, .connected (.ok c) => (w, .ok (.sentinel k c))
  | .direct context, .connected (.error e) => (w, .error (context :: e.chain))
  | .cluster k context, .finished (.error e) => (w.dropRouter k, .error (context :: e.chain))
  | .sentinel k context, .connected (.error e) => (w.dropResolver k, .error (context :: e.chain))
  | o, _ => (w, .error [o.context])

def describe (w : World) : Target → String
  | direct c => w.addressOf c
  | cluster k => "cluster[" ++ toString (w.nodesOf k).length ++ "]"
  | sentinel _ c => w.addressOf c

/-- Send a command; the connection that is held until it is over, if there is one. -/
def send (w : World) (t : Target) (command : Command) : Option Simulation.ConnId × Await × World :=
  match t with
  | direct c | sentinel _ c =>
    let (a, w) := w.sendOn c command
    (some c, a, w)
  | cluster k =>
    let (a, w) := w.callRouter k (.send command)
    (none, a, w)

def close (w : World) : Target → World
  | direct c => w.submit c .close
  | cluster k => w.stepRouter k .close
  | sentinel k c => (w.submit c .close).stepResolver k .close

/-- The target is given up. -/
def drop (w : World) : Target → World
  | direct c => w.release c
  | cluster k => w.dropRouter k
  | sentinel k c => (w.release c).dropResolver k

end Target

/-- What a sent command shows. An error reply is shown, any other failure is the shell's. -/
def display? (colours : Bool) : Outcome → Except Failure String
  | .ok r => .ok (layout colours r)
  | .error e =>
    match e.replyText? with
    | some text => .ok (styled colours .red ("(error) " ++ text))
    | none => .error ("Command failed" :: e.chain)

/-- The command of a typed line. -/
def parseLine (line : String) : Except Failure Command :=
  match tokens? line with
  | none => .error ["Unterminated quote"]
  | some tokens =>
    match command? tokens with
    | none => .error ["Empty command"]
    | some c => .ok c

end RespClient.Shell
