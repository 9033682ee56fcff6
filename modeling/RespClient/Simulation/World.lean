import RespClient.Cluster.Router
import RespClient.Connection
import RespClient.Sentinel.Resolver
import RespClient.Simulation.Node

namespace RespClient.Simulation

abbrev ConnId := Nat

/-- Who works with a connection: somebody outside, a router or a resolver. -/
inductive Owner where
  | caller
  | router (k : Nat)
  | resolver (k : Nat)
  deriving DecidableEq

structure Ticket where
  owner : Owner
  claim : Nat
  deriving DecidableEq

/-- Who is told of a connection's events. -/
inductive Handler where
  | nobody
  | named (tag : String)
  | router (k : Nat)
  | resolver (k : Nat)

structure Handlers where
  failure : Handler := .nobody
  finish : Handler := .nobody
  message : Handler := .nobody

/-- A connection with both of its ends. -/
structure Link where
  id : ConnId
  owner : Owner
  address : String
  nulls : NullFraming
  /-- The node's number for it. -/
  number : Nat
  machine : Connection Ticket := {}
  handlers : Handlers := {}
  /-- What is on its way to the client, and when it is there. -/
  inbound : List (Nat × Arrival) := []
  /-- When the node's end is given up. -/
  nodeEnds : Option Nat := none
  /-- The node answers requests one after the other; it is free again at this time. -/
  busyUntil : Nat := 0
  requests : Reply.Decoder := {}
  received : Bytes := []

def Link.nodeOpen (l : Link) (now : Nat) : Bool := l.nodeEnds.all fun t => now < t

/-- Both ends are open. -/
def Link.isOpen (l : Link) (now : Nat) : Bool := !l.machine.ended && l.nodeOpen now

/-- Who is told of a router's news. -/
inductive Observer where
  | nobody
  | session
  | shell
  deriving DecidableEq

structure RouterSlot where
  router : Cluster.Router
  observer : Observer := .nobody
  /-- A client holds it. -/
  held : Bool := true

structure ResolverSlot where
  resolver : Sentinel.Resolver
  observer : Observer := .nobody
  held : Bool := true

/-- A connection attempt to a node that never answers. -/
structure Attempt where
  owner : Owner
  task : Nat
  address : String
  timeoutMs : Nat
  deadline : Nat

/-- What somebody outside may wait for: a reply, a connection, or the end of a task. -/
inductive Await where
  | reply (claim : Nat)
  | connection (attempt : Nat)
  | task (owner : Owner) (id : Nat)
  deriving DecidableEq

inductive Yield where
  | outcome (o : Outcome)
  | connected (r : Except ClientError ConnId)
  | finished (r : Except ClientError Unit)
  | found (r : Except ClientError String)

/-- What observers see. -/
inductive Happening where
  | failed (e : ClientError)
  | ended
  | message (r : Reply)
  | failover

inductive Level where
  | info
  | warn
  | error
  | prompt
  deriving DecidableEq

def Level.name : Level → String
  | info => "INFO"
  | warn => "WARN"
  | error => "ERROR"
  | prompt => "PROMPT"

/-- A unit of work that may be able to act: the client's end of a connection, or a task with all that
works for it. -/
inductive Runner where
  | link (c : ConnId)
  | router (k root : Nat)
  | resolver (k root : Nat)
  deriving DecidableEq, Hashable

/-- Scripted nodes, connections between them and the clients, routers and resolvers, and a clock that stands
still while anything can act. -/
structure World where
  now : Nat := 0
  nodes : List Node := []
  links : List Link := []
  routers : List RouterSlot := []
  resolvers : List ResolverSlot := []
  attempts : List Attempt := []
  /-- Tasks of routers that rest, and until when. -/
  rests : List (Nat × Cluster.TaskId × Nat) := []
  /-- Connections that somebody outside holds, once for each hold. -/
  handles : List ConnId := []
  yields : List (Await × Yield) := []
  log : List (Level × String) := []
  events : List (String × Happening) := []
  /-- Runners in the order they became able to act. -/
  queue : List Runner := []
  /-- The next claim or attempt of somebody outside. -/
  next : Nat := 0
  /-- State of the source of choices. -/
  seed : UInt64 := 1

/-- A router lives while a client or one of its own tasks holds it. -/
def RouterSlot.alive (s : RouterSlot) : Bool := s.held || !s.router.tasks.isEmpty

def ResolverSlot.alive (s : ResolverSlot) : Bool := s.held || !s.resolver.tasks.isEmpty

namespace World

def say (w : World) (level : Level) (text : String) : World :=
  { w with log := w.log ++ [(level, text)] }

def report (w : World) (source : String) (h : Happening) : World :=
  { w with events := w.events ++ [(source, h)] }

def yield (w : World) (a : Await) (y : Yield) : World := { w with yields := w.yields ++ [(a, y)] }

def acquire (w : World) (c : ConnId) : World := { w with handles := c :: w.handles }

def release (w : World) (c : ConnId) : World := { w with handles := w.handles.erase c }

/-- A choice, different each time. -/
def draw (w : World) : Nat × World :=
  let seed := w.seed * 6364136223846793005 + 1442695040888963407
  ((seed >>> 33).toNat, { w with seed := seed })

def link? (w : World) (c : ConnId) : Option Link := w.links[c]?

def setLink (w : World) (l : Link) : World := { w with links := w.links.set l.id l }

def setRouter (w : World) (k : Nat) (r : Cluster.Router) : World :=
  { w with routers := w.routers.modify k fun slot => { slot with router := r } }

def setResolver (w : World) (k : Nat) (r : Sentinel.Resolver) : World :=
  { w with resolvers := w.resolvers.modify k fun slot => { slot with resolver := r } }

/-- Somebody holds the connection. -/
def isHeld (w : World) (c : ConnId) : Bool :=
  w.handles.contains c ||
    w.routers.any (fun s => RouterSlot.alive s && s.router.holds.contains c) ||
    w.resolvers.any (fun s => ResolverSlot.alive s && s.resolver.holds.contains c)

end World

end RespClient.Simulation
