import RespClient.Shell.Target

namespace RespClient.Simulation

inductive BurstOp where
  | send (command : Command)
  /-- Submit, and stop waiting. -/
  | abandon (command : Command)
  | request (r : Request Ticket)
  /-- Give up the named handle. -/
  | drop

/-- Steps on a connection that has a name. -/
inductive LinkStep where
  | send (command : Command)
  | pipeline (commands : List Command)
  | burst (ops : List BurstOp)
  | request (r : Request Ticket)
  | handlers (tag : String)
  | status
  | describe

/-- Steps on the node of an address. -/
inductive NodeStep where
  | push (chunks : List Bytes)
  | hangUp (ending : Ending)
  | mode (mode : Mode)
  | rules (rules : List Rule)
  /-- The requests it had, but for those with some names. -/
  | log (skip : List Bytes)
  | openConnections

inductive ClusterStep where
  | opening (settings : ClusterSettings)
  | send (command : Command)
  | sendTimes (command : Command) (times : Nat)
  | pipeline (commands : List Command)
  | refresh
  | table
  | nodes
  | describe
  | close
  | drop

inductive SentinelStep where
  | make (settings : SentinelSettings) (observed : Bool)
  | resolve (master : String) (role : Role)
  | resolveTimes (master : String) (role : Role) (times : Nat)
  | opening (name master : String) (role : Role) (observed : Bool)
  /-- Open what the settings name. -/
  | connect (name : String) (observed : Bool)
  | openTwice (master : String) (role : Role)
  | endpoints
  | describe
  | close
  | drop

inductive ShellStep where
  | opening (settings : Shell.Settings)
  | run (line : String)
  | describe
  | close

inductive Step where
  | connect (name address : String) (settings : ConnectionSettings) (observed : Bool)
  | drop (name : String)
  | link (name : String) (s : LinkStep)
  | node (address : String) (s : NodeStep)
  /-- How many requests with a name all nodes had. -/
  | count (word : Bytes)
  | sleep (ms : Nat)
  | cluster (s : ClusterStep)
  | sentinel (s : SentinelStep)
  | shell (s : ShellStep)

/-- What a step comes to. -/
inductive Answer where
  | nothing
  | ok
  | flag (b : Bool)
  | count (n : Nat)
  | text (s : String)
  | texts (ss : List String)
  | address (a : String)
  | nodes (addresses : List String)
  | outcome (o : Outcome)
  | failed (e : ClientError)
  | shellFailed (f : Shell.Failure)
  | target (description : String)
  | output (text : String)
  | status (address : String) (closed : Bool)
  | table (t : Cluster.SlotTable)
  | log (entries : List (Nat × Asked))
  | pending (n : Nat)
  | several (answers : List Answer)
  /-- Only the different ones count. -/
  | distinct (answers : List Answer)

end RespClient.Simulation
