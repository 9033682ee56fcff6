import RespClient.Cluster.Redirect
import RespClient.Cluster.SlotTable
import RespClient.Settings

namespace RespClient.Cluster

abbrev ConnId := Nat

abbrev TaskId := Nat

/-- A claim on the reply to one submitted frame. -/
abbrev Claim := Nat

/-- Reaching a node: the pooled connection, or a new one that is watched, greeted and pooled. -/
inductive DialStage where
  | seek
  | calling
  /-- Open, and nobody learns of its failure yet. -/
  | opened (c : ConnId)
  /-- Failures are watched, the end is not yet. -/
  | guarded (c : ConnId)
  | greet (c : ConnId)
  | greeting (c : ConnId) (reply : Claim)
  | join (c : ConnId)
  /-- Another connection to the node entered the pool first. -/
  | surplus (c winner : ConnId)
  | done (result : Except ClientError ConnId)

/-- Loading the slot table. Only the task at the head of the lock goes beyond `waiting`; `failed` are
the addresses that gave no table. -/
inductive RefreshStage where
  | enter
  | waiting
  | choosing (failed : List String)
  | asking (failed : List String) (address : String) (c : ConnId)
  | awaiting (failed : List String) (address : String) (c : ConnId) (reply : Claim)
  | comparing (table : SlotTable)
  | filling (table : SlotTable) (dials : List (String × TaskId))
  | installing (table : SlotTable)
  | evicting (table : SlotTable)
  | closing (evicted : List ConnId)
  | done (result : Except ClientError Unit)

/-- One command on its way, through redirects and retries. `held` is the connection that the last
attempt used. -/
inductive SendStage where
  | route
  | reaching (held : Option ConnId) (dial : TaskId) (asking : Bool)
  | submit (c : ConnId)
  | submitAsking (c : ConnId)
  | submitAsked (c : ConnId) (asking : Claim)
  | awaitingAsking (c : ConnId) (asking reply : Claim)
  | awaiting (c : ConnId) (reply : Claim)
  | refreshing (c : ConnId) (target : String) (refresh : TaskId)
  | resting (c : ConnId)

/-- A command and its stage: it may be sent again `budget` times, and was `attempt` times. -/
structure Sending where
  command : Command
  frame : Bytes
  budget : Nat
  attempt : Nat := 0
  stage : SendStage := .route

inductive OpeningStage where
  | start
  | seeding (dials : List TaskId)
  | loading (refresh : TaskId)

/-- What a task does. Dials and refreshes work for another task; the others are called from outside,
but for the recovery, which a failed connection starts. -/
inductive Job where
  | dial (address : String) (stage : DialStage)
  | refresh (stage : RefreshStage)
  | send (s : Sending)
  | opening (stage : OpeningStage)
  | reload (refresh : Option TaskId)
  | recovery (refresh : Option TaskId)

/-- Work under way. The `root` is the task that this one works for in the end, itself if it was
called from outside. -/
structure Task where
  id : TaskId
  root : TaskId
  job : Job

/-- What a call comes to. -/
inductive Result where
  | opened (r : Except ClientError Unit)
  | refreshed (r : Except ClientError Unit)
  | sent (o : Outcome)

/-- What the router asks of its surroundings. -/
inductive Action where
  | dial (task : TaskId) (address : String)
  | watchFailure (c : ConnId)
  | watchEnd (c : ConnId)
  | submit (c : ConnId) (claim : Claim) (frame : Bytes)
  | close (c : ConnId)
  | rest (task : TaskId) (ms : Nat)
  | warn (text : String)
  | reportFailure (e : ClientError)
  | reportEnd
  | finish (task : TaskId) (result : Result)

/-- A pool with one connection per node, the installed slot table, and the tasks under way. A task is a stage
machine; one step of it never spans a wait, a lock or more than one submission, so that any order of the
tasks' steps is an order that callers can meet. -/
structure Router where
  settings : ClusterSettings
  pool : List (String × ConnId) := []
  table : SlotTable := .empty
  closed : Bool := false
  /-- Refreshes in the order they asked for the lock; the first one has it. -/
  lock : List TaskId := []
  tasks : List Task := []
  /-- The next task or claim. -/
  next : Nat := 0
  /-- Replies that nobody took up yet. -/
  mail : List (Claim × Outcome) := []
  /-- The connections that were opened, and the address of each. -/
  opened : List (ConnId × String) := []
  /-- Connections that have ended. -/
  down : List ConnId := []

namespace DialStage

def holds : DialStage → List ConnId
  | opened c | guarded c | greet c | greeting c _ | join c => [c]
  | surplus c winner => [c, winner]
  | done (.ok c) => [c]
  | _ => []

end DialStage

namespace RefreshStage

def holds : RefreshStage → List ConnId
  | asking _ _ c | awaiting _ _ c _ => [c]
  | closing cs => cs
  | _ => []

end RefreshStage

namespace SendStage

def holds : SendStage → List ConnId
  | reaching held _ _ => held.toList
  | submit c | submitAsking c | submitAsked c _ | awaitingAsking c _ _ | awaiting c _
  | refreshing c _ _ | resting c => [c]
  | route => []

end SendStage

/-- The connections that a job keeps alive. -/
def Job.holds : Job → List ConnId
  | dial _ stage => stage.holds
  | refresh stage => stage.holds
  | send s => s.stage.holds
  | opening _ | reload _ | recovery _ => []

namespace Router

/-- The address that a connection was opened to. -/
def origin (r : Router) (c : ConnId) : String :=
  ((r.opened.find? fun e => e.1 == c).map (·.2)).getD ""

def isDown (r : Router) (c : ConnId) : Bool := r.down.contains c

def pooled? (r : Router) (address : String) : Option ConnId :=
  (r.pool.find? fun e => e.1 == address).map (·.2)

/-- The pooled connection to a node, if it is alive. -/
def live? (r : Router) (address : String) : Option ConnId :=
  (r.pooled? address).filter fun c => !r.isDown c

/-- The pool with a connection under its address, in place of the one there. -/
def insert (r : Router) (address : String) (c : ConnId) : Router :=
  { r with pool := (r.pool.filter fun e => e.1 != address) ++ [(address, c)] }

/-- The pool loses the connection to a node if it has ended. -/
def forget (r : Router) (address : String) : Router :=
  match r.pooled? address with
  | some c =>
    if r.isDown c then { r with pool := r.pool.filter fun e => e.1 != address } else r
  | none => r

/-- The live connections of the pool, but for those at some addresses. -/
def candidates (r : Router) (excluded : List String) : List (String × ConnId) :=
  r.pool.filter fun e => !excluded.contains e.1 && !r.isDown e.2

/-- One of the candidates, as `choice` falls. -/
def pick (r : Router) (excluded : List String) (choice : Nat) : Option (String × ConnId) :=
  let cs := r.candidates excluded
  cs[choice % cs.length]?

def nodes (r : Router) : List String := (r.pool.map (·.1)).mergeSort

def job? (r : Router) (id : TaskId) : Option Job := (r.tasks.find? fun t => t.id == id).map (·.job)

def setJob (r : Router) (id : TaskId) (job : Job) : Router :=
  { r with tasks := r.tasks.map fun t => if t.id == id then { t with job := job } else t }

def remove (r : Router) (ids : List TaskId) : Router :=
  { r with tasks := r.tasks.filter fun t => !ids.contains t.id }

/-- A new task that works for `root`. -/
def spawn (r : Router) (root : TaskId) (job : Job) : TaskId × Router :=
  (r.next, { r with tasks := r.tasks ++ [⟨r.next, root, job⟩], next := r.next + 1 })

/-- A new task of its own. -/
def call (r : Router) (job : Job) : TaskId × Router := r.spawn r.next job

def claim (r : Router) : Claim × Router := (r.next, { r with next := r.next + 1 })

/-- Tasks for several jobs, in order. -/
def spawnAll (r : Router) (root : TaskId) : List Job → List TaskId × Router
  | [] => ([], r)
  | j :: js =>
    let (id, r) := r.spawn root j
    let (ids, r) := r.spawnAll root js
    (id :: ids, r)

def mail? (r : Router) (t : Claim) : Option Outcome := (r.mail.find? fun m => m.1 == t).map (·.2)

def takeMail (r : Router) (t : Claim) : Router :=
  { r with mail := r.mail.filter fun m => m.1 != t }

def dialResult? (r : Router) (id : TaskId) : Option (Except ClientError ConnId) :=
  match r.job? id with
  | some (.dial _ (.done result)) => some result
  | _ => none

def refreshResult? (r : Router) (id : TaskId) : Option (Except ClientError Unit) :=
  match r.job? id with
  | some (.refresh (.done result)) => some result
  | _ => none

/-- The connections that the router keeps alive. -/
def holds (r : Router) : List ConnId := r.pool.map (·.2) ++ r.tasks.flatMap fun t => t.job.holds

end Router

end RespClient.Cluster
