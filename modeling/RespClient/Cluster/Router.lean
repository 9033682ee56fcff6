import RespClient.Cluster.Router.Tasks
import Std.Data.HashSet

namespace RespClient.Cluster

inductive Input where
  /-- A new client connects to every seed and loads the slot table. -/
  | opening
  | send (command : Command)
  | reload
  /-- A task takes its next step, if it can. -/
  | step (task : TaskId) (choice : Nat)
  | dialed (task : TaskId) (result : Except ClientError ConnId)
  | reply (claim : Claim) (outcome : Outcome)
  /-- The rest that a task asked for is over. -/
  | rested (task : TaskId)
  /-- A connection has ended; its handlers may still have to run. -/
  | down (c : ConnId)
  /-- The failure handler of a watched connection runs. -/
  | failed (c : ConnId) (e : ClientError)
  /-- The end handler of a watched connection runs. -/
  | ended (c : ConnId)
  | close

namespace Router

/-- The job of sending a command for the first time. -/
def sending (r : Router) (command : Command) : Job :=
  .send { command := command
          frame := command.encode r.settings.connection.nulls
          budget := r.settings.maxRedirects.toNat }

/-- The attempt to connect that a dial waits for is over. -/
def dialed (r : Router) (id : TaskId) (result : Except ClientError ConnId) : Router :=
  match r.job? id with
  | some (.dial address .calling) =>
    match result with
    | .ok c =>
      { r.setJob id (.dial address (.opened c)) with opened := r.opened ++ [(c, address)] }
    | .error e => r.setJob id (.dial address (.done (.error e)))
  | _ => r

def rested (r : Router) (id : TaskId) : Router :=
  match r.job? id with
  | some (.send s) =>
    match s.stage with
    | .resting c => r.setJob id (.send { s with stage := .submit c })
    | _ => r
  | _ => r

/-- A connection failed: it leaves the pool, observers learn of it, and the table is loaded again. -/
def failed (r : Router) (c : ConnId) (e : ClientError) : Router × List Action :=
  let address := r.origin c
  let r := r.forget address
  let r := if r.closed then r else (r.call (.recovery none)).2
  (r, [.warn ("Pooled connection to " ++ address ++ " failed: " ++ e.message), .reportFailure e])

/-- A connection ended: observers learn when nothing is left in the pool. -/
def ended (r : Router) (c : ConnId) : Router × List Action :=
  let r := r.forget (r.origin c)
  (r, if r.pool.isEmpty then [.reportEnd] else [])

def step (r : Router) : Input → Router × List Action
  | .opening => ((r.call (.opening .start)).2, [])
  | .send command => ((r.call (r.sending command)).2, [])
  | .reload => ((r.call (.reload none)).2, [])
  | .step id choice =>
    match r.tasks.find? fun t => t.id == id with
    | none => (r, [])
    | some t => (r.stepTask choice t).getD (r, [])
  | .dialed id result => (r.dialed id result, [])
  | .reply claim outcome => ({ r with mail := r.mail ++ [(claim, outcome)] }, [])
  | .rested id => (r.rested id, [])
  | .down c => ({ r with down := r.down ++ [c] }, [])
  | .failed c e => r.failed c e
  | .ended c => r.ended c
  | .close => r.close

/-- Inputs one after the other, with all actions in order. -/
def run (r : Router) : List Input → Router × List Action
  | [] => (r, [])
  | i :: is =>
    let (r, actions) := r.step i
    let (r, later) := run r is
    (r, actions ++ later)

/-- The first task of a family that can take a step; parents stand before their children. -/
def ready? (r : Router) (root : TaskId) : Option TaskId :=
  (r.tasks.find? fun t => t.root == root && r.isFree t).map (·.id)

/-- The families that can take a step, in the order they were called. -/
def readyRoots (r : Router) : List TaskId :=
  let free := Std.HashSet.ofList ((r.tasks.filter r.isFree).map (·.root))
  (r.tasks.filter fun t => t.id == t.root && free.contains t.id).map (·.id)

/-- How a router shows itself. -/
def describe (r : Router) : String :=
  "ClusterClient \x7b nodes: " ++ Text.quotedList r.nodes ++ ", shards: " ++
    toString r.table.shards.size ++ " \x7d"

end Router

end RespClient.Cluster
