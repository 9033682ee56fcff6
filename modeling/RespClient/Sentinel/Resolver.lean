import RespClient.Sentinel.Resolver.Tasks
import Std.Data.HashSet

namespace RespClient.Sentinel

inductive Input where
  | lookup (master : String) (role : Role)
  | opening (master : String) (role : Role)
  /-- A task takes its next step, if it can. -/
  | step (task : TaskId) (choice : Nat)
  | dialed (task : TaskId) (result : Except ClientError ConnId)
  | reply (claim : Claim) (outcome : Outcome)
  /-- A connection has ended; its handlers may still have to run. -/
  | down (c : ConnId)
  /-- The message handler of a notification connection runs. -/
  | message (c : ConnId) (r : Reply)
  /-- The end handler of a notification connection runs. -/
  | ended (c : ConnId)
  | close

namespace Resolver

/-- The attempt to connect that a task waits for is over. -/
def dialed (r : Resolver) (id : TaskId) (result : Except ClientError ConnId) :
    Resolver × List Action :=
  match r.job? id with
  | some (.resolve master role (.calling endpoint rest)) =>
    match result with
    | .ok c => (r.setJob id (.resolve master role (.asking endpoint rest c)), [])
    | .error e => (r.setJob id (.resolve master role (.judging endpoint rest (.error e))), [])
  | some (.notify .calling) =>
    match result with
    | .ok c => (r.setJob id (.notify (.opened c)), [])
    | .error e => (r.endNotify id (.error e), [])
  | some (.opening _ _ .calling) => r.finish id (.opened result)
  | _ => (r, [])

/-- The notification connection is closed and given up. -/
def close (r : Resolver) : Resolver × List Action :=
  ({ r with notifier := none }, (r.notifier.map Action.close).toList)

def step (r : Resolver) : Input → Resolver × List Action
  | .lookup master role => ((r.call (.lookup master role none)).2, [])
  | .opening master role => ((r.call (.opening master role .start)).2, [])
  | .step id choice =>
    match r.tasks.find? fun t => t.id == id with
    | none => (r, [])
    | some t => (r.stepTask choice t).getD (r, [])
  | .dialed id result => r.dialed id result
  | .reply claim outcome => ({ r with mail := r.mail ++ [(claim, outcome)] }, [])
  | .down c => ({ r with down := r.down ++ [c] }, [])
  | .message _ reply => (r, if isMessage reply then [.reportFailover] else [])
  | .ended _ =>
    (if r.notifier.any r.isDown then { r with notifier := none } else r, [])
  | .close => r.close

/-- Inputs one after the other, with all actions in order. -/
def run (r : Resolver) : List Input → Resolver × List Action
  | [] => (r, [])
  | i :: is =>
    let (r, actions) := r.step i
    let (r, later) := run r is
    (r, actions ++ later)

/-- The first task of a family that can take a step; parents stand before their children. -/
def ready? (r : Resolver) (root : TaskId) : Option TaskId :=
  (r.tasks.find? fun t => t.root == root && r.isFree t).map (·.id)

/-- The families that can take a step, in the order they were called. -/
def readyRoots (r : Resolver) : List TaskId :=
  let free := Std.HashSet.ofList ((r.tasks.filter r.isFree).map (·.root))
  (r.tasks.filter fun t => t.id == t.root && free.contains t.id).map (·.id)

/-- How a resolver shows itself. -/
def describe (r : Resolver) : String :=
  "SentinelClient \x7b endpoints: " ++ Text.quotedList r.endpoints ++ ", master_name: " ++
    Text.quoted r.settings.masterName ++ " \x7d"

end Resolver

end RespClient.Sentinel
