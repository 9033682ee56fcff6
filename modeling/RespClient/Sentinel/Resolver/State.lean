import RespClient.Sentinel.Answer

namespace RespClient.Sentinel

abbrev ConnId := Nat

abbrev TaskId := Nat

/-- A claim on the reply to one submitted frame. -/
abbrev Claim := Nat

/-- Asking the endpoints one after the other; `rest` are those behind the current one. -/
inductive ResolveStage where
  | start
  | probing (rest : List String)
  | calling (endpoint : String) (rest : List String)
  | asking (endpoint : String) (rest : List String) (c : ConnId)
  | awaiting (endpoint : String) (rest : List String) (c : ConnId) (reply : Claim)
  | hangingUp (endpoint : String) (rest : List String) (c : ConnId)
      (answer : Except ClientError String)
  | judging (endpoint : String) (rest : List String) (answer : Except ClientError String)
  | done (result : Except ClientError String)

/-- Seeing to it that a notification connection listens. Only the task at the head of the lock goes
beyond `waiting`. -/
inductive NotifyStage where
  | enter
  | waiting
  | resolving (resolve : TaskId)
  | calling
  | opened (c : ConnId)
  /-- Messages are heard, the end is not yet. -/
  | listening (c : ConnId)
  | subscribing (c : ConnId)
  | awaiting (c : ConnId) (reply : Claim)
  | giveUp (c : ConnId) (e : ClientError)
  | done (result : Except ClientError Unit)

inductive OpenStage where
  | start
  | notifying (notify : TaskId)
  | resolving (resolve : TaskId)
  | calling

/-- What a task does. Notifying and resolving may work for another task. -/
inductive Job where
  | resolve (master : String) (role : Role) (stage : ResolveStage)
  | notify (stage : NotifyStage)
  | lookup (master : String) (role : Role) (resolve : Option TaskId)
  | opening (master : String) (role : Role) (stage : OpenStage)

/-- Work under way. The `root` is the task that this one works for in the end, itself if it was
called from outside. -/
structure Task where
  id : TaskId
  root : TaskId
  job : Job

inductive Result where
  | found (r : Except ClientError String)
  | opened (r : Except ClientError ConnId)

/-- What the resolver asks of its surroundings. -/
inductive Action where
  | dial (task : TaskId) (address : String)
  | watchMessages (c : ConnId)
  | watchEnd (c : ConnId)
  | submit (c : ConnId) (claim : Claim) (frame : Bytes)
  | close (c : ConnId)
  | warn (text : String)
  /-- A new master was announced. -/
  | reportFailover
  | finish (task : TaskId) (result : Result)

/-- The endpoints in the order they are asked, the connection that listens for announcements of a new master,
and the tasks under way. -/
structure Resolver where
  settings : SentinelSettings
  /-- The endpoints in the order they are asked. -/
  endpoints : List String
  notifier : Option ConnId := none
  /-- Tasks in the order they asked for the lock; the first one has it. -/
  lock : List TaskId := []
  tasks : List Task := []
  next : Nat := 0
  mail : List (Claim × Outcome) := []
  /-- Connections that have ended. -/
  down : List ConnId := []

def ResolveStage.holds : ResolveStage → List ConnId
  | asking _ _ c | awaiting _ _ c _ | hangingUp _ _ c _ => [c]
  | _ => []

def NotifyStage.holds : NotifyStage → List ConnId
  | opened c | listening c | subscribing c | awaiting c _ | giveUp c _ => [c]
  | _ => []

/-- The connections that a job keeps alive. -/
def Job.holds : Job → List ConnId
  | resolve _ _ stage => stage.holds
  | notify stage => stage.holds
  | lookup _ _ _ | opening _ _ _ => []

namespace Resolver

def ofSettings (s : SentinelSettings) : Resolver := { settings := s, endpoints := s.endpoints }

def isDown (r : Resolver) (c : ConnId) : Bool := r.down.contains c

def job? (r : Resolver) (id : TaskId) : Option Job := (r.tasks.find? fun t => t.id == id).map (·.job)

def setJob (r : Resolver) (id : TaskId) (job : Job) : Resolver :=
  { r with tasks := r.tasks.map fun t => if t.id == id then { t with job := job } else t }

def remove (r : Resolver) (id : TaskId) : Resolver :=
  { r with tasks := r.tasks.filter fun t => t.id != id }

/-- A new task that works for `root`. -/
def spawn (r : Resolver) (root : TaskId) (job : Job) : TaskId × Resolver :=
  (r.next, { r with tasks := r.tasks ++ [⟨r.next, root, job⟩], next := r.next + 1 })

/-- A new task of its own. -/
def call (r : Resolver) (job : Job) : TaskId × Resolver := r.spawn r.next job

def claim (r : Resolver) : Claim × Resolver := (r.next, { r with next := r.next + 1 })

def mail? (r : Resolver) (t : Claim) : Option Outcome :=
  (r.mail.find? fun m => m.1 == t).map (·.2)

def takeMail (r : Resolver) (t : Claim) : Resolver :=
  { r with mail := r.mail.filter fun m => m.1 != t }

def resolveResult? (r : Resolver) (id : TaskId) : Option (Except ClientError String) :=
  match r.job? id with
  | some (.resolve _ _ (.done result)) => some result
  | _ => none

def notifyResult? (r : Resolver) (id : TaskId) : Option (Except ClientError Unit) :=
  match r.job? id with
  | some (.notify (.done result)) => some result
  | _ => none

/-- The connections that the resolver keeps alive. -/
def holds (r : Resolver) : List ConnId := r.notifier.toList ++ r.tasks.flatMap fun t => t.job.holds

/-- The endpoints with the first one that is `endpoint` in front; the others keep their order. -/
def promote (r : Resolver) (endpoint : String) : Resolver :=
  if r.endpoints.contains endpoint then
    { r with endpoints := endpoint :: r.endpoints.erase endpoint }
  else r

end Resolver

end RespClient.Sentinel
