import RespClient.Simulation.Session.Step

namespace RespClient.Simulation

/-- What an operation that takes time is for. -/
inductive Goal where
  | connect (name : String) (observed : Bool)
  | send (held : List ConnId)
  | sendAll (held : List ConnId)
  /-- A call whose result is its answer. -/
  | call
  | openCluster (k : Nat)
  | sendTimes (k : Nat) (command : Command) (left : Nat) (seen : List Answer)
  | resolveTimes (k : Nat) (master : String) (role : Role) (left : Nat) (seen : List Answer)
  | pair
  | openTarget (o : Shell.Opening)
  | shellRun (held : List ConnId)

structure Operation where
  awaits : List Await
  goal : Goal

/-- Steps taken one after the other in a world, each on a quiet system, and the operations that are waited for. -/
structure Session where
  world : World
  names : List (String × ConnId) := []
  cluster : Option Nat := none
  sentinel : Option Nat := none
  target : Option Shell.Target := none
  /-- Operations that their steps did not wait for. -/
  pending : List (Nat × Operation) := []
  issued : Nat := 0
  /-- What pending operations came to during this step. -/
  late : List (Nat × Answer) := []

def Operation.isReady (w : World) (op : Operation) : Bool :=
  op.awaits.all fun a => (w.yield? a).isSome

/-- The answer that a result is by itself. -/
def Answer.ofYield : Yield → Answer
  | .outcome o => outcome o
  | .finished (.ok ()) => ok
  | .finished (.error e) => failed e
  | .found (.ok a) => address a
  | .found (.error e) => failed e
  | .connected (.error e) => failed e
  | .connected (.ok _) => nothing

namespace Session

def named? (s : Session) (name : String) : Option ConnId :=
  (s.names.find? fun n => n.1 == name).map (·.2)

/-- A name is given up, and with it its hold on a connection. -/
def dropName (s : Session) (name : String) : Session :=
  match s.named? name with
  | none => s
  | some c =>
    { s with world := s.world.release c, names := s.names.filter fun n => n.1 != name }

/-- A connection gets a name, which holds it. -/
def give (s : Session) (name : String) (c : ConnId) (observed : Bool) : Session :=
  let s := s.dropName name
  { s with
    world := if observed then s.world.tag c name else s.world
    names := s.names ++ [(name, c)] }

/-- Everything that the operation waited for is there: its answer, or what it waits for next. -/
def conclude (s : Session) (op : Operation) : Session × (Operation ⊕ Answer) :=
  let (ys, w) := s.world.collect op.awaits
  let s := { s with world := w }
  let free (s : Session) (held : List ConnId) : Session :=
    { s with world := held.foldl World.release s.world }
  match op.goal, ys with
  | .connect name observed, [.connected (.ok c)] =>
    (s.give name c observed, .inr (.address (s.world.addressOf c)))
  | .send held, [y] => (free s held, .inr (.ofYield y))
  | .sendAll held, ys => (free s held, .inr (.several (ys.map Answer.ofYield)))
  | .openCluster k, [.finished (.ok ())] =>
    let w := s.world.observe k .session
    let w := s.cluster.elim w w.dropRouter
    ({ s with world := w, cluster := some k }, .inr (.nodes (w.nodesOf k)))
  | .openCluster k, [.finished (.error e)] =>
    ({ s with world := s.world.dropRouter k }, .inr (.failed e))
  | .sendTimes k command left seen, [y] =>
    match left with
    | 0 => (s, .inr (.distinct (seen ++ [.ofYield y])))
    | left + 1 =>
      let (a, w) := s.world.callRouter k (.send command)
      ({ s with world := w }, .inl ⟨[a], .sendTimes k command left (seen ++ [.ofYield y])⟩)
  | .resolveTimes k master role left seen, [y] =>
    match left with
    | 0 => (s, .inr (.distinct (seen ++ [.ofYield y])))
    | left + 1 =>
      let (a, w) := s.world.callResolver k (.lookup master role)
      ({ s with world := w }, .inl ⟨[a], .resolveTimes k master role left (seen ++ [.ofYield y])⟩)
  | .pair, ys =>
    let opened := ys.filterMap fun
      | .connected (.ok c) => some c
      | _ => none
    let answers := ys.map fun
      | .connected (.ok c) => Answer.address (s.world.addressOf c)
      | y => .ofYield y
    (free s opened, .inr (.several answers))
  | .openTarget o, [y] =>
    let (w, result) := Shell.Target.conclude s.world o y
    match result with
    | .error f => ({ s with world := w }, .inr (.shellFailed f))
    | .ok t =>
      let w := s.target.elim w (Shell.Target.drop w)
      ({ s with world := w, target := some t }, .inr (.target (t.describe w)))
  | .shellRun held, [.outcome o] =>
    (free s held, .inr (match Shell.display? false o with
      | .ok text => .output text
      | .error f => .shellFailed f))
  | _, [y] => (s, .inr (.ofYield y))
  | _, _ => (s, .inr .nothing)

/-- Pending operations whose results are there go on, or are reported. -/
def advancePending (s : Session) : Session :=
  s.pending.foldl
    (fun s (n, op) =>
      if op.isReady s.world then
        match s.conclude op with
        | (s, .inl next) =>
          { s with pending := s.pending.map fun p => if p.1 == n then (n, next) else p }
        | (s, .inr a) =>
          { s with pending := s.pending.filter fun p => p.1 != n, late := s.late ++ [(n, a)] }
      else s)
    s

/-- Let time pass up to `limit`, or until `op` is over. -/
def await (limit : Nat) : Nat → Session → Option Operation → Session × (Option Operation ⊕ Answer)
  | 0, s, op => (s, .inl op)
  | fuel + 1, s, op =>
    let pending := s.pending
    let stop (w : World) : Bool :=
      op.any (Operation.isReady w) || pending.any fun p => p.2.isReady w
    let w := s.world.runFor (limit - s.world.now) stop
    let s := { s with world := w }
    if !stop w then (s, .inl op)
    else
      let s := s.advancePending
      match op with
      | none => await limit fuel s none
      | some o =>
        if o.isReady s.world then
          match s.conclude o with
          | (s, .inl next) => await limit fuel s (some next)
          | (s, .inr a) => (s, .inr a)
        else await limit fuel s (some o)

/-- How often operations may go on within one step. -/
def patience : Nat := 100000

/-- Let some milliseconds pass. -/
def pass (s : Session) (ms : Nat) : Session := (await (s.world.now + ms) patience s none).1

end Session

end RespClient.Simulation
