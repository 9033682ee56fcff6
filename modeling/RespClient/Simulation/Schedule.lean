import RespClient.Simulation.World.Actions

namespace RespClient.Simulation.World

/-- Something has arrived at the client's end, and the client reads. -/
def readable (w : World) (l : Link) : Bool :=
  !l.machine.ended && !l.machine.paused &&
    (match l.inbound with
      | (due, _) :: _ => due ≤ w.now
      | [] => false)

def canAct (w : World) : Runner → Bool
  | .link c =>
    match w.link? c with
    | some l => l.machine.wantsTurn (w.isHeld c) || w.readable l
    | none => false
  | .router k root => (w.routers[k]?).any fun s => (s.router.ready? root).isSome
  | .resolver k root => (w.resolvers[k]?).any fun s => (s.resolver.ready? root).isSome

/-- Every runner that can act: tasks before connections. -/
def ready (w : World) : List Runner :=
  (w.routers.zipIdx.flatMap fun (s, k) => s.router.readyRoots.map (.router k)) ++
    (w.resolvers.zipIdx.flatMap fun (s, k) => s.resolver.readyRoots.map (.resolver k)) ++
    (w.links.filter fun l => w.canAct (.link l.id)).map fun l => .link l.id

/-- Runners that became able to act stand behind those in the queue. -/
def enqueue (w : World) : World :=
  let waiting := Std.HashSet.ofList w.queue
  { w with queue := w.queue ++ w.ready.filter fun u => !waiting.contains u }

/-- The next arrival is read. -/
def read (w : World) (l : Link) : World :=
  match l.inbound with
  | [] => w
  | (_, a) :: rest =>
    let w := w.setLink { l with inbound := rest }
    match a with
    | .bytes bs => w.happen l.id (.received bs)
    | .closed => w.happen l.id .endOfStream
    | .reset => w.happen l.id (.readFailure .reset)

/-- A runner acts once: requests go before arrivals, parents before children. -/
def act (w : World) : Runner → World
  | .link c =>
    match w.link? c with
    | none => w
    | some l =>
      if l.machine.wantsTurn (w.isHeld c) then
        w.happen c (.turn (w.isHeld c) (l.nodeOpen w.now))
      else w.read l
  | .router k root =>
    match (w.routers[k]?).bind fun s => s.router.ready? root with
    | none => w
    | some task =>
      let (choice, w) := w.draw
      w.stepRouter k (.step task choice)
  | .resolver k root =>
    match (w.resolvers[k]?).bind fun s => s.resolver.ready? root with
    | none => w
    | some task =>
      let (choice, w) := w.draw
      w.stepResolver k (.step task choice)

/-- At most `fuel` acts, until nothing can act, or until `stop` says so when a runner has to wait. Whoever
waits for a result goes on before the next runner acts. -/
def settle (stop : World → Bool) : Nat → World → World
  | 0, w => w
  | fuel + 1, w =>
    match w.queue with
    | [] =>
      let w := w.enqueue
      if w.queue.isEmpty || stop w then w else settle stop fuel w
    | u :: rest =>
      if w.canAct u then settle stop fuel (w.act u).enqueue
      else
        let w := { w with queue := rest }
        if stop w then w else settle stop fuel w

/-- When the next thing is due. -/
def nextDue? (w : World) : Option Nat :=
  let dues := w.attempts.map (·.deadline) ++ w.rests.map (·.2.2) ++
    (w.links.filter fun l => !l.machine.ended).flatMap fun l =>
      (l.inbound.map (·.1)).filter fun due => w.now < due
  dues.min?

/-- Everything that is due by now is over. -/
def fire (w : World) : World :=
  let (expired, attempts) := w.attempts.partition fun a => a.deadline ≤ w.now
  let (rested, rests) := w.rests.partition fun r => r.2.2 ≤ w.now
  let w := { w with attempts := attempts, rests := rests }
  let w := expired.foldl giveUp w
  rested.foldl (fun w (k, task, _) => w.informRouter k (.rested task)) w

/-- How much a world may act before it is stopped. -/
def patience : Nat := 200000

/-- Nothing waits longer than this. -/
def forever : Nat := 0x1000000000000000000

/-- Run until nothing can act, from one due time to the next, up to the time `limit` or until `stop`
says so. -/
def runUntil (limit : Nat) (stop : World → Bool) : Nat → World → World
  | 0, w => w
  | fuel + 1, w =>
    let w := (w.fire).settle stop patience
    if stop w then w
    else
      match w.nextDue? with
      | some due =>
        if due ≤ limit then runUntil limit stop fuel { w with now := max w.now due }
        else { w with now := max w.now limit }
      | none => { w with now := max w.now limit }

/-- Run for some milliseconds, or until `stop` says so. -/
def runFor (w : World) (ms : Nat) (stop : World → Bool) : World :=
  runUntil (w.now + ms) stop patience w

end RespClient.Simulation.World
