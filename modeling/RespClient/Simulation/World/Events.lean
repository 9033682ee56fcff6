import RespClient.Simulation.World

namespace RespClient.Simulation.World

/-- The part of a router's actions that needs no connection: news and warnings. -/
def tell (w : World) (k : Nat) (observer : Observer) : Cluster.Action → World
  | .warn text => w.say .warn text
  | .reportFailure e =>
    match observer with
    | .session => w.report "cluster" (.failed e)
    | _ => w
  | .reportEnd =>
    match observer with
    | .session => w.report "cluster" .ended
    | .shell => w.say .warn "All cluster connections ended"
    | .nobody => w
  | .finish task result =>
    w.yield (.task (.router k) task)
      (match result with
        | .opened r => .finished r
        | .refreshed r => .finished r
        | .sent o => .outcome o)
  | _ => w

def tellAll (w : World) (k : Nat) (observer : Observer) (actions : List Cluster.Action) : World :=
  actions.foldl (fun w a => w.tell k observer a) w

/-- The part of a resolver's actions that needs no connection. A connection that was opened for
somebody outside is theirs from then on. -/
def hear (w : World) (k : Nat) (observer : Observer) : Sentinel.Action → World
  | .warn text => w.say .warn text
  | .reportFailover =>
    match observer with
    | .session => w.report "sentinel" .failover
    | .shell => w.say .warn "Master switched; restart to follow the new master"
    | .nobody => w
  | .finish task (.found r) => w.yield (.task (.resolver k) task) (.found r)
  | .finish task (.opened r) =>
    let w :=
      match r with
      | .ok c => w.acquire c
      | .error _ => w
    w.yield (.task (.resolver k) task) (.connected r)
  | _ => w

def hearAll (w : World) (k : Nat) (observer : Observer) (actions : List Sentinel.Action) : World :=
  actions.foldl (fun w a => w.hear k observer a) w

/-- A router takes an input that asks nothing of the network. -/
def informRouter (w : World) (k : Nat) (i : Cluster.Input) : World :=
  match w.routers[k]? with
  | none => w
  | some slot =>
    let (r, actions) := slot.router.step i
    (w.setRouter k r).tellAll k slot.observer actions

def informResolver (w : World) (k : Nat) (i : Sentinel.Input) : World :=
  match w.resolvers[k]? with
  | none => w
  | some slot =>
    let (r, actions) := slot.resolver.step i
    (w.setResolver k r).hearAll k slot.observer actions

/-- A handler runs; those of a router or resolver that is gone do nothing. -/
def handle (w : World) (h : Handler) (named : Happening) (router : Option Cluster.Input)
    (resolver : Option Sentinel.Input) : World :=
  match h with
  | .nobody => w
  | .named tag => w.report tag named
  | .router k =>
    match router with
    | some i => if (w.routers[k]?).any RouterSlot.alive then w.informRouter k i else w
    | none => w
  | .resolver k =>
    match resolver with
    | some i => if (w.resolvers[k]?).any ResolverSlot.alive then w.informResolver k i else w
    | none => w

/-- The owner of a connection sees that it has ended. -/
def noteDown (w : World) (l : Link) : World :=
  match l.owner with
  | .caller => w
  | .router k => w.informRouter k (.down l.id)
  | .resolver k => w.informResolver k (.down l.id)

def complete (w : World) (t : Ticket) (o : Outcome) : World :=
  match t.owner with
  | .caller => w.yield (.reply t.claim) (.outcome o)
  | .router k => w.informRouter k (.reply t.claim o)
  | .resolver k => w.informResolver k (.reply t.claim o)

/-- A node's answers to requests, up to one after which it gives the connection up. -/
def answer (now : Nat) : List Asked → Node → Link → Node × Link
  | [], n, l => (n, l)
  | asked :: rest, n, l =>
    if l.nodeEnds.isSome then (n, l)
    else
      let (reaction, n) := n.ask l.number asked
      let start := max now l.busyUntil
      let last := lastChunk start reaction.chunks
      answer now rest n
        { l with
          inbound := l.inbound ++ arrivals start reaction.chunks ++
            (reaction.ending.arrival?.map fun a => (last, a)).toList
          nodeEnds := reaction.ending.arrival?.map fun _ => last
          busyUntil := last }

/-- Frames reach the node of a connection. -/
def deliver (w : World) (c : ConnId) (frames : Bytes) : World :=
  match w.link? c with
  | none => w
  | some l =>
    let drained := l.requests.drain (l.received ++ frames)
    let l := { l with requests := drained.decoder, received := drained.rest }
    match w.nodes.find? fun n => n.address == l.address with
    | none => w.setLink l
    | some n =>
      let (n, l) := answer w.now (drained.replies.filterMap asked?) n l
      { w.setLink l with nodes := w.nodes.map fun m => if m.address == n.address then n else m }

/-- One effect of a connection. -/
def effect (w : World) (c : ConnId) (e : Connection.Effect Ticket) : World :=
  match w.link? c with
  | none => w
  | some l =>
    match e with
    | .write frames => w.deliver c frames
    | .complete t o => w.complete t o
    | .shutdown => w
    | .message r =>
      match l.handlers.message with
      | .nobody =>
        w.say .warn ("Dropping unsolicited " ++ r.kind ++ " reply from " ++ l.address)
      | h => w.handle h (.message r) none (some (.message c r))
    | .failed e =>
      let w := w.say .error ("Connection to " ++ l.address ++ " failed: " ++ e.message)
      w.handle l.handlers.failure (.failed e) (some (.failed c e)) none
    | .finished => w.handle l.handlers.finish .ended (some (.ended c)) (some (.ended c))

/-- An event of a connection, with all that comes of it. Its owner sees that it has ended before
anything else does. -/
def happen (w : World) (c : ConnId) (e : Connection.Event Ticket) : World :=
  match w.link? c with
  | none => w
  | some l =>
    let (machine, effects) := l.machine.step e
    let w := w.setLink { l with machine := machine }
    let w := if machine.ended && !l.machine.ended then w.noteDown l else w
    effects.foldl (fun w e => w.effect c e) w

end RespClient.Simulation.World
