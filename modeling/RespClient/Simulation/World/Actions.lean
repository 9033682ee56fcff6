import RespClient.Simulation.World.Events

namespace RespClient.Simulation.World

/-- An attempt to connect: refused, accepted, or none if nothing comes of it. -/
def connect (w : World) (owner : Owner) (address : String) (settings : ConnectionSettings) :
    World × Option (Except ClientError ConnId) :=
  match Address.split address with
  | .error e => (w, some (.error e))
  | .ok _ =>
    match w.nodes.find? fun n => n.address == address with
    | some n =>
      match n.mode with
      | .listen =>
        let c := w.links.length
        let l : Link :=
          { id := c, owner := owner, address := address, nulls := settings.nulls
            number := n.accepted + 1 }
        ({ w with
            links := w.links ++ [l]
            nodes := w.nodes.map fun m =>
              if m.address == address then { m with accepted := m.accepted + 1 } else m },
          some (.ok c))
      | .refuse => refused w
      | .hang => (w, none)
    | none => refused w
where
  refused (w : World) : World × Option (Except ClientError ConnId) :=
    (w.say .error ("Failed to connect to " ++ address ++ ": " ++ SocketFailure.refused.message),
      some (.error (.ofSocket .refused)))

/-- The result of an attempt reaches whoever asked for it; a connection for somebody outside is
theirs from then on. -/
def connected (w : World) (owner : Owner) (task : Nat) (result : Except ClientError ConnId) :
    World :=
  match owner with
  | .caller =>
    let w :=
      match result with
      | .ok c => w.acquire c
      | .error _ => w
    w.yield (.connection task) (.connected result)
  | .router k => w.informRouter k (.dialed task result)
  | .resolver k => w.informResolver k (.dialed task result)

/-- Begin an attempt to connect. -/
def dial (w : World) (owner : Owner) (task : Nat) (address : String)
    (settings : ConnectionSettings) : World :=
  match w.connect owner address settings with
  | (w, some result) => w.connected owner task result
  | (w, none) =>
    let timeout := settings.connectTimeoutMs.toNat
    { w with attempts := w.attempts ++ [⟨owner, task, address, timeout, w.now + timeout⟩] }

/-- An attempt that its task gave up is over without a word. -/
def isAwaited (w : World) (a : Attempt) : Bool :=
  match a.owner with
  | .caller => true
  | .router k => (w.routers[k]?).any fun s =>
    match s.router.job? a.task with
    | some (.dial _ .calling) => true
    | _ => false
  | .resolver k => (w.resolvers[k]?).any fun s => (s.resolver.job? a.task).isSome

def giveUp (w : World) (a : Attempt) : World :=
  if w.isAwaited a then
    let w := w.say .error
      ("Connect to " ++ a.address ++ " timed out after " ++ toString a.timeoutMs ++ "ms")
    w.connected a.owner a.task (.error (.connectTimeout a.address))
  else w

def submit (w : World) (c : ConnId) (r : Request Ticket) : World := w.happen c (.submit r)

/-- One action of a router. -/
def perform (w : World) (k : Nat) (slot : RouterSlot) (a : Cluster.Action) : World :=
  match a with
  | .dial task address => w.dial (.router k) task address slot.router.settings.connection
  | .watchFailure c =>
    match w.link? c with
    | some l => w.setLink { l with handlers := { l.handlers with failure := .router k } }
    | none => w
  | .watchEnd c =>
    match w.link? c with
    | some l => w.setLink { l with handlers := { l.handlers with finish := .router k } }
    | none => w
  | .submit c claim frame => w.submit c (.command ⟨.router k, claim⟩ frame)
  | .close c => w.submit c .close
  | .rest task ms => { w with rests := w.rests ++ [(k, task, w.now + ms)] }
  | a => w.tell k slot.observer a

/-- A router takes an input, and its actions are carried out. -/
def stepRouter (w : World) (k : Nat) (i : Cluster.Input) : World :=
  match w.routers[k]? with
  | none => w
  | some slot =>
    let (r, actions) := slot.router.step i
    actions.foldl (fun w a => w.perform k slot a) (w.setRouter k r)

/-- One action of a resolver. -/
def performSentinel (w : World) (k : Nat) (slot : ResolverSlot) (a : Sentinel.Action) : World :=
  match a with
  | .dial task address => w.dial (.resolver k) task address slot.resolver.settings.connection
  | .watchMessages c =>
    match w.link? c with
    | some l => w.setLink { l with handlers := { l.handlers with message := .resolver k } }
    | none => w
  | .watchEnd c =>
    match w.link? c with
    | some l => w.setLink { l with handlers := { l.handlers with finish := .resolver k } }
    | none => w
  | .submit c claim frame => w.submit c (.command ⟨.resolver k, claim⟩ frame)
  | .close c => w.submit c .close
  | a => w.hear k slot.observer a

def stepResolver (w : World) (k : Nat) (i : Sentinel.Input) : World :=
  match w.resolvers[k]? with
  | none => w
  | some slot =>
    let (r, actions) := slot.resolver.step i
    actions.foldl (fun w a => w.performSentinel k slot a) (w.setResolver k r)

end RespClient.Simulation.World
