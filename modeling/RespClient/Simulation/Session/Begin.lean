import RespClient.Simulation.Session.Operation

namespace RespClient.Simulation

/-- How a step's result shows the time that it took. -/
inductive Timing where
  | always
  | ifAny
  | never

structure Begun where
  operation : Operation
  timing : Timing

namespace World

def isOpenLink (w : World) (address : String) (l : Link) : Bool :=
  l.address == address && l.isOpen w.now

def openLinks (w : World) (address : String) : Nat := w.links.countP (w.isOpenLink address)

/-- What the open connections of a node bring besides what is on its way. -/
def push (w : World) (address : String) (chunks : List Bytes) : World :=
  let more := arrivals w.now chunks
  { w with
    links := w.links.map fun l =>
      if w.isOpenLink address l then
        { l with inbound := (l.inbound ++ more).mergeSort fun a b => a.1 ≤ b.1 }
      else l }

/-- A node gives up its open connections; what it has not sent by now is lost. -/
def hangUp (w : World) (address : String) (ending : Ending) : World :=
  let last := (ending.arrival?.map fun a => (w.now, a)).toList
  { w with
    links := w.links.map fun l =>
      if w.isOpenLink address l then
        { l with
          inbound := (l.inbound.filter fun a => a.1 ≤ w.now) ++ last
          nodeEnds := some w.now }
      else l }

def modifyNode (w : World) (address : String) (f : Node → Node) : World :=
  { w with nodes := w.nodes.map fun n => if n.address == address then f n else n }

/-- Submit several commands on one connection. -/
def sendEach (w : World) (c : ConnId) : List Command → List Await × World
  | [] => ([], w)
  | command :: rest =>
    let (a, w) := w.sendOn c command
    let (as, w) := w.sendEach c rest
    (a :: as, w)

/-- Call a router with several inputs. -/
def callEach (w : World) (k : Nat) : List Cluster.Input → List Await × World
  | [] => ([], w)
  | i :: rest =>
    let (a, w) := w.callRouter k i
    let (as, w) := w.callEach k rest
    (a :: as, w)

end World

namespace Session

/-- A step once it is taken: the operation that it began, or its answer and the time put to it. -/
abbrev Start := Session × (Begun ⊕ (Answer × Option Nat))

/-- A step that is over at once. -/
def atOnce (s : Session) (a : Answer) : Start := (s, .inr (a, none))

/-- A step that is over at once and changes the world. -/
def moved (s : Session) (w : World) : Start := ({ s with world := w }, .inr (.nothing, none))

def begun (s : Session) (w : World) (timing : Timing) (awaits : List Await) (goal : Goal) : Start :=
  ({ s with world := w }, .inl ⟨⟨awaits, goal⟩, timing⟩)

/-- The operations of a burst, submitted before the connection can act on any. -/
def burst (s : Session) (name : String) (c : ConnId) : List BurstOp → List Await × Session
  | [] => ([], s)
  | .send command :: rest =>
    let (a, w) := s.world.sendOn c command
    let (as, s) := burst { s with world := w } name c rest
    (a :: as, s)
  | .abandon command :: rest =>
    let (_, w) := s.world.sendOn c command
    burst { s with world := w.release c } name c rest
  | .request r :: rest => burst { s with world := s.world.submit c r } name c rest
  | .drop :: rest => burst (s.dropName name) name c rest

def beginLink (s : Session) (name : String) (l : Link) : LinkStep → Start
  | .send command =>
    let (a, w) := s.world.sendOn l.id command
    s.begun w .ifAny [a] (.send [l.id])
  | .pipeline commands =>
    let (as, w) := s.world.sendEach l.id commands
    s.begun w .never as (.sendAll (as.map fun _ => l.id))
  | .burst ops =>
    let (as, s) := s.burst name l.id ops
    s.begun s.world .never as (.sendAll (as.map fun _ => l.id))
  | .request r => s.moved (s.world.submit l.id r)
  | .handlers tag => s.moved (s.world.tag l.id tag)
  | .status => s.atOnce (.status l.address l.machine.ended)
  | .describe => s.atOnce (.text (World.describeLink l))

/-- The name of a request, in any case. -/
def isNamed (word : Bytes) : Asked → Bool
  | some w :: _ => w.map lowerByte == word.map lowerByte
  | _ => false

def beginNode (s : Session) (address : String) : NodeStep → Start
  | .push chunks =>
    let s' := { s with world := s.world.push address chunks }
    (s'.pass (chunks.length - 1)).atOnce (.count (s.world.openLinks address))
  | .hangUp ending =>
    ({ s with world := s.world.hangUp address ending }).atOnce (.count (s.world.openLinks address))
  | .mode mode => s.moved (s.world.modifyNode address fun n => { n with mode := mode })
  | .rules rules => s.moved (s.world.modifyNode address fun n => { n with rules := rules })
  | .log skip =>
    let entries := ((s.world.nodes.find? fun n => n.address == address).map (·.log)).getD []
    s.atOnce (.log (entries.filter fun e => !skip.any fun word => isNamed word e.2))
  | .openConnections => s.atOnce (.count (s.world.openLinks address))

/-- Begin to open a cluster, unless its settings are found invalid at once. -/
def beginOpening (s : Session) (settings : ClusterSettings) : Start :=
  match settings.validate with
  | .error e => (s, .inr (.failed e, some 0))
  | .ok () =>
    let (k, a, w) := s.world.openCluster settings
    s.begun w .always [a] (.openCluster k)

def beginCluster (s : Session) (k : Nat) (r : Cluster.Router) : ClusterStep → Start
  | .opening settings => s.beginOpening settings
  | .send command =>
    let (a, w) := s.world.callRouter k (.send command)
    s.begun w .ifAny [a] (.send [])
  | .sendTimes _ 0 => s.atOnce (.distinct [])
  | .sendTimes command (left + 1) =>
    let (a, w) := s.world.callRouter k (.send command)
    s.begun w .never [a] (.sendTimes k command left [])
  | .pipeline commands =>
    let (as, w) := s.world.callEach k (commands.map .send)
    s.begun w .never as (.sendAll [])
  | .refresh =>
    let (a, w) := s.world.callRouter k .reload
    s.begun w .ifAny [a] .call
  | .table => s.atOnce (.table r.table)
  | .nodes => s.atOnce (.texts r.nodes)
  | .describe => s.atOnce (.text r.describe)
  | .close => s.moved (s.world.stepRouter k .close)
  | .drop => ({ s with cluster := none }).moved (s.world.dropRouter k)

/-- A new resolver in place of the one there. -/
def makeResolver (s : Session) (settings : SentinelSettings) (observed : Bool) : Start :=
  let w := s.sentinel.elim s.world s.world.dropResolver
  let (k, w) := w.addResolver settings (if observed then .session else .nobody)
  ({ s with sentinel := some k }).moved w

def beginSentinel (s : Session) (k : Nat) (r : Sentinel.Resolver) : SentinelStep → Start
  | .make settings observed => s.makeResolver settings observed
  | .resolve master role =>
    let (a, w) := s.world.callResolver k (.lookup master role)
    s.begun w .ifAny [a] .call
  | .resolveTimes _ _ 0 => s.atOnce (.distinct [])
  | .resolveTimes master role (left + 1) =>
    let (a, w) := s.world.callResolver k (.lookup master role)
    s.begun w .never [a] (.resolveTimes k master role left [])
  | .opening name master role observed =>
    let (a, w) := s.world.callResolver k (.opening master role)
    s.begun w .always [a] (.connect name observed)
  | .connect name observed =>
    let (a, w) := s.world.callResolver k (.opening r.settings.masterName r.settings.role)
    s.begun w .always [a] (.connect name observed)
  | .openTwice master role =>
    let (a, w) := s.world.callResolver k (.opening master role)
    let (b, w) := w.callResolver k (.opening master role)
    s.begun w .never [a, b] .pair
  | .endpoints => s.atOnce (.texts r.endpoints)
  | .describe => s.atOnce (.text r.describe)
  | .close => s.moved (s.world.stepResolver k .close)
  | .drop => ({ s with sentinel := none }).moved (s.world.dropResolver k)

def beginTarget (s : Session) (settings : Shell.Settings) : Start :=
  match Shell.Target.start s.world settings with
  | (w, .error f) => ({ s with world := w }).atOnce (.shellFailed f)
  | (w, .ok (o, a)) => s.begun w .never [a] (.openTarget o)

def beginShell (s : Session) (t : Shell.Target) : ShellStep → Start
  | .opening settings => s.beginTarget settings
  | .run line =>
    match Shell.parseLine line with
    | .error f => s.atOnce (.shellFailed f)
    | .ok command =>
      let (held, a, w) := t.send s.world command
      s.begun w .ifAny [a] (.shellRun held.toList)
  | .describe => s.atOnce (.text (t.describe s.world))
  | .close => s.moved (t.close s.world)

/-- Take a step. One about something that is not there comes to nothing. -/
def begin (s : Session) : Step → Start
  | .connect name address settings observed =>
    let (a, w) := s.world.dialFor address settings
    s.begun w .always [a] (.connect name observed)
  | .drop name => (s.dropName name).atOnce (.flag (s.named? name).isSome)
  | .link name step =>
    match (s.named? name).bind s.world.link? with
    | some l => s.beginLink name l step
    | none => s.atOnce .nothing
  | .node address step => s.beginNode address step
  | .count word =>
    s.atOnce (.count ((s.world.nodes.flatMap (·.log)).countP fun e => isNamed word e.2))
  | .sleep ms => (s.pass ms).atOnce .nothing
  | .cluster (.opening settings) => s.beginOpening settings
  | .cluster step =>
    match s.cluster.bind fun k => (s.world.routers[k]?).map fun slot => (k, slot.router) with
    | some (k, r) => s.beginCluster k r step
    | none => s.atOnce .nothing
  | .sentinel (.make settings observed) => s.makeResolver settings observed
  | .sentinel step =>
    match s.sentinel.bind fun k => (s.world.resolvers[k]?).map fun slot => (k, slot.resolver) with
    | some (k, r) => s.beginSentinel k r step
    | none => s.atOnce .nothing
  | .shell (.opening settings) => s.beginTarget settings
  | .shell step =>
    match s.target with
    | some t => s.beginShell t step
    | none => s.atOnce .nothing

end Session

end RespClient.Simulation
