import RespClient.Simulation.Schedule

namespace RespClient.Simulation.World

def yield? (w : World) (a : Await) : Option Yield := (w.yields.find? fun y => y.1 == a).map (·.2)

/-- Take the results of some calls out of the world. -/
def collect (w : World) (awaits : List Await) : List Yield × World :=
  (awaits.filterMap w.yield?, { w with yields := w.yields.filter fun y => !awaits.contains y.1 })

/-- Let time pass until a call is over; none if it never is. -/
def waitFor (w : World) (a : Await) : World × Option Yield :=
  let done (w : World) : Bool := (w.yield? a).isSome
  let w := w.runFor forever done
  match w.collect [a] with
  | ([y], w) => (w, some y)
  | (_, w) => (w, none)

/-- Connect to an address. -/
def dialFor (w : World) (address : String) (settings : ConnectionSettings) : Await × World :=
  let attempt := w.next
  let w : World := { w with next := attempt + 1 }
  (.connection attempt, w.dial .caller attempt address settings)

/-- Submit a command; the connection is held until the command is over. -/
def sendOn (w : World) (c : ConnId) (command : Command) : Await × World :=
  let claim := w.next
  let nulls := ((w.link? c).map (·.nulls)).getD .emptyBulk
  let w : World := { w with next := claim + 1 }
  let w := w.acquire c
  (.reply claim, w.submit c (.command ⟨.caller, claim⟩ (command.encode nulls)))

/-- A router for a cluster, and the call that opens it. -/
def openCluster (w : World) (settings : ClusterSettings) : Nat × Await × World :=
  let k := w.routers.length
  let slot : RouterSlot := { router := { settings := settings } }
  let w : World := { w with routers := w.routers ++ [slot] }
  (k, .task (.router k) 0, w.stepRouter k .opening)

/-- Call a router; its next task is the call. -/
def callRouter (w : World) (k : Nat) (i : Cluster.Input) : Await × World :=
  let id := ((w.routers[k]?).map (·.router.next)).getD 0
  (.task (.router k) id, w.stepRouter k i)

/-- A resolver with nothing to do yet. -/
def addResolver (w : World) (settings : SentinelSettings) (observer : Observer) : Nat × World :=
  (w.resolvers.length,
    { w with resolvers := w.resolvers ++ [⟨.ofSettings settings, observer, true⟩] })

/-- Call a resolver; its next task is the call. -/
def callResolver (w : World) (k : Nat) (i : Sentinel.Input) : Await × World :=
  let id := ((w.resolvers[k]?).map (·.resolver.next)).getD 0
  (.task (.resolver k) id, w.stepResolver k i)

def observe (w : World) (k : Nat) (observer : Observer) : World :=
  { w with routers := w.routers.modify k fun s => { s with observer := observer } }

/-- A client gives up its hold on a router. -/
def dropRouter (w : World) (k : Nat) : World :=
  { w with routers := w.routers.modify k fun s => { s with held := false } }

def dropResolver (w : World) (k : Nat) : World :=
  { w with resolvers := w.resolvers.modify k fun s => { s with held := false } }

/-- All events of a connection go to one tag. -/
def tag (w : World) (c : ConnId) (name : String) : World :=
  match w.link? c with
  | some l => w.setLink { l with handlers := ⟨.named name, .named name, .named name⟩ }
  | none => w

def addressOf (w : World) (c : ConnId) : String := ((w.link? c).map (·.address)).getD ""

def nodesOf (w : World) (k : Nat) : List String := ((w.routers[k]?).map (·.router.nodes)).getD []

/-- How a connection shows itself. -/
def describeLink (l : Link) : String :=
  "Connection \x7b address: " ++ Text.quoted l.address ++ ", closed: " ++
    (if l.machine.ended then "true" else "false") ++ " \x7d"

end RespClient.Simulation.World
