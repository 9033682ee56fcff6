import RespClient.Simulation.Session.Begin

namespace RespClient.Simulation

/-- What an observer saw, or the late result of an operation. -/
inductive News where
  | happened (h : Happening)
  | late (a : Answer)

structure Entry where
  answer : Answer
  /-- The time that the step took, where its result says so. -/
  ms : Option Nat := none
  events : List (String × News)
  log : List String

namespace Session

/-- The time is put to an answer. -/
def isTimed (timing : Timing) (a : Answer) (ms : Nat) : Bool :=
  match timing, a with
  | .always, _ => true
  | .never, _ => false
  | .ifAny, .ok => false
  | .ifAny, _ => 0 < ms

/-- The lines of the log that count, in order. -/
def logLines (log : List (Level × String)) : List String :=
  (log.filterMap fun (level, text) =>
    match level with
    | .warn | .error => some (level.name ++ " " ++ text)
    | _ => none).mergeSort

/-- Wait for an operation that comes to its end before `wait` milliseconds are over; if it does not,
it goes on as pending. -/
def waitFor (s : Session) (b : Begun) (wait : Nat) : Session × Answer × Option Nat :=
  let start := s.world.now
  let (s, result) :=
    match wait with
    | 0 => (s, Sum.inl (some b.operation))
    | most + 1 => await (start + most) patience s (some b.operation)
  match result with
  | .inr a =>
    let ms := s.world.now - start
    (s, a, if isTimed b.timing a ms then some ms else none)
  | .inl op =>
    let n := s.issued + 1
    ({ s with
      world := { s.world with now := start + wait }
      issued := n
      pending := s.pending ++ [(n, op.getD b.operation)] }, .pending n, none)

/-- What happened since the last report, each source by itself. -/
def news (s : Session) : List (String × News) :=
  let seen := s.world.events.map fun e => (e.1, News.happened e.2)
  let late := s.late.map fun l => ("pending " ++ toString l.1, News.late l.2)
  (seen ++ late).mergeSort fun a b => a.1 ≤ b.1

/-- The world goes on as if nothing had been reported yet. -/
def reported (s : Session) : Session :=
  { s with world := { s.world with events := [], log := [] }, late := [] }

/-- A step, after which a millisecond passes. -/
def take (s : Session) (step : Step) (wait : Nat) : Session × Entry :=
  let (s, answer, ms) :=
    match s.begin step with
    | (s, .inr (a, ms)) => (s, a, ms)
    | (s, .inl b) => s.waitFor b wait
  let s := s.pass 1
  (s.reported, { answer := answer, ms := ms, events := s.news, log := logLines s.world.log })

/-- All steps, each with how long it waits. -/
def run (s : Session) : List (Step × Nat) → List Entry
  | [] => []
  | (step, wait) :: rest =>
    let (s, entry) := s.take step wait
    entry :: run s rest

end Session

end RespClient.Simulation
