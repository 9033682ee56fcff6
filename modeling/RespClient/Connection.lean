import RespClient.Error

namespace RespClient

inductive Request (τ : Type) where
  | command (ticket : τ) (frame : Bytes)
  | pause
  | resume
  | close

def Request.ticket? {τ : Type} : Request τ → Option τ
  | .command t _ => some t
  | _ => none

/-- One pipelined connection to a server. Requests wait in a queue; a turn takes up all of them, writes their
frames at once and moves their tickets to the outstanding ones, so that queue order, write order and reply
order are the same and the oldest outstanding ticket owns the next reply. A reply with no outstanding ticket
is a message. -/
structure Connection (τ : Type) where
  /-- Submitted and not yet taken up. -/
  queue : List (Request τ) := []
  /-- Tickets of the frames that were written and not yet answered, oldest first. -/
  outstanding : List τ := []
  decoder : Reply.Decoder := {}
  buffer : Bytes := []
  paused : Bool := false
  ended : Bool := false

namespace Connection

variable {τ : Type}

inductive Effect (τ : Type) where
  | write (frames : Bytes)
  | complete (ticket : τ) (outcome : Outcome)
  | message (r : Reply)
  /-- The socket is given up. -/
  | shutdown
  /-- The failure handler runs. -/
  | failed (e : ClientError)
  /-- The end handler runs. -/
  | finished

inductive Event (τ : Type) where
  | submit (r : Request τ)
  /-- The queue is taken up: `held` if some handle is left, `writable` if the socket takes bytes. -/
  | turn (held writable : Bool)
  | received (bs : Bytes)
  | endOfStream
  | readFailure (f : SocketFailure)

/-- A command that can no more be answered. -/
def refuse (t : τ) : Effect τ := .complete t (.error .connectionClosed)

/-- The end: everything queued or outstanding fails, then the handlers run. -/
def terminate (c : Connection τ) (cause : Option ClientError) : Connection τ × List (Effect τ) :=
  ({ c with queue := [], outstanding := [], ended := true },
    (c.queue.filterMap Request.ticket?).map refuse ++ c.outstanding.map refuse ++ [.shutdown] ++
      (cause.map Effect.failed).toList ++ [.finished])

def submit (c : Connection τ) (r : Request τ) : Connection τ × List (Effect τ) :=
  if c.ended then (c, (r.ticket?.map refuse).toList)
  else ({ c with queue := c.queue ++ [r] }, [])

/-- The frames of a batch of requests, gathered behind `frames`; a close leaves the rest in the queue
and is reported. -/
def gather (c : Connection τ) (frames : Bytes) : List (Request τ) → Connection τ × Bytes × Bool
  | [] => ({ c with queue := [] }, frames, false)
  | .command t f :: rest =>
    gather { c with outstanding := c.outstanding ++ [t] } (frames ++ f) rest
  | .pause :: rest => gather { c with paused := true } frames rest
  | .resume :: rest => gather { c with paused := false } frames rest
  | .close :: rest => ({ c with queue := rest }, frames, true)

/-- Take up the queue. Frames gathered before a close, or when no handle is left, are not written. -/
def turn (c : Connection τ) (held writable : Bool) : Connection τ × List (Effect τ) :=
  match gather c [] c.queue with
  | (c, frames, closing) =>
    if closing || !held then terminate c none
    else if frames.isEmpty then (c, [])
    else if writable then (c, [.write frames])
    else terminate c (some (.ofSocket .brokenPipe))

/-- Replies go to the outstanding tickets in order, and are messages when none is left. -/
def deliver : List τ → List Reply → List τ × List (Effect τ)
  | ts, [] => (ts, [])
  | [], r :: rs => ([], .message r :: (deliver [] rs).2)
  | t :: ts, r :: rs =>
    let (left, effects) := deliver ts rs
    (left, .complete t (Outcome.ofReply r) :: effects)

/-- Bytes arrive: every reply that is complete is delivered before a malformed one ends all. -/
def receive (c : Connection τ) (bs : Bytes) : Connection τ × List (Effect τ) :=
  let drained := c.decoder.drain (c.buffer ++ bs)
  let (left, effects) := deliver c.outstanding drained.replies
  let c := { c with outstanding := left, decoder := drained.decoder, buffer := drained.rest }
  match drained.failure with
  | none => (c, effects)
  | some m =>
    let (c, last) := c.terminate (some (.ofMalformed m))
    (c, effects ++ last)

/-- An ended connection only refuses. -/
def step (c : Connection τ) : Event τ → Connection τ × List (Effect τ)
  | .submit r => c.submit r
  | .turn held writable => if c.ended then (c, []) else c.turn held writable
  | .received bs => if c.ended then (c, []) else c.receive bs
  | .endOfStream => if c.ended then (c, []) else c.terminate none
  | .readFailure f => if c.ended then (c, []) else c.terminate (some (.ofSocket f))

/-- Events one after the other, with all their effects in order. -/
def run (c : Connection τ) : List (Event τ) → Connection τ × List (Effect τ)
  | [] => (c, [])
  | e :: es =>
    let (c, effects) := c.step e
    let (c, later) := run c es
    (c, effects ++ later)

/-- There is something to take up: requests, or the loss of the last handle. -/
def wantsTurn (c : Connection τ) (held : Bool) : Bool := !c.ended && (!c.queue.isEmpty || !held)

end Connection

end RespClient
