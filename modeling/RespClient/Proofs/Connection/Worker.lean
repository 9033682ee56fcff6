import RespClient.Proofs.Connection.Step

namespace RespClient.Connection

variable {τ : Type}

/-- How far the end has come. -/
inductive Phase where
  | left
  /-- The connection shows itself as closed, and its queue still takes requests. -/
  | flagged
  /-- The queue takes nothing more, and what is in it is refused. -/
  | sealed
  /-- The queue is empty, and the outstanding commands are refused. -/
  | drained
  | released
  /-- The socket is given up. -/
  | shut
  /-- The failure handler has run, if the end had a cause. -/
  | reported
  | gone
  deriving DecidableEq

inductive Stage where
  /-- Nothing is gathered; the task waits for requests and for bytes. -/
  | idle
  | gathering
  /-- The frames gathered are on their way. -/
  | writing
  | ending (phase : Phase) (cause : Option ClientError)

def Stage.Serves : Stage → Prop
  | ending _ _ => False
  | _ => True

structure Worker (τ : Type) where
  connection : Connection τ := {}
  /-- Frames that were gathered and not yet written. -/
  unsent : Bytes := []
  stage : Stage := .idle

namespace Worker

inductive Move (τ : Type) where
  | submit (r : Request τ)
  /-- The task goes on by itself: `held` if some handle is left. -/
  | advance (held : Bool)
  /-- The write under way is over. -/
  | wrote (failure : Option SocketFailure)
  | received (bs : Bytes)
  | endOfStream
  | readFailure (f : SocketFailure)

def leave (w : Worker τ) (cause : Option ClientError) : Worker τ :=
  { w with stage := .ending .left cause }

def submit (w : Worker τ) (r : Request τ) : Worker τ × List (Effect τ) :=
  let queued := { w with connection := { w.connection with queue := w.connection.queue ++ [r] } }
  match w.stage with
  | .ending .left _ | .ending .flagged _ => (queued, [])
  | .ending _ _ => (w, r.ticket?.toList.map refuse)
  | _ => (queued, [])

def accept (w : Worker τ) (rest : List (Request τ)) : Request τ → Worker τ
  | .command t f =>
    { connection :=
        { w.connection with queue := rest, outstanding := w.connection.outstanding ++ [t] }
      unsent := w.unsent ++ f
      stage := .gathering }
  | .pause =>
    { w with connection := { w.connection with queue := rest, paused := true }, stage := .gathering }
  | .resume =>
    { w with connection := { w.connection with queue := rest, paused := false }, stage := .gathering }
  | .close => leave { w with connection := { w.connection with queue := rest } } none

/-- With nothing queued the frames gathered are written; with no handle left the task ends. -/
def gather (w : Worker τ) (held : Bool) : Worker τ :=
  match w.connection.queue with
  | r :: rest => w.accept rest r
  | [] =>
    if held then { w with stage := if w.unsent.isEmpty then .idle else .writing } else w.leave none

/-- The end goes on by one command refused, or by one phase. -/
def wind (w : Worker τ) (cause : Option ClientError) : Phase → Worker τ × List (Effect τ)
  | .left =>
    ({ w with connection := { w.connection with ended := true }, stage := .ending .flagged cause },
      [])
  | .flagged => ({ w with stage := .ending .sealed cause }, [])
  | .sealed =>
    match w.connection.queue with
    | r :: rest =>
      ({ w with connection := { w.connection with queue := rest } }, r.ticket?.toList.map refuse)
    | [] => ({ w with stage := .ending .drained cause }, [])
  | .drained =>
    match w.connection.outstanding with
    | t :: ts => ({ w with connection := { w.connection with outstanding := ts } }, [refuse t])
    | [] => ({ w with stage := .ending .released cause }, [])
  | .released => ({ w with stage := .ending .shut cause }, [.shutdown])
  | .shut => ({ w with stage := .ending .reported cause }, (cause.map Effect.failed).toList)
  | .reported => ({ w with stage := .ending .gone cause }, [.finished])
  | .gone => (w, [])

def advance (w : Worker τ) (held : Bool) : Worker τ × List (Effect τ) :=
  match w.stage with
  | .idle | .gathering => (w.gather held, [])
  | .writing => (w, [])
  | .ending phase cause => w.wind cause phase

/-- Every reply that is complete is delivered, and malformed bytes behind them are the end. -/
def receive (w : Worker τ) (bs : Bytes) : Worker τ × List (Effect τ) :=
  let drained := w.connection.decoder.drain (w.connection.buffer ++ bs)
  let (left, effects) := deliver w.connection.outstanding drained.replies
  let w := { w with
    connection := { w.connection with
      outstanding := left, decoder := drained.decoder, buffer := drained.rest } }
  match drained.failure with
  | none => (w, effects)
  | some m => (w.leave (some (.ofMalformed m)), effects)

/-- A move that is not the task's to make now does nothing. -/
def step (w : Worker τ) : Move τ → Worker τ × List (Effect τ)
  | .submit r => w.submit r
  | .advance held => w.advance held
  | .wrote failure =>
    match w.stage, failure with
    | .writing, none => ({ w with unsent := [], stage := .idle }, [.write w.unsent])
    | .writing, some f => (w.leave (some (.ofSocket f)), [])
    | _, _ => (w, [])
  | .received bs =>
    match w.stage with
    | .idle => w.receive bs
    | _ => (w, [])
  | .endOfStream =>
    match w.stage with
    | .idle => (w.leave none, [])
    | _ => (w, [])
  | .readFailure f =>
    match w.stage with
    | .idle => (w.leave (some (.ofSocket f)), [])
    | _ => (w, [])

def run (w : Worker τ) : List (Move τ) → Worker τ × List (Effect τ)
  | [] => (w, [])
  | m :: ms =>
    let (w, effects) := w.step m
    let (w, later) := run w ms
    (w, effects ++ later)

theorem run_append (w : Worker τ) (ms ns : List (Move τ)) :
    w.run (ms ++ ns) = (((w.run ms).1.run ns).1, (w.run ms).2 ++ ((w.run ms).1.run ns).2) := by
  induction ms generalizing w with
  | nil => simp [run]
  | cons m ms ih => simp [run, ih]

/-- Some moves lead from one worker to another, with these effects in all. -/
def Leads (w : Worker τ) (fx : List (Effect τ)) (v : Worker τ) : Prop :=
  ∃ ms, w.run ms = (v, fx)

theorem Leads.refl (w : Worker τ) : Leads w [] w := ⟨[], rfl⟩

theorem Leads.of_step {w v : Worker τ} {fx : List (Effect τ)} (m : Move τ)
    (h : w.step m = (v, fx)) : Leads w fx v :=
  ⟨[m], by simp [run, h]⟩

theorem Leads.trans {w v u : Worker τ} {fx gx : List (Effect τ)} (h : Leads w fx v)
    (h' : Leads v gx u) : Leads w (fx ++ gx) u := by
  obtain ⟨ms, hm⟩ := h
  obtain ⟨ns, hn⟩ := h'
  exact ⟨ms ++ ns, by rw [run_append, hm, hn]⟩

/-- What is left of a batch is taken up. -/
def Gathers (rs : List (Request τ)) (stage : Stage) : Prop :=
  ∀ (c : Connection τ) (unsent : Bytes),
    let g := Connection.gather c unsent rs
    Leads ⟨{ c with queue := rs }, unsent, stage⟩ []
      ⟨g.1, g.2.1, if g.2.2 then .ending .left none else .gathering⟩

theorem Gathers.cons {rest : List (Request τ)} (h : Gathers rest .gathering) (r : Request τ)
    {stage : Stage} (hstage : stage = .idle ∨ stage = .gathering) :
    Gathers (r :: rest) stage := by
  intro c unsent
  have hfirst : Leads ⟨{ c with queue := r :: rest }, unsent, stage⟩ []
      (accept ⟨{ c with queue := r :: rest }, unsent, stage⟩ rest r) :=
    Leads.of_step (.advance true) (by obtain rfl | rfl := hstage <;> rfl)
  cases r with
  | command t f => exact hfirst.trans (h { c with outstanding := c.outstanding ++ [t] } _)
  | pause => exact hfirst.trans (h { c with paused := true } _)
  | resume => exact hfirst.trans (h { c with paused := false } _)
  | close => exact hfirst

theorem gathers (rs : List (Request τ)) : Gathers rs .gathering := by
  induction rs with
  | nil => exact fun c unsent => Leads.refl _
  | cons r rest ih => exact ih.cons r (.inr rfl)

theorem leads_sealed (c : Connection τ) (unsent : Bytes) (cause : Option ClientError)
    (rs : List (Request τ)) :
    Leads ⟨{ c with queue := rs }, unsent, .ending .sealed cause⟩
      ((rs.filterMap Request.ticket?).map refuse)
      ⟨{ c with queue := [] }, unsent, .ending .drained cause⟩ := by
  induction rs with
  | nil => exact Leads.of_step (.advance true) rfl
  | cons r rest ih =>
    have hfirst : Leads ⟨{ c with queue := r :: rest }, unsent, .ending .sealed cause⟩
        (r.ticket?.toList.map refuse)
        ⟨{ c with queue := rest }, unsent, .ending .sealed cause⟩ :=
      Leads.of_step (.advance true) rfl
    cases r <;> exact hfirst.trans ih

theorem leads_drained (c : Connection τ) (unsent : Bytes) (cause : Option ClientError)
    (ts : List τ) :
    Leads ⟨{ c with outstanding := ts }, unsent, .ending .drained cause⟩ (ts.map refuse)
      ⟨{ c with outstanding := [] }, unsent, .ending .released cause⟩ := by
  induction ts with
  | nil => exact Leads.of_step (.advance true) rfl
  | cons t ts ih =>
    have hfirst : Leads ⟨{ c with outstanding := t :: ts }, unsent, .ending .drained cause⟩
        [refuse t] ⟨{ c with outstanding := ts }, unsent, .ending .drained cause⟩ :=
      Leads.of_step (.advance true) rfl
    exact hfirst.trans ih

/-- The phases of the end, one after the other, are the end of the connection. -/
theorem leads_terminate (c : Connection τ) (unsent : Bytes) (cause : Option ClientError) :
    Leads ⟨c, unsent, .ending .left cause⟩ (c.terminate cause).2
      ⟨(c.terminate cause).1, unsent, .ending .gone cause⟩ := by
  let d : Connection τ := { c with ended := true }
  let e : Connection τ := { d with queue := [], outstanding := [] }
  have hflag : Leads ⟨c, unsent, .ending .left cause⟩ [] ⟨d, unsent, .ending .flagged cause⟩ :=
    Leads.of_step (.advance true) rfl
  have hseal : Leads ⟨d, unsent, .ending .flagged cause⟩ [] ⟨d, unsent, .ending .sealed cause⟩ :=
    Leads.of_step (.advance true) rfl
  have hdrain := leads_sealed d unsent cause c.queue
  have hfail := leads_drained { d with queue := [] } unsent cause c.outstanding
  have hshut : Leads ⟨e, unsent, .ending .released cause⟩ [.shutdown]
      ⟨e, unsent, .ending .shut cause⟩ :=
    Leads.of_step (.advance true) rfl
  have hreport : Leads ⟨e, unsent, .ending .shut cause⟩ (cause.map Effect.failed).toList
      ⟨e, unsent, .ending .reported cause⟩ :=
    Leads.of_step (.advance true) rfl
  have hover : Leads ⟨e, unsent, .ending .reported cause⟩ [.finished]
      ⟨e, unsent, .ending .gone cause⟩ :=
    Leads.of_step (.advance true) rfl
  have h := (hflag.trans hseal).trans
    ((((hdrain.trans hfail).trans hshut).trans hreport).trans hover)
  exact h

def Rests (w : Worker τ) : Prop :=
  (w.stage = .idle ∧ w.unsent = [] ∧ w.connection.ended = false) ∨
    ∃ cause, w.stage = .ending .gone cause ∧ w.connection.ended = true

/-- The worker can do what the connection does by an event. -/
def Performs (w : Worker τ) (x : Connection τ × List (Effect τ)) : Prop :=
  ∃ v, Rests v ∧ v.connection = x.1 ∧ Leads w x.2 v

theorem Performs.of_left {w : Worker τ} {d : Connection τ} {cause : Option ClientError}
    (unsent : Bytes) (fx : List (Effect τ)) (h : Leads w fx ⟨d, unsent, .ending .left cause⟩) :
    Performs w ((d.terminate cause).1, fx ++ (d.terminate cause).2) :=
  ⟨_, .inr ⟨cause, rfl, rfl⟩, rfl, h.trans (leads_terminate d unsent cause)⟩

theorem Performs.of_idle {w : Worker τ} {d : Connection τ} {fx : List (Effect τ)}
    (hd : d.ended = false) (h : Leads w fx ⟨d, [], .idle⟩) : Performs w (d, fx) :=
  ⟨_, .inl ⟨rfl, rfl, hd⟩, rfl, h⟩

theorem gather_ended (c : Connection τ) (frames : Bytes) (rs : List (Request τ)) :
    (Connection.gather c frames rs).1.ended = c.ended := by
  induction rs generalizing c frames with
  | nil => rfl
  | cons r rs ih => cases r <;> first | rfl | exact ih _ _

/-- The batch that a turn takes up: all that is queued, or what stands before a close. -/
theorem leads_batch (c : Connection τ) :
    let g := Connection.gather c [] c.queue
    ∃ stage, (stage = .idle ∨ stage = .gathering) ∧
      Leads ⟨c, [], .idle⟩ [] ⟨g.1, g.2.1, if g.2.2 then .ending .left none else stage⟩ := by
  cases hq : c.queue with
  | nil =>
    have hc : c = { c with queue := [] } := by rw [← hq]
    refine ⟨.idle, .inl rfl, ?_⟩
    rw [hc]
    exact Leads.refl _
  | cons r rest =>
    have hc : c = { c with queue := r :: rest } := by rw [← hq]
    refine ⟨.gathering, .inr rfl, ?_⟩
    have h := (gathers rest).cons r (.inl rfl) c []
    rwa [← hc] at h

theorem performs_turn (c : Connection τ) (hc : c.ended = false) (held writable : Bool) :
    Performs ⟨c, [], .idle⟩ (c.turn held writable) := by
  obtain ⟨stage, hstage, hbatch⟩ := leads_batch c
  have hended := gather_ended c [] c.queue
  have hqueue := gather_open c [] c.queue
  rcases hg : Connection.gather c [] c.queue with ⟨d, frames, closing⟩
  rw [hg] at hbatch hended hqueue
  cases closing with
  | true =>
    have ht : c.turn held writable = d.terminate none := by simp [turn, hg]
    rw [ht]
    exact Performs.of_left _ _ hbatch
  | false =>
    obtain ⟨paused, hd⟩ := hqueue rfl
    have hempty : d.queue = [] := by rw [show d = _ from congrArg Prod.fst hd]
    have hstep : ∀ held', step ⟨d, frames, stage⟩ (.advance held') =
        (if held' then ⟨d, frames, if frames.isEmpty then .idle else .writing⟩
          else ⟨d, frames, .ending .left none⟩, []) := by
      intro held'
      obtain rfl | rfl := hstage <;> cases held' <;> simp [step, advance, gather, hempty, leave]
    have hnext := hbatch.trans (Leads.of_step _ (hstep held))
    cases held with
    | false =>
      have ht : c.turn false writable = d.terminate none := by simp [turn, hg]
      rw [ht]
      exact Performs.of_left _ _ hnext
    | true =>
      have hd' : d.ended = false := hended.trans hc
      cases frames with
      | nil =>
        have ht : c.turn true writable = (d, []) := by simp [turn, hg]
        rw [ht]
        exact Performs.of_idle hd' hnext
      | cons b bs =>
        cases writable with
        | true =>
          have ht : c.turn true true = (d, [.write (b :: bs)]) := by simp [turn, hg]
          rw [ht]
          exact Performs.of_idle hd' (hnext.trans (Leads.of_step (.wrote none) rfl))
        | false =>
          have ht : c.turn true false = d.terminate (some (.ofSocket .brokenPipe)) := by
            simp [turn, hg]
          rw [ht]
          exact Performs.of_left _ _ (hnext.trans (Leads.of_step (.wrote (some .brokenPipe)) rfl))

theorem performs_receive (c : Connection τ) (hc : c.ended = false) (bs : Bytes) :
    Performs ⟨c, [], .idle⟩ (c.receive bs) := by
  rcases receive_cases c bs with ⟨hx, hr⟩ | ⟨m, hx, hr⟩
  · rw [hr]
    refine Performs.of_idle hc (Leads.of_step (.received bs) ?_)
    simp only [step, receive, deliver_eq, hx]
    rfl
  · rw [hr]
    refine Performs.of_left [] _ (Leads.of_step (.received bs) ?_)
    simp only [step, receive, deliver_eq, hx]
    rfl

theorem performs_step (w : Worker τ) (hw : Rests w) (e : Event τ) :
    Performs w (w.connection.step e) := by
  obtain ⟨c, unsent, stage⟩ := w
  rcases hw with ⟨hs, hu, hc⟩ | ⟨cause, hs, hc⟩
  · cases hs
    cases hu
    change c.ended = false at hc
    cases e with
    | submit r =>
      rw [step_submit hc]
      exact Performs.of_idle hc (Leads.of_step (.submit r) rfl)
    | turn held writable =>
      rw [step_turn hc]
      exact performs_turn c hc held writable
    | received bs =>
      rw [step_received hc]
      exact performs_receive c hc bs
    | endOfStream =>
      have hs : c.step .endOfStream = c.terminate none := by simp [Connection.step, hc]
      rw [hs]
      exact Performs.of_left [] [] (Leads.of_step .endOfStream rfl)
    | readFailure f =>
      have hs : c.step (.readFailure f) = c.terminate (some (.ofSocket f)) := by
        simp [Connection.step, hc]
      rw [hs]
      exact Performs.of_left [] [] (Leads.of_step (.readFailure f) rfl)
  · cases hs
    change c.ended = true at hc
    have hrests : Rests (⟨c, unsent, .ending .gone cause⟩ : Worker τ) := .inr ⟨cause, rfl, hc⟩
    cases e with
    | submit r =>
      have hs : c.step (.submit r) = (c, r.ticket?.toList.map refuse) := by
        cases r <;> simp [Connection.step, Connection.submit, hc, Request.ticket?]
      rw [hs]
      exact ⟨_, hrests, rfl, Leads.of_step (.submit r) rfl⟩
    | turn | received | endOfStream | readFailure =>
      refine ⟨_, hrests, ?_, ?_⟩
      · simp [Connection.step, hc]
      · simpa [Connection.step, hc] using Leads.refl _

/-- Every run of a connection is a run of its worker. -/
theorem exists_run (es : List (Event τ)) : ∃ ms v, run {} ms = (v, (Connection.run {} es).2) ∧
    v.connection = (Connection.run {} es).1 := by
  have hall : ∀ w : Worker τ, Rests w →
      Performs w (Connection.run w.connection es) := by
    induction es with
    | nil => exact fun w hw => ⟨w, hw, rfl, Leads.refl w⟩
    | cons e es ih =>
      intro w hw
      obtain ⟨v, hv, hstep, hfirst⟩ := performs_step w hw e
      obtain ⟨u, hu, hrun, hlater⟩ := ih v hv
      rw [hstep] at hrun hlater
      exact ⟨u, hu, hrun, hfirst.trans hlater⟩
  obtain ⟨v, -, hv, ms, hm⟩ := hall {} (.inl ⟨rfl, rfl, rfl⟩)
  exact ⟨ms, v, hm, hv⟩

end Worker

end RespClient.Connection
