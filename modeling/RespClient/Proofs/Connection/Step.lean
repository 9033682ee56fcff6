import RespClient.Connection
import RespClient.Proofs.Reply.Chunking

namespace RespClient

variable {τ : Type}

def Request.command? : Request τ → Option (τ × Bytes)
  | .command t f => some (t, f)
  | _ => none

theorem Outcome.ofReply_of_not_error {r : Reply} (h : r.isError = false) :
    Outcome.ofReply r = .ok r := by
  cases r with
  | error text => cases h
  | status | integer | bulk | multi => rfl

namespace Connection

def Effect.completion? : Effect τ → Option (τ × Outcome)
  | .complete t outcome => some (t, outcome)
  | _ => none

def Effect.message? : Effect τ → Option Reply
  | .message r => some r
  | _ => none

def Effect.frames : Effect τ → Bytes
  | .write frames => frames
  | _ => []

/-- The outcomes that tickets get, in order. -/
def completions (fx : List (Effect τ)) : List (τ × Outcome) := fx.filterMap Effect.completion?

def messages (fx : List (Effect τ)) : List Reply := fx.filterMap Effect.message?

def sent (fx : List (Effect τ)) : Bytes := fx.flatMap Effect.frames

@[simp] theorem completions_append (fx gx : List (Effect τ)) :
    completions (fx ++ gx) = completions fx ++ completions gx := List.filterMap_append

@[simp] theorem messages_append (fx gx : List (Effect τ)) :
    messages (fx ++ gx) = messages fx ++ messages gx := List.filterMap_append

@[simp] theorem sent_append (fx gx : List (Effect τ)) : sent (fx ++ gx) = sent fx ++ sent gx :=
  List.flatMap_append

/-- Nobody gets a reply, and a command that ends has no connection any more. -/
structure Refusing (fx : List (Effect τ)) : Prop where
  messages : messages fx = []
  refused : ∀ x ∈ completions fx, x.2 = .error .connectionClosed

theorem Refusing.nil : Refusing ([] : List (Effect τ)) := ⟨rfl, by simp [completions]⟩

/-- Replies in order for tickets in order; a reply that finds no ticket left is a message. -/
def answers (ts : List τ) (rs : List Reply) : List (Effect τ) :=
  (ts.zip rs).map (fun x => .complete x.1 (Outcome.ofReply x.2)) ++
    (rs.drop ts.length).map .message

@[simp] theorem answers_nil (ts : List τ) : answers ts [] = [] := by simp [answers]

theorem deliver_eq (ts : List τ) (rs : List Reply) :
    deliver ts rs = (ts.drop rs.length, answers ts rs) := by
  induction rs generalizing ts with
  | nil => rw [answers_nil]; cases ts <;> rfl
  | cons r rs ih =>
    cases ts with
    | nil => simp [deliver, answers, ih]
    | cons t ts => simp [deliver, answers, ih]

theorem completions_messages (rs : List Reply) :
    completions (rs.map (.message : Reply → Effect τ)) = [] := by
  simp [completions, Effect.completion?]

theorem completions_answers (ts : List τ) (rs : List Reply) :
    completions (answers ts rs) = (ts.zip rs).map fun x => (x.1, Outcome.ofReply x.2) := by
  rw [answers, completions_append, completions_messages, List.append_nil, completions,
    List.filterMap_map]
  exact congrFun List.filterMap_eq_map _

theorem messages_answers (ts : List τ) (rs : List Reply) :
    messages (answers ts rs) = rs.drop ts.length := by
  have hm : ∀ ms : List Reply, messages (ms.map (.message : Reply → Effect τ)) = ms := by
    intro ms
    rw [messages, List.filterMap_map]
    exact List.filterMap_some
  rw [answers, messages_append, hm]
  simp [messages, Effect.message?, Function.comp_def]

theorem sent_answers (ts : List τ) (rs : List Reply) : sent (answers ts rs) = [] := by
  rw [sent, List.flatMap_eq_nil_iff]
  intro e he
  rcases List.mem_append.1 he with hc | hm
  · obtain ⟨x, -, rfl⟩ := List.mem_map.1 hc
    rfl
  · obtain ⟨r, -, rfl⟩ := List.mem_map.1 hm
    rfl

def waiting (c : Connection τ) : List (τ × Bytes) := c.queue.filterMap Request.command?

theorem completions_refuse (ts : List τ) :
    completions (ts.map refuse) = ts.map fun t => (t, .error .connectionClosed) := by
  rw [completions, List.filterMap_map]
  exact congrFun List.filterMap_eq_map _

theorem refusing_refuse (ts : List τ) : Refusing (ts.map refuse) where
  messages := by simp [messages, refuse, Effect.message?]
  refused := by
    intro x hx
    rw [completions_refuse] at hx
    obtain ⟨t, -, rfl⟩ := List.mem_map.1 hx
    rfl

theorem Refusing.append {fx gx : List (Effect τ)} (h : Refusing fx) (h' : Refusing gx) :
    Refusing (fx ++ gx) where
  messages := by rw [messages_append, h.messages, h'.messages, List.append_nil]
  refused := by
    intro x hx
    rw [completions_append, List.mem_append] at hx
    exact hx.elim (h.refused x) (h'.refused x)

theorem sent_refuse (ts : List τ) : sent (ts.map refuse) = [] := by
  simp [sent, refuse, Effect.frames, List.flatMap_map]

theorem sent_terminate (c : Connection τ) (cause : Option ClientError) :
    sent (c.terminate cause).2 = [] := by
  rw [terminate, sent_append, sent_append, sent_append, sent_append, sent_refuse, sent_refuse]
  cases cause <;> rfl

theorem terminate_refusing (c : Connection τ) (cause : Option ClientError) :
    Refusing (c.terminate cause).2 := by
  have hlast : Refusing
      ([.shutdown] ++ (cause.map Effect.failed).toList ++ [.finished] : List (Effect τ)) := by
    cases cause <;> exact ⟨rfl, by simp [completions, Effect.completion?]⟩
  have h := ((refusing_refuse (c.queue.filterMap Request.ticket?)).append
    (refusing_refuse c.outstanding)).append hlast
  simpa only [terminate, List.append_assoc] using h

theorem gather_open (c : Connection τ) (frames : Bytes) (rs : List (Request τ))
    (h : (gather c frames rs).2.2 = false) :
    ∃ paused, gather c frames rs =
      ({ c with
          queue := []
          outstanding := c.outstanding ++ (rs.filterMap Request.command?).map Prod.fst
          paused := paused },
        frames ++ (rs.filterMap Request.command?).flatMap Prod.snd, false) := by
  induction rs generalizing c frames with
  | nil => exact ⟨c.paused, by simp [gather]⟩
  | cons r rs ih =>
    cases r with
    | command t f =>
      obtain ⟨paused, hg⟩ := ih _ _ h
      exact ⟨paused, by simp [gather, hg, Request.command?]⟩
    | pause => exact ih _ _ h
    | resume => exact ih _ _ h
    | close => cases h

def takeUp (c : Connection τ) (paused : Bool) : Connection τ :=
  { c with
    queue := []
    outstanding := c.outstanding ++ c.waiting.map Prod.fst
    paused := paused }

/-- A turn ends the connection, or it writes all that was queued and takes it up. -/
theorem turn_cases (c : Connection τ) (held writable : Bool) :
    (∃ d cause, c.turn held writable = terminate d cause) ∨
    ∃ paused fx, c.turn held writable = (c.takeUp paused, fx) ∧
      completions fx = [] ∧ messages fx = [] ∧ sent fx = c.waiting.flatMap Prod.snd := by
  rcases hg : gather c [] c.queue with ⟨d, frames, closing⟩
  by_cases hend : (closing || !held) = true
  · exact .inl ⟨d, none, by simp only [turn, hg, hend, if_true]⟩
  · have hopen : closing = false := by
      rw [Bool.or_eq_true, not_or] at hend
      simpa using hend.1
    obtain ⟨paused, h⟩ := gather_open c [] c.queue (by rw [hg]; exact hopen)
    rw [h, List.nil_append] at hg
    cases hg
    have hturn : c.turn held writable =
        if (c.waiting.flatMap Prod.snd).isEmpty then (c.takeUp paused, [])
        else if writable then (c.takeUp paused, [.write (c.waiting.flatMap Prod.snd)])
        else terminate (c.takeUp paused) (some (.ofSocket .brokenPipe)) := by
      simp only [turn, h, List.nil_append, hend, Bool.false_eq_true, if_false]
      rfl
    by_cases hf : (c.waiting.flatMap Prod.snd).isEmpty = true
    · rw [if_pos hf] at hturn
      exact .inr ⟨paused, [], hturn, rfl, rfl, (List.isEmpty_iff.1 hf).symm⟩
    · rw [if_neg hf] at hturn
      cases writable with
      | true => exact .inr ⟨paused, _, hturn, rfl, rfl, by simp [sent, Effect.frames]⟩
      | false => exact .inl ⟨_, _, hturn⟩

def Event.command? : Event τ → Option (τ × Bytes)
  | .submit r => r.command?
  | _ => none

/-- The commands whose frames an event writes. -/
def taken (c : Connection τ) : Event τ → List (τ × Bytes)
  | .turn held writable => if (c.step (.turn held writable)).1.ended then [] else c.waiting
  | _ => []

def intake (c : Connection τ) : Event τ → Bytes
  | .received bs => if c.ended then [] else bs
  | _ => []

/-- The replies that an event completes. -/
def arrivals (c : Connection τ) : Event τ → List Reply
  | .received bs => if c.ended then [] else (c.decoder.drain (c.buffer ++ bs)).replies
  | _ => []

theorem step_submit {c : Connection τ} (hc : c.ended = false) (r : Request τ) :
    c.step (.submit r) = ({ c with queue := c.queue ++ [r] }, []) := by
  simp [step, submit, hc]

theorem step_turn {c : Connection τ} (hc : c.ended = false) (held writable : Bool) :
    c.step (.turn held writable) = c.turn held writable := by
  simp [step, hc]

theorem step_received {c : Connection τ} (hc : c.ended = false) (bs : Bytes) :
    c.step (.received bs) = c.receive bs := by
  simp [step, hc]

theorem ended_of_step {c : Connection τ} {e : Event τ} (h : (c.step e).1.ended = false) :
    c.ended = false := by
  cases hc : c.ended with
  | false => rfl
  | true => cases e <;> simp [step, submit, hc] at h

def absorb (c : Connection τ) (x : Reply.Drained) : Connection τ :=
  { c with
    outstanding := c.outstanding.drop x.replies.length
    decoder := x.decoder
    buffer := x.rest }

/-- Bytes complete replies, and malformed ones behind them end the connection. -/
theorem receive_cases (c : Connection τ) (bs : Bytes) :
    let x := c.decoder.drain (c.buffer ++ bs)
    (x.failure = none ∧ c.receive bs = (c.absorb x, answers c.outstanding x.replies)) ∨
    ∃ m, x.failure = some m ∧ c.receive bs =
      (((c.absorb x).terminate (some (.ofMalformed m))).1,
        answers c.outstanding x.replies ++
          ((c.absorb x).terminate (some (.ofMalformed m))).2) := by
  intro x
  cases hx : x.failure with
  | none => exact .inl ⟨rfl, by simp only [receive, deliver_eq]; simp [absorb, x, hx]⟩
  | some m => exact .inr ⟨m, rfl, by simp [receive, deliver_eq, absorb, x, hx]⟩

theorem taken_of_ended {c : Connection τ} {e : Event τ} (h : (c.step e).1.ended = true) :
    c.taken e = [] := by
  cases e with
  | turn held writable => exact if_pos h
  | submit | received | endOfStream | readFailure => rfl

theorem step_ended {c : Connection τ} (e : Event τ) (h : c.ended = true) :
    (c.step e).1.ended = true := by
  cases hs : (c.step e).1.ended with
  | true => rfl
  | false => rw [ended_of_step hs] at h; cases h

theorem arrivals_of_ended {c : Connection τ} (e : Event τ) (h : c.ended = true) :
    c.arrivals e = [] := by
  cases e with
  | received bs => exact if_pos h
  | submit | turn | endOfStream | readFailure => rfl

/-- What an event does beside handing out replies: nobody gets a reply by it, and nobody gets
anything if the connection goes on. -/
structure Beside (c : Connection τ) (e : Event τ) (last : List (Effect τ)) : Prop where
  effects : (c.step e).2 = answers c.outstanding (c.arrivals e) ++ last
  refusing : Refusing last
  sent : sent last = (c.taken e).flatMap Prod.snd
  completions : (c.step e).1.ended = false → completions last = []

theorem beside_end {c : Connection τ} {e : Event τ} {last : List (Effect τ)}
    (heffects : (c.step e).2 = answers c.outstanding (c.arrivals e) ++ last) (hlast : Refusing last)
    (hsent : Connection.sent last = []) (hend : (c.step e).1.ended = true) : Beside c e last :=
  ⟨heffects, hlast, by rw [taken_of_ended hend, hsent]; rfl, fun h => by rw [hend] at h; cases h⟩

theorem beside_terminate {c : Connection τ} {e : Event τ} (d : Connection τ)
    (cause : Option ClientError) (h : c.step e = ((d.terminate cause).1,
      answers c.outstanding (c.arrivals e) ++ (d.terminate cause).2)) :
    Beside c e (d.terminate cause).2 :=
  beside_end (by rw [h]) (terminate_refusing d cause) (sent_terminate d cause) (by rw [h]; rfl)

theorem ended_effects {c : Connection τ} (e : Event τ) (hc : c.ended = true) :
    ∃ last, Beside c e last := by
  have ha := arrivals_of_ended e hc
  cases e with
  | submit r =>
    have hs : c.step (.submit r) = (c, r.ticket?.toList.map refuse) := by
      cases r <;> simp [step, submit, hc, Request.ticket?]
    refine ⟨_, beside_end ?_ (refusing_refuse r.ticket?.toList) (sent_refuse _) (by rw [hs, hc])⟩
    rw [hs, ha, answers_nil]
    rfl
  | turn | received | endOfStream | readFailure =>
    refine ⟨[], beside_end ?_ Refusing.nil rfl ?_⟩
    · rw [ha, answers_nil]
      simp [step, hc]
    · simp [step, hc]

/-- The replies that an event completes go to the outstanding tickets in order, and are messages
where no ticket is left; after them nobody gets a reply. -/
theorem step_effects (c : Connection τ) (e : Event τ) : ∃ last, Beside c e last := by
  cases hc : c.ended with
  | true => exact ended_effects e hc
  | false =>
    cases e with
    | submit r =>
      refine ⟨[], ?_, Refusing.nil, rfl, fun _ => rfl⟩
      rw [step_submit hc]
      simp [arrivals]
    | turn held writable =>
      have hs := step_turn hc held writable
      rcases turn_cases c held writable with ⟨d, cause, ht⟩ | ⟨paused, fx, ht, hcom, hmes, hsent⟩
      · exact ⟨_, beside_terminate d cause (by rw [hs, ht]; simp [arrivals])⟩
      · have htaken : c.taken (.turn held writable) = c.waiting := by
          rw [taken, hs, ht]
          exact if_neg (by simp [takeUp, hc])
        refine ⟨fx, ?_, ⟨hmes, by simp [hcom]⟩, ?_, fun _ => hcom⟩
        · rw [hs, ht]
          simp [arrivals]
        · rw [htaken, hsent]
    | received bs =>
      have hs := step_received hc bs
      have ha : c.arrivals (.received bs) = (c.decoder.drain (c.buffer ++ bs)).replies := by
        simp [arrivals, hc]
      rcases receive_cases c bs with ⟨-, hr⟩ | ⟨m, -, hr⟩
      · refine ⟨[], ?_, Refusing.nil, rfl, fun _ => rfl⟩
        rw [hs, hr, ha, List.append_nil]
      · exact ⟨_, beside_terminate _ _ (hs.trans (hr.trans (by rw [ha])))⟩
    | endOfStream => exact ⟨_, beside_terminate c _ (by simp [step, hc, arrivals]; rfl)⟩
    | readFailure f => exact ⟨_, beside_terminate c _ (by simp [step, hc, arrivals]; rfl)⟩

/-- What a step keeps in balance as long as the connection goes on. -/
structure Balanced (c : Connection τ) (e : Event τ) : Prop where
  /-- Commands leave the queue at its front, when they are written. -/
  queue : c.waiting ++ e.command?.toList = c.taken e ++ (c.step e).1.waiting
  /-- Tickets leave the outstanding ones at their front, when they are completed. -/
  outstanding : c.outstanding ++ (c.taken e).map Prod.fst =
    (completions (c.step e).2).map Prod.fst ++ (c.step e).1.outstanding
  /-- What was read is complete replies, and what the decoder and the buffer keep. -/
  decoder : c.decoder.decode c.buffer = (.more, c.decoder, c.buffer) →
    c.decoder.drain (c.buffer ++ c.intake e) =
      ⟨c.arrivals e, (c.step e).1.decoder, (c.step e).1.buffer, none⟩

theorem drain_idle {c : Connection τ}
    (h : c.decoder.decode c.buffer = (.more, c.decoder, c.buffer)) :
    c.decoder.drain (c.buffer ++ []) = ⟨[], c.decoder, c.buffer, none⟩ := by
  rw [List.append_nil, Reply.Decoder.drain_of_more h]

theorem map_fst_answered (ts : List τ) (rs : List Reply) :
    ((ts.zip rs).map fun x => (x.1, Outcome.ofReply x.2)).map Prod.fst = ts.take rs.length := by
  induction ts generalizing rs with
  | nil => simp
  | cons t ts ih => cases rs <;> simp [ih]

theorem step_balanced {c : Connection τ} {e : Event τ} (h : (c.step e).1.ended = false) :
    Balanced c e := by
  have hc := ended_of_step h
  cases e with
  | submit r =>
    refine ⟨?_, ?_, fun hd => ?_⟩ <;> rw [step_submit hc]
    · cases r <;> simp [waiting, taken, Event.command?, Request.command?]
    · simp [taken, completions]
    · exact drain_idle hd
  | turn held writable =>
    have hs := step_turn hc held writable
    have htaken : c.taken (.turn held writable) = c.waiting := by simp [taken, h]
    rcases turn_cases c held writable with ⟨d, cause, ht⟩ | ⟨paused, fx, ht, hcom, -, -⟩
    · rw [hs, ht] at h
      cases h
    · refine ⟨?_, ?_, fun hd => ?_⟩
      · rw [htaken, hs, ht]
        rfl
      · rw [htaken, hs, ht, hcom]
        rfl
      · rw [hs, ht]
        exact drain_idle hd
  | received bs =>
    have hs := step_received hc bs
    rcases receive_cases c bs with ⟨hx, hr⟩ | ⟨m, -, hr⟩
    · refine ⟨?_, ?_, fun _ => ?_⟩ <;> rw [hs, hr]
      · exact List.append_nil _
      · change c.outstanding ++ [] = _ ++ c.outstanding.drop _
        rw [completions_answers, map_fst_answered, List.take_append_drop, List.append_nil]
      · simp only [intake, arrivals, hc, Bool.false_eq_true, if_false, ← hx]
        rfl
    · rw [hs, hr] at h
      cases h
  | endOfStream => simp [step, hc, terminate] at h
  | readFailure f => simp [step, hc, terminate] at h

end Connection

end RespClient
