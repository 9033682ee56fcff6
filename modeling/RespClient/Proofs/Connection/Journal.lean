import Mathlib
import RespClient.Proofs.Connection.Correlation
import RespClient.Proofs.Connection.Worker

namespace RespClient.Connection

variable {τ : Type}

/-- The commands among some requests. -/
def commands (rs : List (Request τ)) : List (τ × Bytes) := rs.filterMap Request.command?

def tickets (rs : List (Request τ)) : List τ := (commands rs).map Prod.fst

@[simp] theorem commands_append (rs ss : List (Request τ)) :
    commands (rs ++ ss) = commands rs ++ commands ss := List.filterMap_append

@[simp] theorem tickets_append (rs ss : List (Request τ)) :
    tickets (rs ++ ss) = tickets rs ++ tickets ss := by simp [tickets]

theorem tickets_cons (r : Request τ) (rs : List (Request τ)) :
    tickets (r :: rs) = r.ticket?.toList ++ tickets rs := by
  cases r <;> rfl

def Effect.runsHandler : Effect τ → Bool
  | .failed _ | .finished => true
  | _ => false

def handled (fx : List (Effect τ)) : List (Effect τ) := fx.filter Effect.runsHandler

@[simp] theorem handled_append (fx gx : List (Effect τ)) :
    handled (fx ++ gx) = handled fx ++ handled gx := List.filter_append ..

theorem handled_answers (ts : List τ) (rs : List Reply) : handled (answers ts rs) = [] := by
  rw [handled, List.filter_eq_nil_iff]
  intro e he
  rcases List.mem_append.1 he with hc | hm
  · obtain ⟨x, -, rfl⟩ := List.mem_map.1 hc
    exact Bool.false_ne_true
  · obtain ⟨r, -, rfl⟩ := List.mem_map.1 hm
    exact Bool.false_ne_true

theorem handled_refuse (ts : List τ) : handled (ts.map refuse) = [] := by
  simp [handled, refuse, Effect.runsHandler]

/-- The handlers that have run when the end has come so far. -/
def Phase.handled (cause : Option ClientError) : Phase → List (Effect τ)
  | reported => (cause.map Effect.failed).toList
  | gone => (cause.map Effect.failed).toList ++ [.finished]
  | _ => []

def Phase.Emptied : Phase → Prop
  | left | flagged | sealed => False
  | _ => True

def Phase.Settled : Phase → Prop
  | left | flagged | sealed | drained => False
  | _ => True

namespace Worker

/-- What happens around a worker. A caller may stop waiting for its ticket, of which the worker is
not told. -/
inductive Incident (τ : Type) where
  | move (m : Move τ)
  | abandon (ticket : τ)

def Incident.move? : Incident τ → Option (Move τ)
  | .move m => some m
  | .abandon _ => none

def Move.request? : Move τ → Option (Request τ)
  | .submit r => some r
  | _ => none

/-- The request that a move takes up, unless it is the end. -/
def takes (w : Worker τ) : Move τ → Option (Request τ)
  | .advance _ =>
    match w.stage, w.connection.queue with
    | .idle, r :: _ | .gathering, r :: _ =>
      match r with
      | .close => none
      | r => some r
    | _, _ => none
  | _ => none

structure Journal (τ : Type) where
  worker : Worker τ := {}
  effects : List (Effect τ) := []
  /-- All that was submitted. -/
  requests : List (Request τ) := []
  /-- What was taken up of it. -/
  taken : List (Request τ) := []
  /-- The commands whose frames were written. -/
  written : List (τ × Bytes) := []
  abandoned : List τ := []
  /-- The outcomes that found their caller waiting. -/
  heard : List (τ × Outcome) := []

namespace Journal

def batch (j : Journal τ) : List (τ × Bytes) := (commands j.taken).drop j.written.length

/-- The commands whose frames a move writes: all that are gathered, when the worker comes to wait. -/
def writes (j : Journal τ) (m : Move τ) : List (τ × Bytes) :=
  match (j.worker.step m).1.stage with
  | .idle => j.batch
  | _ => []

variable [DecidableEq τ]

def step (j : Journal τ) : Incident τ → Journal τ
  | .move m =>
    { j with
      worker := (j.worker.step m).1
      effects := j.effects ++ (j.worker.step m).2
      requests := j.requests ++ m.request?.toList
      taken := j.taken ++ (j.worker.takes m).toList
      written := j.written ++ j.writes m
      heard := j.heard ++
        (completions (j.worker.step m).2).filter fun x => !j.abandoned.contains x.1 }
  | .abandon t => { j with abandoned := j.abandoned ++ [t] }

end Journal

/-- The journal of a new connection's worker. -/
def journal [DecidableEq τ] (is : List (Incident τ)) : Journal τ := is.foldl Journal.step {}

theorem journal_concat [DecidableEq τ] (is : List (Incident τ)) (i : Incident τ) :
    journal (is ++ [i]) = (journal is).step i := by
  rw [journal, List.foldl_append]
  rfl

/-- What holds as long as the worker serves. -/
structure Serving (j : Journal τ) : Prop where
  going : j.worker.connection.ended = false
  requests : j.requests = j.taken ++ j.worker.connection.queue
  close_not_mem : .close ∉ j.taken
  written : j.written <+: commands j.taken
  unsent : j.worker.unsent = j.batch.flatMap Prod.snd
  /-- A worker that waits has written all that it took up. -/
  idle : j.worker.stage = .idle → j.batch = []
  outstanding : tickets j.taken =
    (completions j.effects).map Prod.fst ++ j.worker.connection.outstanding
  outcomes : ∃ rs, rs.length ≤ j.written.length ∧ completions j.effects = answered j.written rs
  bytes : sent j.effects = j.written.flatMap Prod.snd
  handlers : handled j.effects = []

/-- What holds from the moment on at which the loop is left. -/
structure Ending (j : Journal τ) (p : Phase) (cause : Option ClientError) : Prop where
  taken : j.taken <+: j.requests
  close_not_mem : .close ∉ j.taken
  written : j.written <+: commands j.taken
  balance : (tickets j.requests).Perm ((completions j.effects).map Prod.fst ++
    (j.worker.connection.outstanding ++ tickets j.worker.connection.queue))
  outcomes : ∃ rs refused, rs.length ≤ j.written.length ∧
    completions j.effects = answered j.written rs ++ refused ∧
    ∀ x ∈ refused, x.2 = .error .connectionClosed
  bytes : sent j.effects = j.written.flatMap Prod.snd
  ended : p ≠ .left → j.worker.connection.ended = true
  queue : p.Emptied → j.worker.connection.queue = []
  outstanding : p.Settled → j.worker.connection.outstanding = []
  handlers : handled j.effects = p.handled cause

def Sound (j : Journal τ) : Prop :=
  match j.worker.stage with
  | .ending p cause => Ending j p cause
  | _ => Serving j

theorem Ending.sound {j : Journal τ} {p : Phase} {cause : Option ClientError}
    (e : Ending j p cause) (h : j.worker.stage = .ending p cause) : Sound j := by
  simp only [Sound, h]
  exact e

namespace Serving

theorem sound {j : Journal τ} (s : Serving j) (h : j.worker.stage.Serves) : Sound j := by
  unfold Sound
  cases hs : j.worker.stage with
  | idle | gathering | writing => exact s
  | ending p cause => rw [hs] at h; cases h

/-- Leaving the loop keeps all commands; a close that was queued is none. -/
theorem ending {j : Journal τ} (s : Serving j) {w : Worker τ} (cause : Option ClientError)
    (hout : w.connection.outstanding = j.worker.connection.outstanding)
    (hq : tickets w.connection.queue = tickets j.worker.connection.queue) :
    Ending { j with worker := w } .left cause := by
  obtain ⟨rs, hle, hcom⟩ := s.outcomes
  refine ⟨⟨_, s.requests.symm⟩, s.close_not_mem, s.written, ?_, ⟨rs, [], hle, ?_, by simp⟩, s.bytes,
    fun h => absurd rfl h, False.elim, False.elim, s.handlers⟩
  · change (tickets j.requests).Perm (_ ++ (w.connection.outstanding ++ tickets w.connection.queue))
    rw [s.requests, tickets_append, s.outstanding, hout, hq, List.append_assoc]
  · rw [List.append_nil]
    exact hcom

theorem submit {j : Journal τ} (s : Serving j) (r : Request τ) :
    Serving { j with
      worker := { j.worker with
        connection := { j.worker.connection with queue := j.worker.connection.queue ++ [r] } }
      requests := j.requests ++ [r] } :=
  { s with requests := by simp [s.requests] }

theorem accept {j : Journal τ} (s : Serving j) {r : Request τ} {rest : List (Request τ)}
    (hq : j.worker.connection.queue = r :: rest) (hr : r ≠ .close) :
    Serving { j with worker := j.worker.accept rest r, taken := j.taken ++ [r] } := by
  have hclose : .close ∉ j.taken ++ [r] := by
    simpa [s.close_not_mem] using hr.symm
  have hrequests : j.requests = (j.taken ++ [r]) ++ rest := by simp [s.requests, hq]
  have hbatch : (commands (j.taken ++ [r])).drop j.written.length = j.batch ++ commands [r] := by
    rw [commands_append, List.drop_append_of_le_length s.written.length_le]
    rfl
  have hwritten : j.written <+: commands (j.taken ++ [r]) := by
    rw [commands_append]
    exact s.written.trans (List.prefix_append _ _)
  have hbusy {batch : List (τ × Bytes)} (h : (j.worker.accept rest r).stage = .idle) : batch = [] := by
    cases r <;> cases h
  cases r with
  | command t f =>
    refine ⟨s.going, hrequests, hclose, hwritten, ?_, hbusy, ?_, s.outcomes, s.bytes, s.handlers⟩
    · change j.worker.unsent ++ f = List.flatMap Prod.snd (List.drop _ _)
      rw [hbatch, List.flatMap_append, s.unsent]
      simp [commands, Request.command?]
    · change tickets (j.taken ++ [.command t f]) = _ ++ (j.worker.connection.outstanding ++ [t])
      rw [tickets_append, s.outstanding, List.append_assoc]
      rfl
  | pause | resume =>
    refine ⟨s.going, hrequests, hclose, hwritten, ?_, hbusy, ?_, s.outcomes, s.bytes, s.handlers⟩
    · change j.worker.unsent = List.flatMap Prod.snd (List.drop _ _)
      rw [hbatch, List.flatMap_append, s.unsent]
      exact (List.append_nil _).symm
    · rw [tickets_append, s.outstanding]
      exact List.append_nil _
  | close => exact absurd rfl hr

/-- All that is gathered is written, and the worker waits. -/
theorem write {j : Journal τ} (s : Serving j) {fx : List (Effect τ)}
    (hfx : fx = [.write j.worker.unsent] ∨ fx = [] ∧ j.worker.unsent = []) :
    Serving { j with
      worker := { j.worker with unsent := [], stage := .idle }
      effects := j.effects ++ fx
      written := j.written ++ j.batch } := by
  have hall : j.written ++ j.batch = commands j.taken := by
    obtain ⟨later, h⟩ := s.written
    rw [Journal.batch, ← h, List.drop_left]
  have hcom : completions fx = [] := by
    rcases hfx with rfl | ⟨rfl, -⟩ <;> rfl
  have hbatch : (commands j.taken).drop (j.written ++ j.batch).length = [] := by
    rw [hall, List.drop_length]
  obtain ⟨rs, hle, hanswered⟩ := s.outcomes
  refine ⟨s.going, s.requests, s.close_not_mem, ?_, ?_, fun _ => hbatch, ?_, ⟨rs, ?_, ?_⟩, ?_, ?_⟩
  · exact hall ▸ List.prefix_rfl
  · change [] = List.flatMap Prod.snd (List.drop _ _)
    rw [hbatch]
    rfl
  · simp only [completions_append, hcom, List.append_nil]
    exact s.outstanding
  · simp only [List.length_append]
    omega
  · have h := answered_append j.written j.batch rs [] (by simpa using hle)
    simp only [completions_append, hcom, List.append_nil] at h ⊢
    rw [h, hanswered]
    simp
  · change sent (j.effects ++ fx) = (j.written ++ j.batch).flatMap Prod.snd
    rw [sent_append, s.bytes, List.flatMap_append, ← s.unsent]
    rcases hfx with rfl | ⟨rfl, hu⟩
    · simp [sent, Effect.frames]
    · rw [hu]
      rfl
  · change handled (j.effects ++ fx) = []
    rw [handled_append, s.handlers]
    rcases hfx with rfl | ⟨rfl, -⟩ <;> rfl

theorem zip_take {α β : Type} (as : List α) (bs : List β) :
    as.zip (bs.take as.length) = as.zip bs := by
  induction as generalizing bs with
  | nil => rfl
  | cons a as ih => cases bs <;> simp [ih]

/-- A worker that waits has outstanding what was written and has no outcome yet. -/
theorem outstanding_idle {j : Journal τ} (s : Serving j) (h : j.worker.stage = .idle) :
    j.worker.connection.outstanding =
      (j.written.map Prod.fst).drop (completions j.effects).length := by
  have hall : j.written = commands j.taken := by
    obtain ⟨later, hlater⟩ := s.written
    have hb := s.idle h
    rw [Journal.batch, ← hlater, List.drop_left] at hb
    rw [← hlater, hb, List.append_nil]
  have hlength : (completions j.effects).length = ((completions j.effects).map Prod.fst).length :=
    (List.length_map _).symm
  rw [hall, ← tickets, s.outstanding, hlength, List.drop_left]

theorem receive {j : Journal τ} (s : Serving j) (h : j.worker.stage = .idle) (x : Reply.Drained) :
    Serving { j with
      worker := { j.worker with connection := j.worker.connection.absorb x }
      effects := j.effects ++ answers j.worker.connection.outstanding x.replies } := by
  obtain ⟨rs, hle, hcom⟩ := s.outcomes
  have hout : j.worker.connection.outstanding = (j.written.map Prod.fst).drop rs.length := by
    rw [s.outstanding_idle h, hcom, answered]
    simp [hle]
  let more := x.replies.take j.worker.connection.outstanding.length
  have hmore : rs.length + more.length ≤ j.written.length := by
    simp only [more, hout, List.length_take, List.length_drop, List.length_map]
    omega
  have hanswered := answered_append j.written [] rs more hmore
  have hzip : j.worker.connection.outstanding.zip more =
      j.worker.connection.outstanding.zip x.replies := zip_take _ _
  refine ⟨s.going, s.requests, s.close_not_mem, s.written, s.unsent, s.idle, ?_,
    ⟨rs ++ more, by simpa using hmore, ?_⟩, ?_, ?_⟩
  · change tickets j.taken = _ ++ j.worker.connection.outstanding.drop x.replies.length
    rw [s.outstanding, completions_append, completions_answers, List.map_append,
      map_fst_answered, List.append_assoc, List.take_append_drop]
  · change completions (j.effects ++ _) = answered j.written (rs ++ more)
    rw [List.append_nil] at hanswered
    rw [completions_append, completions_answers, hcom, ← hzip, hout, hanswered]
  · change sent (j.effects ++ _) = _
    rw [sent_append, sent_answers, List.append_nil, s.bytes]
  · change handled (j.effects ++ _) = _
    rw [handled_append, handled_answers, List.append_nil, s.handlers]

/-- A worker whose frames are on their way does not wait. -/
theorem busy {j : Journal τ} (s : Serving j) :
    Serving { j with worker := { j.worker with stage := .writing } } :=
  { s with idle := nofun }

end Serving

theorem Sound.ofWaiting {j : Journal τ} (s : Sound j) (abandoned : List τ)
    (heard : List (τ × Outcome)) : Sound { j with abandoned := abandoned, heard := heard } := by
  obtain ⟨⟨c, unsent, stage⟩, effects, requests, taken, written, _, _⟩ := j
  cases stage with
  | idle | gathering | writing =>
    exact ⟨s.going, s.requests, s.close_not_mem, s.written, s.unsent, s.idle, s.outstanding,
      s.outcomes, s.bytes, s.handlers⟩
  | ending p cause =>
    exact ⟨s.taken, s.close_not_mem, s.written, s.balance, s.outcomes, s.bytes, s.ended, s.queue,
      s.outstanding, s.handlers⟩

section
variable [DecidableEq τ]

theorem sound_step {j : Journal τ} {m : Move τ} {w : Worker τ} {fx : List (Effect τ)}
    (hstep : j.worker.step m = (w, fx)) (r? : Option (Request τ)) (htakes : j.worker.takes m = r?)
    (ws : List (τ × Bytes)) (hwrites : j.writes m = ws)
    (s : Sound { j with
      worker := w
      effects := j.effects ++ fx
      requests := j.requests ++ m.request?.toList
      taken := j.taken ++ r?.toList
      written := j.written ++ ws }) : Sound (j.step (.move m)) := by
  have h := s.ofWaiting j.abandoned (j.step (.move m)).heard
  simpa only [Journal.step, hstep, htakes, hwrites] using h

namespace Serving

theorem step_gather {j : Journal τ} (s : Serving j)
    (hs : j.worker.stage = .idle ∨ j.worker.stage = .gathering) (held : Bool) :
    Sound (j.step (.move (.advance held))) := by
  have hstep : j.worker.step (.advance held) = (j.worker.gather held, []) := by
    obtain h | h := hs <;> simp only [Worker.step, advance, h]
  cases hq : j.worker.connection.queue with
  | nil =>
    have htakes : j.worker.takes (.advance held) = none := by
      obtain h | h := hs <;> simp [takes, h, hq]
    cases held with
    | false =>
      have hg : j.worker.gather false = j.worker.leave none := by simp [gather, hq]
      rw [hg] at hstep
      refine sound_step hstep _ htakes [] ?_ ?_
      · rw [Journal.writes, hstep]
        rfl
      · simpa [Move.request?] using (s.ending (w := j.worker.leave none) none rfl rfl).sound rfl
    | true =>
      cases hu : j.worker.unsent.isEmpty with
      | true =>
        have hu' := List.isEmpty_iff.1 hu
        have hg : j.worker.gather true = { j.worker with unsent := [], stage := .idle } := by
          simp [gather, hq, hu']
        rw [hg] at hstep
        refine sound_step hstep _ htakes j.batch ?_ ?_
        · rw [Journal.writes, hstep]
        · simpa [Move.request?] using (s.write (.inr ⟨rfl, hu'⟩)).sound trivial
      | false =>
        have hg : j.worker.gather true = { j.worker with stage := .writing } := by
          simp [gather, hq, hu]
        rw [hg] at hstep
        refine sound_step hstep _ htakes [] ?_ ?_
        · rw [Journal.writes, hstep]
        · simpa [Move.request?] using s.busy.sound trivial
  | cons r rest =>
    have hg : j.worker.gather held = j.worker.accept rest r := by simp only [gather, hq]
    rw [hg] at hstep
    by_cases hr : r = .close
    · subst hr
      have htakes : j.worker.takes (.advance held) = none := by
        obtain h | h := hs <;> simp [takes, h, hq]
      refine sound_step hstep _ htakes [] ?_ ?_
      · rw [Journal.writes, hstep]
        rfl
      · have h := s.ending (w := j.worker.accept rest .close) none rfl (by rw [hq, tickets_cons]; rfl)
        simpa [Move.request?] using h.sound rfl
    · have htakes : j.worker.takes (.advance held) = some r := by
        obtain h | h := hs <;> cases r <;> simp_all [takes]
      have hserves : (j.worker.accept rest r).stage = .gathering := by
        cases r <;> first | rfl | exact absurd rfl hr
      refine sound_step hstep _ htakes [] ?_ ?_
      · rw [Journal.writes, hstep, hserves]
      · simpa [Move.request?] using (s.accept hq hr).sound (by rw [hserves]; trivial)

/-- A move that is not the worker's to make now leaves all as it is. -/
theorem step_still {j : Journal τ} (s : Serving j) (hs : j.worker.stage.Serves) {m : Move τ}
    (hstep : j.worker.step m = (j.worker, [])) (htakes : j.worker.takes m = none)
    (hrequest : m.request? = none) : Sound (j.step (.move m)) := by
  have hwrites : j.writes m = [] := by
    rw [Journal.writes, hstep]
    cases h : j.worker.stage with
    | idle => exact s.idle h
    | gathering | writing | ending => rfl
  refine sound_step hstep _ htakes _ hwrites ?_
  simpa [hrequest] using s.sound hs

theorem step_leave {j : Journal τ} (s : Serving j) {m : Move τ} (cause : Option ClientError)
    (hstep : j.worker.step m = (j.worker.leave cause, [])) (htakes : j.worker.takes m = none)
    (hrequest : m.request? = none) : Sound (j.step (.move m)) := by
  refine sound_step hstep _ htakes [] ?_ ?_
  · rw [Journal.writes, hstep]
    rfl
  · simpa [hrequest] using (s.ending (w := j.worker.leave cause) cause rfl rfl).sound rfl

theorem step_received {j : Journal τ} (s : Serving j) (h : j.worker.stage = .idle) (bs : Bytes) :
    Sound (j.step (.move (.received bs))) := by
  let x := j.worker.connection.decoder.drain (j.worker.connection.buffer ++ bs)
  have hreceive := s.receive h x
  cases hx : x.failure with
  | none =>
    have hstep : j.worker.step (.received bs) =
        ({ j.worker with connection := j.worker.connection.absorb x },
          answers j.worker.connection.outstanding x.replies) := by
      simp only [Worker.step, h, Worker.receive, deliver_eq, x, hx]
      rfl
    refine sound_step hstep none rfl [] ?_ ?_
    · simp only [Journal.writes, hstep, h, s.idle h]
    · simpa [Move.request?] using hreceive.sound (by rw [h]; trivial)
  | some m =>
    have hstep : j.worker.step (.received bs) =
        (leave { j.worker with connection := j.worker.connection.absorb x }
            (some (.ofMalformed m)),
          answers j.worker.connection.outstanding x.replies) := by
      simp only [Worker.step, h, Worker.receive, deliver_eq, x, hx]
      rfl
    refine sound_step hstep none rfl [] ?_ ?_
    · rw [Journal.writes, hstep]
      rfl
    · have hleft := hreceive.ending (some (.ofMalformed m)) (w := leave
          { j.worker with connection := j.worker.connection.absorb x } (some (.ofMalformed m)))
        rfl rfl
      simpa [Move.request?] using hleft.sound rfl

theorem step_submit {j : Journal τ} (s : Serving j) (hs : j.worker.stage.Serves)
    (r : Request τ) : Sound (j.step (.move (.submit r))) := by
  have hsub := s.submit r
  have hstep : j.worker.step (.submit r) =
      ({ j.worker with
        connection := { j.worker.connection with queue := j.worker.connection.queue ++ [r] } },
        []) := by
    cases h : j.worker.stage with
    | idle | gathering | writing => simp only [Worker.step, Worker.submit, h]
    | ending => rw [h] at hs; cases hs
  refine sound_step hstep none rfl [] ?_ ?_
  · rw [Journal.writes, hstep]
    cases h : j.worker.stage with
    | idle => simpa [h] using s.idle h
    | gathering | writing | ending => rfl
  · simpa [Move.request?] using hsub.sound hs

theorem step_wrote {j : Journal τ} (s : Serving j) (h : j.worker.stage = .writing)
    (failure : Option SocketFailure) : Sound (j.step (.move (.wrote failure))) := by
  cases failure with
  | none =>
    have hstep : j.worker.step (.wrote none) =
        ({ j.worker with unsent := [], stage := .idle }, [.write j.worker.unsent]) := by
      simp only [Worker.step, h]
    refine sound_step hstep none rfl j.batch ?_ ?_
    · rw [Journal.writes, hstep]
    · simpa [Move.request?] using (s.write (.inl rfl)).sound trivial
  | some f =>
    exact s.step_leave (some (.ofSocket f)) (by simp only [Worker.step, h]) rfl rfl

theorem step {j : Journal τ} (s : Serving j) (hs : j.worker.stage.Serves) (m : Move τ) :
    Sound (j.step (.move m)) := by
  cases h : j.worker.stage with
  | ending p cause =>
    rw [h] at hs
    cases hs
  | idle =>
    cases m with
    | submit r => exact s.step_submit hs r
    | advance held => exact s.step_gather (.inl h) held
    | wrote failure => exact s.step_still hs (by simp only [Worker.step, h]) rfl rfl
    | received bs => exact s.step_received h bs
    | endOfStream => exact s.step_leave none (by simp only [Worker.step, h]) rfl rfl
    | readFailure f =>
      exact s.step_leave (some (.ofSocket f)) (by simp only [Worker.step, h]) rfl rfl
  | gathering =>
    cases m with
    | submit r => exact s.step_submit hs r
    | advance held => exact s.step_gather (.inr h) held
    | wrote | received | endOfStream | readFailure =>
      exact s.step_still hs (by simp only [Worker.step, h]) rfl rfl
  | writing =>
    cases m with
    | submit r => exact s.step_submit hs r
    | advance held =>
      exact s.step_still hs (by simp only [Worker.step, advance, h]) (by simp only [takes, h]) rfl
    | wrote failure => exact s.step_wrote h failure
    | received | endOfStream | readFailure =>
      exact s.step_still hs (by simp only [Worker.step, h]) rfl rfl

end Serving

end

namespace Ending

/-- A command is refused that stood first in the queue or among the outstanding ones, or that
comes too late for the queue. -/
theorem refuse {j : Journal τ} {p : Phase} {cause : Option ClientError} (e : Ending j p cause)
    {w : Worker τ} {ts : List τ} (late : List (Request τ))
    (hended : w.connection.ended = j.worker.connection.ended)
    (hq : p.Emptied → w.connection.queue = []) (ho : p.Settled → w.connection.outstanding = [])
    (hts : (j.worker.connection.outstanding ++ tickets j.worker.connection.queue ++
        tickets late).Perm
      (ts ++ (w.connection.outstanding ++ tickets w.connection.queue))) :
    Ending { j with
      worker := w
      effects := j.effects ++ ts.map Connection.refuse
      requests := j.requests ++ late } p cause := by
  obtain ⟨rs, refused, hle, hcom, hrefused⟩ := e.outcomes
  refine ⟨e.taken.trans (List.prefix_append _ _), e.close_not_mem, e.written, ?_,
    ⟨rs, refused ++ completions (ts.map Connection.refuse), hle, ?_, ?_⟩, ?_, ?_, hq, ho, ?_⟩
  · change (tickets (j.requests ++ late)).Perm
      ((completions (j.effects ++ ts.map Connection.refuse)).map Prod.fst ++ _)
    have hmap : (completions (ts.map Connection.refuse)).map Prod.fst = ts := by
      rw [completions_refuse, List.map_map]
      exact List.map_id _
    rw [tickets_append, completions_append, List.map_append, hmap, List.append_assoc]
    refine (e.balance.append_right (tickets late)).trans ?_
    rw [List.append_assoc]
    exact hts.append_left _
  · change completions (j.effects ++ _) = _
    rw [completions_append, hcom, List.append_assoc]
  · intro x hx
    rcases List.mem_append.1 hx with h | h
    · exact hrefused x h
    · exact (refusing_refuse ts).refused x h
  · change sent (j.effects ++ _) = _
    rw [sent_append, sent_refuse, List.append_nil, e.bytes]
  · intro hp
    rw [hended, e.ended hp]
  · change handled (j.effects ++ _) = _
    rw [handled_append, handled_refuse, List.append_nil, e.handlers]

theorem pass {j : Journal τ} {p : Phase} {cause : Option ClientError} (e : Ending j p cause)
    (p' : Phase) {c : Connection τ} {fx : List (Effect τ)} (hcom : completions fx = [])
    (hsent : sent fx = [])
    (hout : c.outstanding = j.worker.connection.outstanding)
    (hqueue : c.queue = j.worker.connection.queue)
    (hended : p' ≠ .left → c.ended = true)
    (hq : p'.Emptied → j.worker.connection.queue = [])
    (ho : p'.Settled → j.worker.connection.outstanding = [])
    (hhandled : p'.handled cause = p.handled cause ++ handled fx) :
    Sound { j with
      worker := { j.worker with connection := c, stage := .ending p' cause }
      effects := j.effects ++ fx } := by
  refine Ending.sound ⟨e.taken, e.close_not_mem, e.written, ?_, ?_, ?_, hended, ?_, ?_, ?_⟩ rfl
  · rw [completions_append, hcom, List.append_nil, hout, hqueue]
    exact e.balance
  · rw [completions_append, hcom, List.append_nil]
    exact e.outcomes
  · rw [sent_append, hsent, List.append_nil]
    exact e.bytes
  · rw [hqueue]
    exact hq
  · rw [hout]
    exact ho
  · rw [handled_append, e.handlers, hhandled]

theorem wind {j : Journal τ} {p : Phase} {cause : Option ClientError} (e : Ending j p cause)
    (hp : j.worker.stage = .ending p cause) :
    Sound { j with
      worker := (j.worker.wind cause p).1
      effects := j.effects ++ (j.worker.wind cause p).2 } := by
  have hended : p ≠ .left → ∀ p' : Phase, p' ≠ .left → j.worker.connection.ended = true :=
    fun h _ _ => e.ended h
  cases p with
  | left => exact e.pass .flagged rfl rfl rfl rfl (fun _ => rfl) nofun nofun rfl
  | flagged => exact e.pass .sealed rfl rfl rfl rfl (hended nofun .sealed) nofun nofun rfl
  | sealed =>
    cases hq : j.worker.connection.queue with
    | nil =>
      simp only [Worker.wind, hq]
      exact e.pass .drained rfl rfl rfl rfl (hended nofun .drained) (fun _ => hq) nofun rfl
    | cons r rest =>
      simp only [Worker.wind, hq]
      have hperm : (j.worker.connection.outstanding ++ tickets j.worker.connection.queue ++ []).Perm
          (r.ticket?.toList ++ (j.worker.connection.outstanding ++ tickets rest)) := by
        rw [hq, tickets_cons, List.append_nil, ← List.append_assoc, ← List.append_assoc]
        exact List.perm_append_comm.append_right _
      have h := e.refuse []
        (w := { j.worker with connection := { j.worker.connection with queue := rest } }) rfl
        nofun nofun hperm
      rw [List.append_nil] at h
      exact h.sound hp
  | drained =>
    cases ho : j.worker.connection.outstanding with
    | nil =>
      simp only [Worker.wind, ho]
      exact e.pass .released rfl rfl rfl rfl (hended nofun .released) (fun _ => e.queue trivial)
        (fun _ => ho) rfl
    | cons t ts =>
      simp only [Worker.wind, ho]
      have hperm : (j.worker.connection.outstanding ++ tickets j.worker.connection.queue ++ []).Perm
          ([t] ++ (ts ++ tickets j.worker.connection.queue)) := by
        rw [ho, List.append_nil]
        exact List.Perm.refl _
      have h := e.refuse []
        (w := { j.worker with connection := { j.worker.connection with outstanding := ts } }) rfl
        e.queue nofun hperm
      rw [List.append_nil] at h
      exact h.sound hp
  | released => exact e.pass .shut rfl rfl rfl rfl (hended nofun .shut) e.queue e.outstanding rfl
  | shut =>
    refine e.pass .reported ?_ ?_ rfl rfl (fun _ => e.ended nofun) e.queue e.outstanding ?_
      <;> cases cause <;> rfl
  | reported => exact e.pass .gone rfl rfl rfl rfl (hended nofun .gone) e.queue e.outstanding rfl
  | gone =>
    simp only [Worker.wind, List.append_nil]
    exact e.sound hp

/-- A request comes while the end goes on: it is still queued, or refused at once. -/
theorem submit {j : Journal τ} {p : Phase} {cause : Option ClientError} (e : Ending j p cause)
    (hp : j.worker.stage = .ending p cause) (r : Request τ) :
    Sound { j with
      worker := (j.worker.submit r).1
      effects := j.effects ++ (j.worker.submit r).2
      requests := j.requests ++ [r] } := by
  have htickets : tickets [r] = r.ticket?.toList := by rw [tickets_cons]; exact List.append_nil _
  let c := j.worker.connection
  have hlate : (c.outstanding ++ tickets c.queue ++ tickets [r]).Perm
      (r.ticket?.toList ++ (c.outstanding ++ tickets c.queue)) :=
    htickets ▸ List.perm_append_comm
  have hqueued : (c.outstanding ++ tickets c.queue ++ tickets [r]).Perm
      ([] ++ (c.outstanding ++ tickets (c.queue ++ [r]))) := by
    rw [tickets_append, List.append_assoc]
    exact List.Perm.refl _
  have hrefused : Sound { j with
      effects := j.effects ++ r.ticket?.toList.map Connection.refuse
      requests := j.requests ++ [r] } :=
    (e.refuse _ (w := j.worker) rfl e.queue e.outstanding hlate).sound hp
  cases p with
  | left | flagged =>
    have hsub : j.worker.submit r =
        ({ j.worker with connection := { c with queue := c.queue ++ [r] } }, []) := by
      simp only [Worker.submit, hp, c]
    rw [hsub]
    exact (e.refuse _ (w := { j.worker with connection := { c with queue := c.queue ++ [r] } }) rfl
      nofun nofun hqueued).sound hp
  | sealed | drained | released | shut | reported | gone =>
    have hsub : j.worker.submit r = (j.worker, r.ticket?.toList.map Connection.refuse) := by
      simp only [Worker.submit, hp]
    rw [hsub]
    exact hrefused

end Ending

theorem step_ending {w : Worker τ} {p : Phase} {cause : Option ClientError}
    (hw : w.stage = .ending p cause) (m : Move τ) :
    ∃ p', (w.step m).1.stage = .ending p' cause := by
  obtain ⟨⟨queue, outstanding, _, _, _, _⟩, _, stage⟩ := w
  cases hw
  cases m with
  | submit r => cases p <;> exact ⟨_, rfl⟩
  | advance held =>
    cases p with
    | sealed => cases queue <;> exact ⟨_, rfl⟩
    | drained => cases outstanding <;> exact ⟨_, rfl⟩
    | left | flagged | released | shut | reported | gone => exact ⟨_, rfl⟩
  | wrote | received | endOfStream | readFailure => exact ⟨p, rfl⟩

theorem Ending.step [DecidableEq τ] {j : Journal τ} {p : Phase} {cause : Option ClientError}
    (e : Ending j p cause) (hp : j.worker.stage = .ending p cause) (m : Move τ) :
    Sound (j.step (.move m)) := by
  obtain ⟨p', hp'⟩ := step_ending hp m
  have htakes : j.worker.takes m = none := by
    cases m with
    | advance held => simp only [takes, hp]
    | submit | wrote | received | endOfStream | readFailure => rfl
  have hwrites : j.writes m = [] := by simp only [Journal.writes, hp']
  refine sound_step (Prod.eta _).symm _ htakes _ hwrites ?_
  cases m with
  | submit r => simpa [Move.request?, Worker.step] using e.submit hp r
  | advance held => simpa [Move.request?, Worker.step, advance, hp] using e.wind hp
  | wrote | received | endOfStream | readFailure =>
    simpa [Move.request?, Worker.step, hp] using e.sound hp

variable [DecidableEq τ]

theorem Sound.step {j : Journal τ} (s : Sound j) (m : Move τ) : Sound (j.step (.move m)) := by
  unfold Sound at s
  cases h : j.worker.stage with
  | ending p cause =>
    rw [h] at s
    exact s.step h m
  | idle | gathering | writing =>
    rw [h] at s
    exact s.step (by rw [h]; trivial) m

theorem journal_run (is : List (Incident τ)) :
    ((journal is).worker, (journal is).effects) = run {} (is.filterMap Incident.move?) := by
  induction is using List.reverseRecOn with
  | nil => rfl
  | append_singleton is i ih =>
    rw [journal_concat, List.filterMap_append, run_append, ← ih]
    cases i with
    | move m => simp [Journal.step, Incident.move?, run]
    | abandon t => exact Prod.ext rfl (List.append_nil _).symm

/-- Whatever a connection comes to by some events, a worker comes to as well. -/
theorem exists_journal (es : List (Event τ)) : ∃ is : List (Incident τ),
    ((journal is).worker.connection, (journal is).effects) = Connection.run {} es := by
  obtain ⟨ms, v, hrun, hv⟩ := exists_run es
  have hmoves : (ms.map Incident.move).filterMap Incident.move? = ms := by
    rw [List.filterMap_map]
    exact List.filterMap_some
  have h := journal_run (ms.map Incident.move)
  rw [hmoves, hrun] at h
  obtain ⟨hw, hfx⟩ := Prod.mk.inj h
  refine ⟨ms.map Incident.move, ?_⟩
  rw [hw, hfx, hv]

/-- A caller that still waits hears all outcomes of its ticket. -/
theorem heard_filter (is : List (Incident τ)) {t : τ} (ht : t ∉ (journal is).abandoned) :
    (journal is).heard.filter (fun x => x.1 = t) =
      (completions (journal is).effects).filter fun x => x.1 = t := by
  induction is using List.reverseRecOn with
  | nil => rfl
  | append_singleton is i ih =>
    rw [journal_concat] at ht ⊢
    cases i with
    | move m =>
      change t ∉ (journal is).abandoned at ht
      change ((journal is).heard ++ _).filter _ =
        (completions ((journal is).effects ++ _)).filter _
      rw [List.filter_append, completions_append, List.filter_append, ih ht, List.filter_filter]
      congr 1
      refine List.filter_congr fun x _ => ?_
      by_cases hx : x.1 = t <;> simp [hx, ht]
    | abandon u => exact ih fun h => ht (List.mem_append_left _ h)

theorem sound_journal (is : List (Incident τ)) : Sound (journal is) := by
  induction is using List.reverseRecOn with
  | nil => exact ⟨rfl, rfl, nofun, List.prefix_rfl, rfl, fun _ => rfl, rfl, ⟨[], le_rfl, rfl⟩, rfl, rfl⟩
  | append_singleton is i ih =>
    rw [journal_concat]
    cases i with
    | move m => exact ih.step m
    | abandon t => exact ih.ofWaiting _ _

end Worker

end RespClient.Connection
