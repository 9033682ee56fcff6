import RespClient.Proofs.Connection.Journal

namespace RespClient.Connection.Worker

variable {τ : Type}

/-- The moves that are the end, each with the failure that it is, if it is one. -/
inductive Breaks (w : Worker τ) : Move τ → Option ClientError → Prop where
  | closed {held : Bool} {rest : List (Request τ)} :
    w.stage = .idle ∨ w.stage = .gathering → w.connection.queue = .close :: rest →
    Breaks w (.advance held) none
  | dropped :
    w.stage = .idle ∨ w.stage = .gathering → w.connection.queue = [] →
    Breaks w (.advance false) none
  | endOfStream : w.stage = .idle → Breaks w .endOfStream none
  | malformed {bs : Bytes} {m : Reply.Malformed} :
    w.stage = .idle →
    (w.connection.decoder.drain (w.connection.buffer ++ bs)).failure = some m →
    Breaks w (.received bs) (some (.ofMalformed m))
  | unreadable {f : SocketFailure} :
    w.stage = .idle → Breaks w (.readFailure f) (some (.ofSocket f))
  | unwritable {f : SocketFailure} :
    w.stage = .writing → Breaks w (.wrote (some f)) (some (.ofSocket f))

/-- How many moves of its own a worker is from the end, once it has left the loop. -/
def due (w : Worker τ) : Nat :=
  match w.stage with
  | .ending p _ =>
    match p with
    | .left => w.connection.queue.length + w.connection.outstanding.length + 7
    | .flagged => w.connection.queue.length + w.connection.outstanding.length + 6
    | .sealed => w.connection.queue.length + w.connection.outstanding.length + 5
    | .drained => w.connection.outstanding.length + 4
    | .released => 3
    | .shut => 2
    | .reported => 1
    | .gone => 0
  | _ => 0

def Incident.advances : Incident τ → Nat
  | .move (.advance _) => 1
  | _ => 0

def Incident.submits : Incident τ → Nat
  | .move (.submit _) => 1
  | _ => 0

theorem Breaks.unique {w : Worker τ} {m : Move τ} {cause cause' : Option ClientError}
    (h : Breaks w m cause) (h' : Breaks w m cause') : cause = cause' := by
  cases h with
  | closed | dropped => cases h' <;> rfl
  | endOfStream | unreadable | unwritable => cases h'; rfl
  | malformed _ hx =>
    cases h' with
    | malformed _ hx' => rw [hx] at hx'; cases hx'; rfl

/-- A move that does not change the stage of a serving worker is not the end. -/
theorem not_breaks {w v : Worker τ} (hw : w.stage.Serves) (hv : v.stage = w.stage) {m : Move τ}
    (hm : ∀ cause, ¬ Breaks w m cause) (p : Phase) (cause : Option ClientError) :
    v.stage = .ending p cause ↔ p = .left ∧ Breaks w m cause := by
  refine ⟨fun h => ?_, fun h => absurd h.2 (hm cause)⟩
  rw [hv] at h
  rw [h] at hw
  exact False.elim hw

theorem breaks_iff {w v : Worker τ} {m : Move τ} {cause : Option ClientError}
    (hv : v.stage = .ending .left cause) (hb : Breaks w m cause) (p : Phase)
    (cause' : Option ClientError) :
    v.stage = .ending p cause' ↔ p = .left ∧ Breaks w m cause' := by
  rw [hv]
  constructor
  · intro h
    cases h
    exact ⟨rfl, hb⟩
  · rintro ⟨rfl, hb'⟩
    rw [hb.unique hb']

/-- Taking up requests is the end if there is a close, or nothing and nobody left. -/
theorem gather_breaks {w : Worker τ} (hw : w.stage = .idle ∨ w.stage = .gathering) (held : Bool)
    (p : Phase) (cause : Option ClientError) :
    (w.gather held).stage = .ending p cause ↔ p = .left ∧ Breaks w (.advance held) cause := by
  cases hq : w.connection.queue with
  | nil =>
    cases held with
    | true =>
      refine ⟨fun h => ?_, fun h => ?_⟩
      · simp only [gather, hq] at h
        split_ifs at h
      · cases h.2 with
        | closed _ hq' => rw [hq] at hq'; cases hq'
    | false => exact breaks_iff (by simp only [gather, hq]; rfl) (.dropped hw hq) p cause
  | cons r rest =>
    by_cases hr : r = .close
    · subst hr
      exact breaks_iff (by simp only [gather, hq]; rfl) (.closed hw hq) p cause
    · refine ⟨fun h => ?_, fun h => ?_⟩
      · simp only [gather, hq] at h
        cases r <;> first | exact absurd rfl hr | cases h
      · cases h.2 with
        | closed _ hq' => rw [hq] at hq'; cases hq'; exact absurd rfl hr
        | dropped _ hq' => rw [hq] at hq'; cases hq'

theorem receive_breaks {w : Worker τ} (hw : w.stage = .idle) (bs : Bytes) (p : Phase)
    (cause : Option ClientError) :
    (w.receive bs).1.stage = .ending p cause ↔ p = .left ∧ Breaks w (.received bs) cause := by
  cases hx : (w.connection.decoder.drain (w.connection.buffer ++ bs)).failure with
  | none =>
    refine not_breaks (by rw [hw]; trivial) ?_ (fun _ hb => ?_) p cause
    · simp only [receive, deliver_eq, hx]
    · cases hb with
      | malformed _ hx' => rw [hx] at hx'; cases hx'
  | some m =>
    refine breaks_iff ?_ (.malformed hw hx) p cause
    simp only [receive, deliver_eq, hx, leave]

theorem step_breaks {w : Worker τ} (hw : w.stage.Serves) (m : Move τ) (p : Phase)
    (cause : Option ClientError) :
    (w.step m).1.stage = .ending p cause ↔ p = .left ∧ Breaks w m cause := by
  cases m with
  | submit r =>
    refine not_breaks hw ?_ (fun _ hb => by cases hb) p cause
    cases h : w.stage with
    | idle | gathering | writing => simp only [step, submit, h]
    | ending => rw [h] at hw; cases hw
  | advance held =>
    cases h : w.stage with
    | idle => simpa only [step, advance, h] using gather_breaks (.inl h) held p cause
    | gathering => simpa only [step, advance, h] using gather_breaks (.inr h) held p cause
    | writing =>
      refine not_breaks hw (by simp only [step, advance, h]) (fun _ hb => ?_) p cause
      cases hb with
      | closed hs _ | dropped hs _ => rw [h] at hs; obtain ⟨⟨⟩⟩ | ⟨⟨⟩⟩ := hs
    | ending => rw [h] at hw; cases hw
  | wrote failure =>
    by_cases h : w.stage = .writing
    · cases failure with
      | none =>
        simp only [step, h]
        constructor
        · intro h
          cases h
        · intro h
          cases h.2
      | some f => exact breaks_iff (by simp only [step, h, leave]) (.unwritable h) p cause
    · refine not_breaks hw ?_ (fun _ hb => ?_) p cause
      · cases hs : w.stage with
        | writing => exact absurd hs h
        | idle | gathering | ending => simp only [step, hs]
      · cases hb with
        | unwritable hs => exact h hs
  | received bs =>
    by_cases h : w.stage = .idle
    · simpa only [step, h] using receive_breaks h bs p cause
    · refine not_breaks hw ?_ (fun _ hb => ?_) p cause
      · simp only [step]
      · cases hb with
        | malformed hs _ => exact h hs
  | endOfStream =>
    by_cases h : w.stage = .idle
    · exact breaks_iff (by simp only [step, h, leave]) (.endOfStream h) p cause
    · refine not_breaks hw ?_ (fun _ hb => ?_) p cause
      · simp only [step]
      · cases hb with
        | endOfStream hs => exact h hs
  | readFailure f =>
    by_cases h : w.stage = .idle
    · exact breaks_iff (by simp only [step, h, leave]) (.unreadable h) p cause
    · refine not_breaks hw ?_ (fun _ hb => ?_) p cause
      · simp only [step]
      · cases hb with
        | unreadable hs => exact h hs

/-- Once the loop is left, nobody gets a reply any more. -/
theorem step_refusing {w : Worker τ} {p : Phase} {cause : Option ClientError}
    (hw : w.stage = .ending p cause) (m : Move τ) : Refusing (w.step m).2 := by
  obtain ⟨⟨queue, outstanding, _, _, _, _⟩, _, stage⟩ := w
  cases hw
  cases m with
  | submit r =>
    cases p with
    | left | flagged => exact Refusing.nil
    | sealed | drained | released | shut | reported | gone => exact refusing_refuse _
  | advance held =>
    cases p with
    | left | flagged | gone => exact Refusing.nil
    | sealed =>
      cases queue with
      | nil => exact Refusing.nil
      | cons r rest => exact refusing_refuse _
    | drained =>
      cases outstanding with
      | nil => exact Refusing.nil
      | cons t ts => exact refusing_refuse [t]
    | released | reported => exact ⟨rfl, nofun⟩
    | shut => cases cause <;> exact ⟨rfl, nofun⟩
  | wrote | received | endOfStream | readFailure => exact Refusing.nil

/-- As long as a worker serves, nobody has an outcome and nothing is decoded but when bytes reach it
while it waits. -/
theorem step_quiet {w : Worker τ} (hw : w.stage.Serves) {m : Move τ}
    (hm : ∀ bs, m = .received bs → w.stage ≠ .idle) :
    completions (w.step m).2 = [] ∧ (w.step m).1.connection.decoder = w.connection.decoder ∧
      (w.step m).1.connection.buffer = w.connection.buffer := by
  cases m with
  | submit r =>
    cases h : w.stage with
    | idle | gathering | writing => simp [step, submit, h, completions]
    | ending => rw [h] at hw; cases hw
  | advance held =>
    cases h : w.stage with
    | idle | gathering =>
      simp only [step, advance, h, gather]
      refine ⟨rfl, ?_⟩
      split
      next r _ _ => cases r <;> exact ⟨rfl, rfl⟩
      · split <;> exact ⟨rfl, rfl⟩
    | writing => simp [step, advance, h, completions]
    | ending => rw [h] at hw; cases hw
  | wrote failure =>
    simp only [step]
    split <;> exact ⟨rfl, rfl, rfl⟩
  | received bs =>
    simp only [step]
    split
    next h => exact absurd h (hm bs rfl)
    · exact ⟨rfl, rfl, rfl⟩
  | endOfStream | readFailure =>
    simp only [step]
    split <;> exact ⟨rfl, rfl, rfl⟩

theorem step_receive {w : Worker τ} (hw : w.stage = .idle) (bs : Bytes) :
    (w.step (.received bs)).2 = answers w.connection.outstanding
      (w.connection.decoder.drain (w.connection.buffer ++ bs)).replies := by
  simp only [step, hw, receive, deliver_eq]
  split <;> rfl

theorem step_refuses_nobody {w : Worker τ} (hw : w.stage.Serves) (m : Move τ) :
    ∀ x ∈ completions (w.step m).2, x.2 ≠ .error .connectionClosed := by
  by_cases hm : ∃ bs, m = .received bs ∧ w.stage = .idle
  · obtain ⟨bs, rfl, hs⟩ := hm
    intro x hx
    rw [step_receive hs, completions_answers] at hx
    obtain ⟨⟨t, reply⟩, -, rfl⟩ := List.mem_map.1 hx
    cases reply <;> nofun
  · rw [(step_quiet hw fun bs hbs hs => hm ⟨bs, hbs, hs⟩).1]
    exact nofun

/-- The end stands at its beginning only as long as nothing is done about it. -/
theorem step_left {w : Worker τ} {p : Phase} {cause cause' : Option ClientError}
    (hw : w.stage = .ending p cause) {m : Move τ} (h : (w.step m).1.stage = .ending .left cause') :
    p = .left ∧ (w.step m).2 = [] := by
  obtain ⟨⟨queue, outstanding, _, _, _, _⟩, _, stage⟩ := w
  cases hw
  cases m with
  | submit r =>
    cases p with
    | left => exact ⟨rfl, rfl⟩
    | _ => cases h
  | advance held =>
    cases p with
    | sealed => cases queue <;> cases h
    | drained => cases outstanding <;> cases h
    | left | flagged | released | shut | reported | gone => cases h
  | wrote | received | endOfStream | readFailure =>
    cases h
    exact ⟨rfl, rfl⟩

theorem over_step {w : Worker τ} {cause : Option ClientError}
    (hw : w.stage = .ending .gone cause) (m : Move τ) : (w.step m).1.stage = .ending .gone cause := by
  obtain ⟨c, unsent, stage⟩ := w
  cases hw
  cases m <;> rfl

/-- The worker comes nearer to the end by each of its moves; a request that is still queued puts it
off by one. -/
theorem due_step {w : Worker τ} {p : Phase} {cause : Option ClientError}
    (hw : w.stage = .ending p cause) (m : Move τ) (hover : p ≠ .gone) :
    (w.step m).1.due + (Incident.move m).advances ≤ w.due + (Incident.move m).submits := by
  obtain ⟨⟨queue, outstanding, _, _, _, _⟩, _, stage⟩ := w
  cases hw
  cases m with
  | submit r =>
    cases p with
    | left | flagged =>
      simp [step, submit, due, Incident.advances, Incident.submits]
      omega
    | sealed | drained | released | shut | reported | gone => exact Nat.le_succ _
  | advance held =>
    cases p with
    | gone => exact absurd rfl hover
    | left | flagged | released | shut | reported => exact Nat.le_refl _
    | sealed =>
      cases queue with
      | nil => simp [step, advance, wind, due, Incident.advances, Incident.submits]
      | cons r rest =>
        simp only [step, advance, wind, due, Incident.advances, Incident.submits, List.length_cons]
        omega
    | drained =>
      cases outstanding <;> simp [step, advance, wind, due, Incident.advances, Incident.submits]
  | wrote | received | endOfStream | readFailure => exact Nat.le_refl _

theorem handled_step {w : Worker τ} {p : Phase} {cause : Option ClientError}
    (hw : w.stage = .ending p cause) {m : Move τ} (h : handled (w.step m).2 ≠ []) : p.Settled := by
  obtain ⟨⟨queue, outstanding, _, _, _, _⟩, _, stage⟩ := w
  cases hw
  cases m with
  | submit r =>
    cases p with
    | left | flagged => exact absurd rfl h
    | sealed | drained => exact absurd (handled_refuse _) h
    | released | shut | reported | gone => trivial
  | advance held =>
    cases p with
    | left | flagged => exact absurd rfl h
    | sealed =>
      cases queue with
      | nil => exact absurd rfl h
      | cons r rest => exact absurd (handled_refuse _) h
    | drained =>
      cases outstanding with
      | nil => exact absurd rfl h
      | cons t ts => exact absurd rfl h
    | released | shut | reported | gone => trivial
  | wrote | received | endOfStream | readFailure => exact absurd rfl h

theorem answered_of_prefix {written later : List (τ × Bytes)} (h : written <+: later)
    {rs : List Reply} (hle : rs.length ≤ written.length) :
    answered later rs = answered written rs := by
  obtain ⟨more, rfl⟩ := h
  have ha := answered_append written more rs [] (by simpa using hle)
  simpa using ha

theorem due_pos {w : Worker τ} {p : Phase} {cause : Option ClientError}
    (hw : w.stage = .ending p cause) (hp : p ≠ .gone) : 0 < w.due := by
  unfold due
  rw [hw]
  cases p with
  | gone => exact absurd rfl hp
  | left | flagged | sealed | drained | released | shut | reported => exact Nat.succ_pos _

variable [DecidableEq τ]

/-- What comes after the loop is left: refusals and the last phases, and in the end the last one. -/
theorem ending_append {is : List (Incident τ)} {p : Phase} {cause : Option ClientError}
    (hp : (journal is).worker.stage = .ending p cause) (later : List (Incident τ)) :
    ∃ p' last, (journal (is ++ later)).worker.stage = .ending p' cause ∧
      (journal (is ++ later)).effects = (journal is).effects ++ last ∧ Refusing last ∧
      (journal (is ++ later)).written = (journal is).written ∧
      (p' ≠ .gone → (journal (is ++ later)).worker.due + (later.map Incident.advances).sum ≤
        (journal is).worker.due + (later.map Incident.submits).sum) := by
  induction later using List.reverseRecOn with
  | nil =>
    rw [List.append_nil]
    exact ⟨p, [], hp, (List.append_nil _).symm, Refusing.nil, rfl, fun _ => le_rfl⟩
  | append_singleton later i ih =>
    obtain ⟨q, last, hq, heffects, hlast, hwritten, hdue⟩ := ih
    rw [← List.append_assoc, journal_concat]
    simp only [List.map_append, List.sum_append, List.map_singleton, List.sum_singleton]
    cases i with
    | abandon t => exact ⟨q, last, hq, heffects, hlast, hwritten, hdue⟩
    | move m =>
      obtain ⟨q', hq'⟩ := step_ending hq m
      refine ⟨q', last ++ ((journal (is ++ later)).worker.step m).2, hq', ?_,
        hlast.append (step_refusing hq m), ?_, fun hover => ?_⟩
      · change (journal (is ++ later)).effects ++ _ = _
        rw [heffects, List.append_assoc]
      · have hwrites : (journal (is ++ later)).writes m = [] := by
          simp only [Journal.writes, hq']
        change (journal (is ++ later)).written ++ _ = _
        rw [hwrites, List.append_nil, hwritten]
      · have hq : q ≠ .gone := by
          rintro rfl
          have h := (over_step hq m).symm.trans hq'
          cases h
          exact hover rfl
        have hstep := due_step ‹_› m hq
        have hsofar := hdue hq
        change ((journal (is ++ later)).worker.step m).1.due + _ ≤ _
        omega

theorem serving_journal {is : List (Incident τ)} {stage : Stage}
    (h : (journal is).worker.stage = stage) (hs : stage.Serves) : Serving (journal is) := by
  subst h
  have s := sound_journal is
  unfold Sound at s
  cases hs' : (journal is).worker.stage with
  | idle | gathering | writing => rwa [hs'] at s
  | ending => rw [hs'] at hs; cases hs

theorem ending_journal {is : List (Incident τ)} {p : Phase} {cause : Option ClientError}
    (h : (journal is).worker.stage = .ending p cause) : Ending (journal is) p cause := by
  have s := sound_journal is
  unfold Sound at s
  rwa [h] at s

theorem taken_journal (is : List (Incident τ)) : (journal is).taken <+: (journal is).requests := by
  cases h : (journal is).worker.stage with
  | idle | gathering | writing => exact ⟨_, (serving_journal h trivial).requests.symm⟩
  | ending p cause => exact (ending_journal h).taken

theorem written_journal (is : List (Incident τ)) :
    (journal is).written <+: commands (journal is).requests := by
  have hwritten : (journal is).written <+: commands (journal is).taken := by
    cases h : (journal is).worker.stage with
    | idle | gathering | writing => exact (serving_journal h trivial).written
    | ending p cause => exact (ending_journal h).written
  obtain ⟨rest, hrest⟩ := taken_journal is
  rw [← hrest, commands_append]
  exact hwritten.trans (List.prefix_append _ _)

theorem mem_requests_of_writes {is : List (Incident τ)} {m : Move τ} {x : τ × Bytes}
    (h : x ∈ (journal is).writes m) : x ∈ commands (journal is).requests := by
  have hbatch : x ∈ (journal is).batch := by
    unfold Journal.writes at h
    split at h
    · exact h
    · cases h
  obtain ⟨rest, hrest⟩ := taken_journal is
  rw [← hrest, commands_append]
  exact List.mem_append_left _ (List.mem_of_mem_drop hbatch)

/-- The commands that got a reply are the first ones that were written. -/
theorem outcomes_journal (is : List (Incident τ)) :
    ∃ rs refused, rs.length ≤ (journal is).written.length ∧
      completions (journal is).effects = answered (journal is).written rs ++ refused ∧
      (∀ x ∈ refused, x.2 = .error .connectionClosed) ∧
      ((journal is).worker.stage.Serves → refused = []) := by
  cases h : (journal is).worker.stage with
  | idle | gathering | writing =>
    obtain ⟨rs, hle, hcom⟩ := (serving_journal h trivial).outcomes
    exact ⟨rs, [], hle, by rw [hcom, List.append_nil], nofun, fun _ => rfl⟩
  | ending p cause =>
    obtain ⟨rs, refused, hle, hcom, hrefused⟩ := (ending_journal h).outcomes
    exact ⟨rs, refused, hle, hcom, hrefused, False.elim⟩

/-- A command that came to something else than a refusal was written, and got a reply. -/
theorem replied_of_completed {is : List (Incident τ)} {t : τ} {o : Outcome}
    (h : (t, o) ∈ completions (journal is).effects) (ho : o ≠ .error .connectionClosed) :
    (∃ reply, o = .ofReply reply) ∧ t ∈ (journal is).written.map Prod.fst := by
  obtain ⟨rs, refused, -, hcom, hrefused, -⟩ := outcomes_journal is
  rw [hcom] at h
  rcases List.mem_append.1 h with h | h
  · obtain ⟨⟨x, reply⟩, hz, he⟩ := List.mem_map.1 h
    cases he
    exact ⟨⟨reply, rfl⟩, List.mem_map_of_mem (List.of_mem_zip hz).1⟩
  · exact absurd (hrefused _ h) ho

/-- Nobody is refused before the connection shows itself as closed. -/
theorem ended_of_refused {is : List (Incident τ)} {t : τ}
    (h : (t, .error .connectionClosed) ∈ completions (journal is).effects) :
    (journal is).worker.connection.ended = true := by
  suffices hkey : (∀ x ∈ completions (journal is).effects, x.2 ≠ .error .connectionClosed) ∨
      ∃ p cause, (journal is).worker.stage = .ending p cause ∧ p ≠ .left by
    rcases hkey with hnone | ⟨p, cause, hp, hne⟩
    · exact absurd rfl (hnone _ h)
    · exact (ending_journal hp).ended hne
  clear h
  induction is using List.reverseRecOn with
  | nil => exact .inl nofun
  | append_singleton is i ih =>
    rw [journal_concat]
    cases i with
    | abandon u => exact ih
    | move m =>
      have append (hnone : ∀ x ∈ completions (journal is).effects, x.2 ≠ .error .connectionClosed)
          (hstep : ∀ x ∈ completions ((journal is).worker.step m).2,
            x.2 ≠ .error .connectionClosed) :
          ∀ x ∈ completions ((journal is).step (.move m)).effects,
            x.2 ≠ .error .connectionClosed := by
        change ∀ x ∈ completions ((journal is).effects ++ _), _
        rw [completions_append]
        exact List.forall_mem_append.2 ⟨hnone, hstep⟩
      cases hs : (journal is).worker.stage with
      | idle | gathering | writing =>
        have hserves : (journal is).worker.stage.Serves := by rw [hs]; trivial
        rcases ih with hnone | ⟨p, cause, hp, -⟩
        · exact .inl (append hnone (step_refuses_nobody hserves m))
        · cases hs.symm.trans hp
      | ending p cause =>
        obtain ⟨p', hp'⟩ := step_ending hs m
        by_cases hleft : p' = .left
        · subst hleft
          obtain ⟨rfl, hquiet⟩ := step_left hs hp'
          rcases ih with hnone | ⟨q, cause', hq, hne⟩
          · exact .inl (append hnone (by rw [hquiet]; exact nofun))
          · cases hs.symm.trans hq
            exact absurd rfl hne
        · exact .inr ⟨p', cause, hp', hleft⟩

theorem balance_journal (is : List (Incident τ)) :
    (tickets (journal is).requests).Perm ((completions (journal is).effects).map Prod.fst ++
      ((journal is).worker.connection.outstanding ++
        tickets (journal is).worker.connection.queue)) := by
  cases h : (journal is).worker.stage with
  | idle | gathering | writing =>
    have s := serving_journal h trivial
    rw [s.requests, tickets_append, s.outstanding, List.append_assoc]
  | ending p cause => exact (ending_journal h).balance

/-- With nothing queued and nothing outstanding each command has had its outcome. -/
theorem settled_journal {is : List (Incident τ)} {p : Phase} {cause : Option ClientError}
    (h : (journal is).worker.stage = .ending p cause) (hp : p.Settled) :
    (tickets (journal is).requests).Perm ((completions (journal is).effects).map Prod.fst) := by
  have e := ending_journal h
  have hemptied : p.Emptied := by cases p <;> trivial
  have hbalance := e.balance
  rw [e.outstanding hp, e.queue hemptied] at hbalance
  simpa [tickets, commands] using hbalance

/-- A ticket that was handed out once has one outcome. -/
theorem filter_eq_singleton {ts : List τ} {xs : List (τ × Outcome)} (h : ts.Perm (xs.map Prod.fst))
    (hnodup : ts.Nodup) {t : τ} (ht : t ∈ ts) :
    ∃ outcome, xs.filter (fun x => x.1 = t) = [(t, outcome)] := by
  have hcount : (xs.filter fun x => x.1 = t).length = 1 := by
    rw [← List.countP_eq_length_filter, ← List.count_eq_one_of_mem hnodup ht, h.count_eq,
      List.count, List.countP_map]
    rfl
  obtain ⟨⟨u, outcome⟩, hx⟩ := List.length_eq_one_iff.1 hcount
  have hu : (u, outcome) ∈ xs.filter fun x => x.1 = t := by rw [hx]; exact List.mem_singleton_self _
  have hut : u = t := by simpa using (List.mem_filter.1 hu).2
  exact ⟨outcome, by rw [hx, hut]⟩

/-- At any moment of any run, each command has had one outcome or is still queued or outstanding: the
first ones submitted have the replies that came, and all others that have an outcome were refused. A
caller that still waits has heard what its command came to. Only a close, the loss of the last handle,
the end of the stream, malformed bytes and a failing socket are the end, and only the last three of
them a failure. From then on there are but refusals, whatever is still submitted, and with enough moves
of its own the worker comes to be done; a handler only runs when the connection shows itself as closed
and no command is left. When all is over each command has had exactly one outcome, the failure handler
has run if there was a failure, and the end handler has run once, after it. -/
theorem ends_in_order :
    (∀ es : List (Event τ), ∃ is : List (Incident τ),
      ((journal is).worker.connection, (journal is).effects) = Connection.run {} es) ∧
    ∀ is : List (Incident τ),
      let j := journal is
      let w := j.worker
      (tickets j.requests).Perm ((completions j.effects).map Prod.fst ++
        (w.connection.outstanding ++ tickets w.connection.queue)) ∧
      (∃ rs refused, completions j.effects = answered (commands j.requests) rs ++ refused ∧
        (∀ x ∈ refused, x.2 = .error .connectionClosed) ∧ (w.stage.Serves → refused = [])) ∧
      (∀ t ∉ j.abandoned, j.heard.filter (fun x => x.1 = t) =
        (completions j.effects).filter fun x => x.1 = t) ∧
      (w.stage.Serves → w.connection.ended = false ∧ handled j.effects = [] ∧
        (∀ bs, w.stage = .idle → (w.step (.received bs)).2 = answers w.connection.outstanding
          (w.connection.decoder.drain (w.connection.buffer ++ bs)).replies) ∧
        ∀ m p cause, (w.step m).1.stage = .ending p cause ↔ p = .left ∧ Breaks w m cause) ∧
      ∀ p cause, w.stage = .ending p cause →
        (∀ later : List (Incident τ), ∃ p' last,
          (journal (is ++ later)).worker.stage = .ending p' cause ∧
          (journal (is ++ later)).effects = j.effects ++ last ∧ Refusing last ∧
          (w.due + (later.map Incident.submits).sum ≤ (later.map Incident.advances).sum →
            p' = .gone)) ∧
        handled j.effects = p.handled cause ∧
        (∀ m, handled (w.step m).2 ≠ [] → w.connection.ended = true ∧
          (tickets j.requests).Perm ((completions j.effects).map Prod.fst)) ∧
        (p = .gone →
          (tickets j.requests).Perm ((completions j.effects).map Prod.fst) ∧
          (∀ r, w.step (.submit r) = (w, r.ticket?.toList.map refuse)) ∧
          ((tickets j.requests).Nodup → ∀ t ∈ tickets j.requests, t ∉ j.abandoned →
            ∃ outcome, j.heard.filter (fun x => x.1 = t) = [(t, outcome)])) := by
  refine ⟨exists_journal, fun is => ?_⟩
  intro j w
  refine ⟨balance_journal is, ?_, fun t ht => heard_filter is ht, ?_, ?_⟩
  · obtain ⟨rs, refused, hle, hcom, hrefused, hserves⟩ := outcomes_journal is
    exact ⟨rs, refused, by rw [hcom, answered_of_prefix (written_journal is) hle], hrefused, hserves⟩
  · intro hserves
    have s := serving_journal rfl hserves
    refine ⟨s.going, s.handlers, fun bs hidle => ?_, step_breaks hserves⟩
    simp only [step, hidle, receive, deliver_eq]
    split <;> rfl
  · intro p cause hp
    have e := ending_journal hp
    refine ⟨fun later => ?_, e.handlers, fun m hm => ?_, ?_⟩
    · obtain ⟨p', last, hp', heffects, hlast, -, hdue⟩ := ending_append hp later
      refine ⟨p', last, hp', heffects, hlast, fun hle => ?_⟩
      by_contra hover
      have hleft := hdue hover
      have hpos := due_pos hp' hover
      change _ + _ ≤ w.due + _ at hleft
      omega
    · have hsettled := handled_step hp hm
      exact ⟨e.ended (by rintro rfl; cases hsettled), settled_journal hp hsettled⟩
    · rintro rfl
      refine ⟨settled_journal hp trivial, fun r => ?_, fun hnodup t ht hwaits => ?_⟩
      · simp only [step, submit, hp]
      · rw [heard_filter is hwaits]
        exact filter_eq_singleton (settled_journal hp trivial) hnodup ht

/-- A close between two commands of one batch, with another command before the queue is sealed and
one after it, and a caller that does not wait for the first. -/
theorem ends_in_order_close :
    let is : List (Incident Nat) := [.move (.submit (.command 0 [1])), .abandon 0,
      .move (.submit .close), .move (.submit (.command 1 [2])), .move (.advance true),
      .move (.advance true), .move (.submit (.command 2 [3])), .move (.advance true),
      .move (.advance true), .move (.submit (.command 3 [4]))] ++
      List.replicate 8 (.move (.advance true))
    (journal is).worker.stage = .ending .gone none ∧
      handled (journal is).effects = [.finished] ∧
      ∃ outcome, (journal is).heard.filter (fun x => x.1 = 2) = [(2, outcome)] := by
  intro is
  have hstage : (journal is).worker.stage = .ending .gone none := rfl
  obtain ⟨-, -, -, -, hending⟩ := (ends_in_order (τ := Nat)).2 is
  obtain ⟨-, hhandled, -, hover⟩ := hending _ _ hstage
  obtain ⟨-, -, hone⟩ := hover rfl
  exact ⟨hstage, hhandled, hone (by decide) 2 (by decide) (by decide)⟩

end RespClient.Connection.Worker
