import RespClient.Proofs.Connection.Closing

namespace RespClient.Connection.Worker

variable {τ : Type}

def reads (w : Worker τ) : Move τ → Bytes
  | .received bs =>
    match w.stage with
    | .idle => bs
    | _ => []
  | _ => []

def intake (w : Worker τ) : List (Incident τ) → Bytes
  | [] => []
  | .move m :: is => w.reads m ++ (w.step m).1.intake is
  | .abandon _ :: is => w.intake is

/-- All that was read since a connection was new. -/
def read (is : List (Incident τ)) : Bytes := intake {} is

theorem intake_append (w : Worker τ) (is js : List (Incident τ)) :
    w.intake (is ++ js) = w.intake is ++ (w.run (is.filterMap Incident.move?)).1.intake js := by
  induction is generalizing w with
  | nil => rfl
  | cons i is ih =>
    cases i with
    | move m => simp [intake, ih, Incident.move?, run]
    | abandon t => exact ih w

theorem read_abandon (is : List (Incident τ)) (t : τ) : read (is ++ [.abandon t]) = read is := by
  rw [read, intake_append]
  simp [intake, read]

/-- A worker that goes on serving has drained what it had and what came in. -/
theorem drained_of_serves {w : Worker τ} (hw : w.stage = .idle) {bs : Bytes}
    (h : (w.step (.received bs)).1.stage.Serves) :
    w.connection.decoder.drain (w.connection.buffer ++ bs) =
      ⟨(w.connection.decoder.drain (w.connection.buffer ++ bs)).replies,
        (w.step (.received bs)).1.connection.decoder, (w.step (.received bs)).1.connection.buffer,
        none⟩ := by
  generalize hx : w.connection.decoder.drain (w.connection.buffer ++ bs) = x
  obtain ⟨replies, decoder, rest, failure⟩ := x
  simp only [step, hw, receive, deliver_eq, hx] at h ⊢
  cases failure with
  | none => rfl
  | some m => exact h.elim

variable [DecidableEq τ]

theorem read_move (is : List (Incident τ)) (m : Move τ) :
    read (is ++ [.move m]) = read is ++ (journal is).worker.reads m := by
  rw [read, intake_append, ← journal_run]
  simp [intake, read]

/-- A worker that waits has nothing to write, whatever comes in. -/
theorem written_received {j : Journal τ} (s : Serving j) (hs : j.worker.stage = .idle) (bs : Bytes) :
    (j.step (.move (.received bs))).written = j.written := by
  change j.written ++ j.writes (.received bs) = j.written
  unfold Journal.writes
  split
  · rw [s.idle hs, List.append_nil]
  · exact List.append_nil _

/-- At no time more replies were read than commands were written before. -/
def Causal (is : List (Incident τ)) : Prop :=
  ∀ p, p <+: is → (Reply.decoded (read p)).length ≤ (journal p).written.length

theorem Causal.init {is : List (Incident τ)} {i : Incident τ} (h : Causal (is ++ [i])) :
    Causal is := fun p hp => h p (hp.trans (List.prefix_append _ _))

/-- Each written command is answered by the reply in its place, as far as replies have come, and only
the end adds refusals. As long as the worker serves, its decoder has come to the end of what was
read. -/
structure Replied (j : Journal τ) (bs : Bytes) : Prop where
  completed : ∃ refused, completions j.effects = answered j.written (Reply.decoded bs) ++ refused ∧
    (∀ x ∈ refused, x.2 = .error .connectionClosed) ∧ (j.worker.stage.Serves → refused = [])
  decoder : j.worker.stage.Serves → Reply.Decoder.drain {} bs =
    ⟨Reply.decoded bs, j.worker.connection.decoder, j.worker.connection.buffer, none⟩

namespace Replied

variable {j : Journal τ} {bs : Bytes}

/-- Once the loop is left nothing is read or written, and but refusals come to it. -/
theorem step_ending (h : Replied j bs) {p : Phase} {cause : Option ClientError}
    (hs : j.worker.stage = .ending p cause) (m : Move τ) :
    Replied (j.step (.move m)) (bs ++ j.worker.reads m) := by
  have hreads : j.worker.reads m = [] := by
    cases m <;> simp [reads, hs]
  obtain ⟨p', hp'⟩ := Worker.step_ending hs m
  have hwrites : j.writes m = [] := by simp only [Journal.writes, hp']
  have hserves : ¬ (j.step (.move m)).worker.stage.Serves := by
    change ¬ (j.worker.step m).1.stage.Serves
    rw [hp']
    exact id
  obtain ⟨refused, hcom, href, -⟩ := h.completed
  rw [hreads, List.append_nil]
  refine ⟨⟨refused ++ completions (j.worker.step m).2, ?_, ?_, fun hs => absurd hs hserves⟩,
    fun hs => absurd hs hserves⟩
  · change completions (j.effects ++ _) = answered (j.written ++ j.writes m) _ ++ _
    rw [hwrites, List.append_nil, completions_append, hcom, List.append_assoc]
  · exact List.forall_mem_append.2 ⟨href, (step_refusing hs m).refused⟩

theorem step_quiet (h : Replied j bs) (hs : j.worker.stage.Serves) {m : Move τ}
    (hm : ∀ bs, m = .received bs → j.worker.stage ≠ .idle)
    (hle : (Reply.decoded bs).length ≤ j.written.length) :
    Replied (j.step (.move m)) (bs ++ j.worker.reads m) := by
  have hreads : j.worker.reads m = [] := by
    cases m with
    | received bs =>
      cases h : j.worker.stage with
      | idle => exact absurd h (hm bs rfl)
      | _ => simp only [reads, h]
    | _ => rfl
  obtain ⟨hquiet, hdecoder, hbuffer⟩ := Worker.step_quiet hs hm
  obtain ⟨refused, hcom, -, hnone⟩ := h.completed
  obtain rfl := hnone hs
  rw [hreads, List.append_nil]
  refine ⟨⟨[], ?_, List.forall_mem_nil _, fun _ => rfl⟩, fun _ => ?_⟩
  · change completions (j.effects ++ _) = answered (j.written ++ j.writes m) _ ++ _
    rw [completions_append, hquiet, hcom, List.append_nil,
      answered_of_prefix (List.prefix_append _ _) hle]
  · change _ = (⟨_, (j.worker.step m).1.connection.decoder, (j.worker.step m).1.connection.buffer,
      none⟩ : Reply.Drained)
    rw [hdecoder, hbuffer]
    exact h.decoder hs

/-- Replies that come in are those of the next commands written. -/
theorem step_received (h : Replied j bs) (s : Serving j) (hs : j.worker.stage = .idle) (more : Bytes)
    (hle : (Reply.decoded (bs ++ more)).length ≤ j.written.length) :
    Replied (j.step (.move (.received more))) (bs ++ more) := by
  have hserves : j.worker.stage.Serves := by rw [hs]; trivial
  let x := j.worker.connection.decoder.drain (j.worker.connection.buffer ++ more)
  have hdrain : Reply.Decoder.drain {} (bs ++ more) = x.behind (Reply.decoded bs) := by
    rw [Reply.Decoder.drain_append, h.decoder hserves]
    rfl
  have hdecoded : Reply.decoded (bs ++ more) = Reply.decoded bs ++ x.replies := by
    rw [Reply.decoded, hdrain]
    rfl
  have hstep : (j.worker.step (.received more)).2 =
      answers j.worker.connection.outstanding x.replies := step_receive hs more
  have hwritten : j.written ++ j.writes (.received more) = j.written := written_received s hs more
  obtain ⟨refused, hcom, -, hnone⟩ := h.completed
  obtain rfl := hnone hserves
  rw [List.append_nil] at hcom
  rw [hdecoded, List.length_append] at hle
  have hout : j.worker.connection.outstanding =
      (j.written.map Prod.fst).drop (Reply.decoded bs).length := by
    rw [s.outstanding_idle hs, hcom, answered]
    simp [Nat.le_of_add_right_le hle]
  refine ⟨⟨[], ?_, List.forall_mem_nil _, fun _ => rfl⟩, fun hgoing => ?_⟩
  · have hanswered := answered_append j.written [] (Reply.decoded bs) x.replies hle
    rw [List.append_nil] at hanswered
    change completions (j.effects ++ (j.worker.step (.received more)).2) =
      answered (j.written ++ j.writes (.received more)) _ ++ []
    rw [hstep, completions_append, completions_answers, hcom, hwritten, hdecoded, hanswered, hout,
      List.append_nil]
  · rw [hdrain, hdecoded]
    exact congrArg (Reply.Drained.behind (Reply.decoded bs)) (drained_of_serves hs hgoing)

theorem start : Replied (journal ([] : List (Incident τ))) (read ([] : List (Incident τ))) where
  completed := ⟨[], rfl, List.forall_mem_nil _, fun _ => rfl⟩
  decoder _ := by
    change Reply.Decoder.drain {} [] = ⟨(Reply.Decoder.drain {} []).replies, {}, [], none⟩
    rw [Reply.Decoder.drain_of_more (Reply.Decoder.decode_nil {})]

end Replied

theorem replied_journal (is : List (Incident τ)) (h : Causal is) : Replied (journal is) (read is) := by
  induction is using List.reverseRecOn with
  | nil => exact Replied.start
  | append_singleton is i ih =>
    have hr := ih h.init
    have hle : (Reply.decoded (read is)).length ≤ (journal is).written.length :=
      h.init is List.prefix_rfl
    cases i with
    | abandon t =>
      rw [journal_concat, read_abandon]
      exact ⟨hr.completed, hr.decoder⟩
    | move m =>
      have hnext := h _ List.prefix_rfl
      rw [journal_concat, read_move] at hnext ⊢
      cases hs : (journal is).worker.stage with
      | ending p cause => exact hr.step_ending hs m
      | gathering | writing =>
        exact hr.step_quiet (by rw [hs]; trivial) (fun _ _ h => by cases hs.symm.trans h) hle
      | idle =>
        cases m with
        | received more =>
          have hreads : (journal is).worker.reads (.received more) = more := by simp only [reads, hs]
          have s := serving_journal hs trivial
          rw [hreads, written_received s hs more] at hnext
          rw [hreads]
          exact hr.step_received s hs more hnext
        | submit | advance | wrote | endOfStream | readFailure =>
          exact hr.step_quiet (by rw [hs]; trivial) nofun hle

/-- Against a server that answers only what was written, a command that was submitted in some place and
is not refused gets the reply in the same place. -/
theorem reply_in_place {is : List (Incident τ)} (h : Causal is) {t : τ} {o : Outcome}
    (hk : (t, o) ∈ completions (journal is).effects) (ho : o ≠ .error .connectionClosed) :
    ∃ (n : Nat) (frame : Bytes) (reply : Reply),
      (commands (journal is).requests)[n]? = some (t, frame) ∧
      (Reply.decoded (read is))[n]? = some reply ∧ o = .ofReply reply := by
  obtain ⟨refused, hcom, href, -⟩ := (replied_journal is h).completed
  rw [hcom] at hk
  rcases List.mem_append.1 hk with hk | hk
  · obtain ⟨⟨⟨t', frame⟩, reply⟩, hz, he⟩ := List.mem_map.1 hk
    cases he
    obtain ⟨n, hn⟩ := List.mem_iff_getElem?.1 hz
    obtain ⟨hwritten, hreply⟩ := List.getElem?_zip_eq_some.1 hn
    obtain ⟨rest, hrest⟩ := written_journal is
    refine ⟨n, frame, reply, ?_, hreply, rfl⟩
    rw [← hrest, List.getElem?_append_left (List.getElem?_eq_some_iff.1 hwritten).1, hwritten]
  · exact absurd (href _ hk) ho

end RespClient.Connection.Worker
