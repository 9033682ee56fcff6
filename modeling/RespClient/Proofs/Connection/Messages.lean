import RespClient.Proofs.Connection.Replies

namespace RespClient.Connection.Worker

variable {τ : Type}

theorem reads_eq_nil {w : Worker τ} {m : Move τ} (hm : ∀ bs, m = .received bs → w.stage ≠ .idle) :
    w.reads m = [] := by
  cases m with
  | received bs =>
    cases hs : w.stage with
    | idle => exact absurd hs (hm bs rfl)
    | _ => simp only [reads, hs]
  | _ => rfl

/-- As long as a worker serves, nobody gets a message but when bytes reach it while it waits. -/
theorem step_silent {w : Worker τ} (hw : w.stage.Serves) {m : Move τ}
    (hm : ∀ bs, m = .received bs → w.stage ≠ .idle) : messages (w.step m).2 = [] := by
  cases m with
  | submit r =>
    cases h : w.stage with
    | idle | gathering | writing => simp [step, submit, h, messages]
    | ending => rw [h] at hw; cases hw
  | advance held =>
    cases h : w.stage with
    | idle | gathering | writing => simp [step, advance, h, messages]
    | ending => rw [h] at hw; cases hw
  | wrote failure =>
    simp only [step]
    split <;> rfl
  | received bs =>
    simp only [step]
    split
    next h => exact absurd h (hm bs rfl)
    · rfl
  | endOfStream | readFailure =>
    simp only [step]
    split <;> rfl

/-- A worker that serves after a move has served before. -/
theorem serves_of_step {w : Worker τ} {m : Move τ} (h : (w.step m).1.stage.Serves) :
    w.stage.Serves := by
  cases hs : w.stage with
  | ending p cause =>
    obtain ⟨p', hp'⟩ := step_ending hs m
    rw [hp'] at h
    cases h
  | _ => trivial

/-- Replies in two parts, each for the tickets that are left. -/
theorem zip_append_right {α β : Type} (as : List α) (bs cs : List β) :
    as.zip (bs ++ cs) = as.zip bs ++ (as.drop bs.length).zip cs := by
  induction bs generalizing as with
  | nil => simp
  | cons b bs ih => cases as <;> simp [ih]

variable [DecidableEq τ]

/-- As long as a worker serves, its decoder has come to the end of what was read. -/
theorem drained_journal (is : List (Incident τ)) (h : (journal is).worker.stage.Serves) :
    Reply.Decoder.drain {} (read is) = ⟨Reply.decoded (read is), (journal is).worker.connection.decoder,
      (journal is).worker.connection.buffer, none⟩ := by
  induction is using List.reverseRecOn with
  | nil => exact Replied.start.decoder h
  | append_singleton is i ih =>
    cases i with
    | abandon t =>
      rw [journal_concat] at h
      rw [journal_concat, read_abandon]
      exact ih h
    | move m =>
      rw [journal_concat] at h ⊢
      rw [read_move]
      have hserves : (journal is).worker.stage.Serves := serves_of_step h
      by_cases hm : ∃ bs, m = .received bs ∧ (journal is).worker.stage = .idle
      · obtain ⟨bs, rfl, hs⟩ := hm
        have hreads : (journal is).worker.reads (.received bs) = bs := by simp only [reads, hs]
        have hdrain := Reply.Decoder.drain_append {} (read is) bs
        rw [ih hserves, Reply.Drained.resume] at hdrain
        rw [hreads, Reply.decoded, hdrain]
        exact congrArg (Reply.Drained.behind (Reply.decoded (read is))) (drained_of_serves hs h)
      · have hquiet : ∀ bs, m = .received bs → (journal is).worker.stage ≠ .idle :=
          fun bs hb hs => hm ⟨bs, hb, hs⟩
        obtain ⟨-, hdecoder, hbuffer⟩ := Worker.step_quiet hserves hquiet
        rw [reads_eq_nil hquiet, List.append_nil, ih hserves]
        change _ = (⟨_, ((journal is).worker.step m).1.connection.decoder,
          ((journal is).worker.step m).1.connection.buffer, none⟩ : Reply.Drained)
        rw [hdecoder, hbuffer]

/-- When all commands are written, the outstanding tickets are those that have no outcome. -/
theorem outstanding_journal {is : List (Incident τ)} (h : (journal is).worker.stage.Serves)
    (hall : (journal is).written = commands (journal is).requests) :
    (journal is).worker.connection.outstanding =
      ((journal is).written.map Prod.fst).drop (completions (journal is).effects).length := by
  have s := serving_journal rfl h
  have hprefix : commands (journal is).taken <+: (journal is).written := by
    rw [hall, s.requests, commands_append]
    exact List.prefix_append _ _
  have htaken : commands (journal is).taken = (journal is).written :=
    hprefix.eq_of_length_le s.written.length_le
  have hlength : (completions (journal is).effects).length =
      ((completions (journal is).effects).map Prod.fst).length := (List.length_map _).symm
  rw [← htaken, ← tickets, s.outstanding, hlength, List.drop_left]

/-- What has come of these replies when no command was left to write. -/
structure Between (j₀ j : Journal τ) (new : List Reply) : Prop where
  serves : j₀.worker.stage.Serves ∨ new = []
  written : j.written = j₀.written
  messages : messages j.effects =
    messages j₀.effects ++ new.drop j₀.worker.connection.outstanding.length
  completions : ∃ refused, completions j.effects = completions j₀.effects ++
    ((j₀.worker.connection.outstanding.zip new).map fun x => (x.1, Outcome.ofReply x.2)) ++ refused ∧
    (j.worker.stage.Serves → refused = [])

namespace Between

variable {is js : List (Incident τ)} {m : Move τ} {new : List Reply}

theorem outstanding (h : Between (journal is) (journal js) new)
    (hs₀ : (journal is).worker.stage.Serves) (hs : (journal js).worker.stage.Serves)
    (h₀ : (journal is).written = commands (journal is).requests)
    (hj : (journal js).written = commands (journal js).requests) :
    (journal js).worker.connection.outstanding =
      (journal is).worker.connection.outstanding.drop new.length := by
  obtain ⟨refused, hcom, hnone⟩ := h.completions
  obtain rfl := hnone hs
  rw [outstanding_journal hs hj, outstanding_journal hs₀ h₀, hcom, h.written, List.drop_drop,
    List.drop_eq_drop_iff]
  simp only [List.append_nil, List.length_append, List.length_map, List.length_zip,
    outstanding_journal hs₀ h₀, List.length_drop]
  omega

theorem step_quiet (h : Between (journal is) (journal js) new)
    (hm : ∀ bs, m = .received bs → (journal js).worker.stage ≠ .idle)
    (hw : ((journal js).step (.move m)).written = (journal is).written) :
    Between (journal is) ((journal js).step (.move m)) new := by
  obtain ⟨refused, hcom, hnone⟩ := h.completions
  have hmessages : Connection.messages ((journal js).worker.step m).2 = [] := by
    cases hs : (journal js).worker.stage with
    | ending p cause => exact (step_refusing hs m).messages
    | _ => exact step_silent (by rw [hs]; trivial) hm
  refine ⟨h.serves, hw, ?_, refused ++ Connection.completions ((journal js).worker.step m).2, ?_, ?_⟩
  · change Connection.messages ((journal js).effects ++ _) = _
    rw [messages_append, hmessages, List.append_nil, h.messages]
  · change Connection.completions ((journal js).effects ++ _) = _
    rw [completions_append, hcom, List.append_assoc]
  · intro hserves
    have hbefore : (journal js).worker.stage.Serves := serves_of_step hserves
    rw [hnone hbefore, (Worker.step_quiet hbefore hm).1]
    rfl

/-- Replies that come in go to the tickets that are left, and the rest are messages. -/
theorem step_received (h : Between (journal is) (journal js) new)
    (hs₀ : (journal is).worker.stage.Serves) (hs : (journal js).worker.stage = .idle)
    (hout : (journal js).worker.connection.outstanding =
      (journal is).worker.connection.outstanding.drop new.length) (more : Bytes)
    (hw : ((journal js).step (.move (.received more))).written = (journal is).written) :
    Between (journal is) ((journal js).step (.move (.received more)))
      (new ++ ((journal js).worker.connection.decoder.drain
        ((journal js).worker.connection.buffer ++ more)).replies) := by
  generalize hx : (journal js).worker.connection.decoder.drain
    ((journal js).worker.connection.buffer ++ more) = x
  have hstep : ((journal js).worker.step (.received more)).2 =
      answers ((journal is).worker.connection.outstanding.drop new.length) x.replies := by
    rw [step_receive hs, hx, hout]
  obtain ⟨refused, hcom, hnone⟩ := h.completions
  obtain rfl := hnone (by rw [hs]; trivial)
  refine ⟨.inl hs₀, hw, ?_, [], ?_, fun _ => rfl⟩
  · change Connection.messages ((journal js).effects ++ ((journal js).worker.step (.received more)).2) = _
    rw [messages_append, hstep, messages_answers, h.messages, List.length_drop, List.append_assoc,
      List.drop_append]
  · change Connection.completions ((journal js).effects ++ ((journal js).worker.step _).2) = _
    rw [completions_append, hstep, completions_answers, hcom, zip_append_right, List.map_append]
    simp only [List.append_nil, List.append_assoc]

end Between

/-- Nothing is submitted or written that is taken back. -/
theorem commands_grow (is js : List (Incident τ)) :
    commands (journal is).requests <+: commands (journal (is ++ js)).requests ∧
      (journal is).written <+: (journal (is ++ js)).written := by
  induction js using List.reverseRecOn with
  | nil => simp
  | append_singleton js i ih =>
    rw [← List.append_assoc, journal_concat]
    cases i with
    | abandon t => exact ih
    | move m =>
      refine ⟨ih.1.trans ?_, ih.2.trans (List.prefix_append _ _)⟩
      change commands (journal (is ++ js)).requests <+:
        commands ((journal (is ++ js)).requests ++ m.request?.toList)
      rw [commands_append]
      exact List.prefix_append _ _

/-- All commands that ever come are written at some time, so they are from then on. -/
theorem written_of_all {is js : List (Incident τ)}
    (hall : commands (journal (is ++ js)).requests = (journal is).written) :
    (journal is).written = commands (journal is).requests ∧
      (journal (is ++ js)).written = (journal is).written := by
  obtain ⟨hrequests, hwritten⟩ := commands_grow is js
  refine ⟨(written_journal is).eq_of_length_le ?_, (hwritten.eq_of_length_le ?_).symm⟩
  · exact hall ▸ hrequests.length_le
  · exact hall ▸ (written_journal (is ++ js)).length_le

theorem serves_of_append {is js : List (Incident τ)} (h : (journal (is ++ js)).worker.stage.Serves) :
    (journal is).worker.stage.Serves := by
  cases hs : (journal is).worker.stage with
  | ending p cause =>
    obtain ⟨p', -, hp, -⟩ := ending_append hs js
    rw [hp] at h
    cases h
  | _ => trivial

/-- Once all commands are written that ever come, the replies that are read go to those outstanding, and
the later ones are messages, one for each and in order. It does not matter how the bytes are cut: the
replies are those of all bytes in a row. -/
theorem messages_since {is js : List (Incident τ)}
    (hall : commands (journal (is ++ js)).requests = (journal is).written) :
    ∃ new, Reply.decoded (read (is ++ js)) = Reply.decoded (read is) ++ new ∧
      Between (journal is) (journal (is ++ js)) new := by
  induction js using List.reverseRecOn with
  | nil => exact ⟨[], by simp, .inr rfl, by simp, by simp, [], by simp, fun _ => rfl⟩
  | append_singleton js i ih =>
    have hw := (written_of_all hall).2
    rw [← List.append_assoc] at hall hw ⊢
    rw [journal_concat] at hw
    have hinit : commands (journal (is ++ js)).requests = (journal is).written := by
      have hlater := (commands_grow (is ++ js) [i]).1
      have hearlier := (commands_grow is js).2.trans (written_journal (is ++ js))
      rw [hall] at hlater
      exact hlater.eq_of_length_le hearlier.length_le
    obtain ⟨new, hdecoded, hb⟩ := ih hinit
    rw [journal_concat]
    cases i with
    | abandon t =>
      rw [read_abandon]
      exact ⟨new, hdecoded, hb.serves, hb.written, hb.messages, hb.completions⟩
    | move m =>
      rw [read_move]
      by_cases hm : ∃ bs, m = .received bs ∧ (journal (is ++ js)).worker.stage = .idle
      · obtain ⟨bs, rfl, hs⟩ := hm
        have hserves : (journal (is ++ js)).worker.stage.Serves := by rw [hs]; trivial
        obtain ⟨h₀, hwritten⟩ := written_of_all hinit
        have hs₀ := serves_of_append hserves
        have hout := hb.outstanding hs₀ hserves h₀ (hwritten.trans hinit.symm)
        have hreads : (journal (is ++ js)).worker.reads (.received bs) = bs := by simp only [reads, hs]
        refine ⟨_, ?_, hb.step_received hs₀ hs hout bs hw⟩
        rw [hreads, Reply.decoded, Reply.Decoder.drain_append, drained_journal _ hserves,
          ← List.append_assoc, ← hdecoded]
        rfl
      · have hquiet : ∀ bs, m = .received bs → (journal (is ++ js)).worker.stage ≠ .idle :=
          fun bs hb hs => hm ⟨bs, hb, hs⟩
        rw [reads_eq_nil hquiet, List.append_nil]
        exact ⟨new, hdecoded, hb.step_quiet hquiet hw⟩

end RespClient.Connection.Worker
