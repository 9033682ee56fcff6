import RespClient.Proofs.Connection.Closing

namespace RespClient.Connection.Worker

variable {τ : Type}

/-- Requests that were taken up, none of them a close, stood before the first close. -/
theorem prefix_of_close {taken before behind : List (Request τ)}
    (h : taken <+: before ++ .close :: behind) (hclose : .close ∉ taken) : taken <+: before := by
  induction before generalizing taken with
  | nil =>
    cases taken with
    | nil => exact List.prefix_rfl
    | cons r rest =>
      obtain ⟨rfl, -⟩ := List.cons_prefix_cons.1 h
      exact absurd List.mem_cons_self hclose
  | cons b before ih =>
    cases taken with
    | nil => exact List.nil_prefix
    | cons r rest =>
      obtain ⟨rfl, hrest⟩ := List.cons_prefix_cons.1 h
      exact List.cons_prefix_cons.2 ⟨rfl, ih hrest fun hm => hclose (List.mem_cons_of_mem _ hm)⟩

theorem answered_tickets (cs : List (τ × Bytes)) (rs : List Reply) :
    (answered cs rs).map Prod.fst = (cs.map Prod.fst).take rs.length := by
  rw [← map_fst_answered, List.zip_map_left, List.map_map, answered, List.map_map, List.map_map]
  rfl

variable [DecidableEq τ]

theorem sent_journal (is : List (Incident τ)) :
    sent (journal is).effects = (journal is).written.flatMap Prod.snd := by
  cases h : (journal is).worker.stage with
  | idle | gathering | writing => exact (serving_journal h trivial).bytes
  | ending p cause => exact (ending_journal h).bytes

theorem written_before_close {is : List (Incident τ)} {before behind : List (Request τ)}
    (h : (journal is).requests = before ++ .close :: behind) :
    (journal is).written <+: commands before := by
  have hall : (journal is).written <+: commands (journal is).taken ∧
      (journal is).taken <+: (journal is).requests ∧ .close ∉ (journal is).taken := by
    cases h : (journal is).worker.stage with
    | idle | gathering | writing =>
      have s := serving_journal h trivial
      exact ⟨s.written, ⟨_, s.requests.symm⟩, s.close_not_mem⟩
    | ending p cause =>
      have e := ending_journal h
      exact ⟨e.written, e.taken, e.close_not_mem⟩
  obtain ⟨hwritten, htaken, hclose⟩ := hall
  obtain ⟨rest, hrest⟩ := prefix_of_close (h ▸ htaken) hclose
  rw [← hrest, commands_append]
  exact hwritten.trans (List.prefix_append _ _)

/-- The bytes written are always whole frames of the first commands submitted, whatever the batches.
While the worker serves, the requests are those taken up and those queued, no close was taken up, and
the frames gathered and not yet written wait in one piece, in order. Bytes are only dispatched when
nothing is gathered; the outstanding tickets are then those of the written commands that are not
answered. So a reply is only ever matched to a written command. What stands behind a close is never
written, and nothing is once the loop is left; in the end all commands without a reply, written or not,
are refused. -/
theorem writes_whole_frames :
    (∀ es : List (Event τ), ∃ is : List (Incident τ),
      ((journal is).worker.connection, (journal is).effects) = Connection.run {} es) ∧
    ∀ is : List (Incident τ),
      let j := journal is
      let w := j.worker
      (sent j.effects = j.written.flatMap Prod.snd ∧ j.written <+: commands j.requests) ∧
      (w.stage.Serves → j.requests = j.taken ++ w.connection.queue ∧ .close ∉ j.taken ∧
        commands j.taken = j.written ++ j.batch ∧ w.unsent = j.batch.flatMap Prod.snd) ∧
      (∀ bs, w.stage ≠ .idle → w.step (.received bs) = (w, [])) ∧
      (w.stage = .idle → w.unsent = [] ∧
        j.written.map Prod.fst = (completions j.effects).map Prod.fst ++ w.connection.outstanding) ∧
      (∃ rs refused, rs.length ≤ j.written.length ∧
        completions j.effects = answered j.written rs ++ refused ∧
        (∀ x ∈ refused, x.2 = .error .connectionClosed) ∧ (w.stage.Serves → refused = []) ∧
        ∀ cause, w.stage = .ending .gone cause →
          ((tickets j.requests).drop rs.length).Perm (refused.map Prod.fst)) ∧
      (∀ before behind, j.requests = before ++ .close :: behind → j.written <+: commands before) ∧
      ∀ p cause, w.stage = .ending p cause →
        ∀ later, (journal (is ++ later)).written = j.written := by
  refine ⟨exists_journal, fun is => ?_⟩
  intro j w
  refine ⟨⟨sent_journal is, written_journal is⟩, fun hserves => ?_, fun bs hidle => ?_,
    fun hidle => ?_, ?_, fun _ _ => written_before_close, fun p cause hp later => ?_⟩
  · have s := serving_journal rfl hserves
    obtain ⟨rest, hrest⟩ := s.written
    refine ⟨s.requests, s.close_not_mem, ?_, s.unsent⟩
    rw [Journal.batch, ← hrest, List.drop_left]
  · simp only [step]
  · have s := serving_journal hidle trivial
    have hbatch := s.idle hidle
    obtain ⟨rest, hrest⟩ := s.written
    have hrest' : rest = [] := by rwa [Journal.batch, ← hrest, List.drop_left] at hbatch
    refine ⟨by rw [s.unsent, hbatch]; rfl, ?_⟩
    rw [← s.outstanding, tickets, ← hrest, hrest', List.append_nil]
  · obtain ⟨rs, refused, hle, hcom, hrefused, hserves⟩ := outcomes_journal is
    refine ⟨rs, refused, hle, hcom, hrefused, hserves, fun cause hover => ?_⟩
    have hperm := settled_journal hover trivial
    rw [hcom, List.map_append, ← answered_of_prefix (written_journal is) hle, answered_tickets,
      ← tickets] at hperm
    nth_rewrite 1 [← List.take_append_drop rs.length (tickets j.requests)] at hperm
    exact (List.perm_append_left_iff _).1 hperm
  · obtain ⟨-, -, -, -, -, hwritten, -⟩ := ending_append hp later
    exact hwritten

/-- Two batches, a reply between them, and a close in the second. -/
theorem writes_whole_frames_close :
    let is : List (Incident Nat) := [.move (.submit (.command 0 [1])),
      .move (.submit (.command 1 [2])), .move (.advance true), .move (.advance true),
      .move (.advance true), .move (.wrote none), .move (.received [43, 13, 10]),
      .move (.submit (.command 2 [3])), .move (.submit .close), .move (.submit (.command 3 [4]))] ++
      List.replicate 14 (.move (.advance true))
    (journal is).written = [(0, [1]), (1, [2])] ∧ sent (journal is).effects = [1, 2] ∧
      (journal is).written <+: [(0, [1]), (1, [2]), (2, [3])] := by
  intro is
  have hwritten : (journal is).written = [(0, [1]), (1, [2])] := by decide +kernel
  have hrequests : (journal is).requests =
      [.command 0 [1], .command 1 [2], .command 2 [3]] ++ .close :: [.command 3 [4]] := rfl
  obtain ⟨⟨hsent, -⟩, -, -, -, -, hclose, -⟩ := (writes_whole_frames (τ := Nat)).2 is
  refine ⟨hwritten, ?_, hclose _ _ hrequests⟩
  rw [hsent, hwritten]
  rfl

end RespClient.Connection.Worker
