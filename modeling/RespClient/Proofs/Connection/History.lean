import Mathlib.Data.List.Induction
import RespClient.Proofs.Connection.Step

namespace RespClient.Connection

variable {τ : Type}

/-- What happens around a connection. A caller may stop waiting for its ticket, of which the
connection is not told. -/
inductive Incident (τ : Type) where
  | event (e : Event τ)
  | abandon (ticket : τ)

def Incident.event? : Incident τ → Option (Event τ)
  | .event e => some e
  | .abandon _ => none

structure Record (τ : Type) where
  connection : Connection τ := {}
  effects : List (Effect τ) := []
  submitted : List (τ × Bytes) := []
  /-- The commands whose frames were written, in that order. -/
  written : List (τ × Bytes) := []
  read : Bytes := []
  abandoned : List τ := []
  /-- The outcomes that found their caller waiting. -/
  heard : List (τ × Outcome) := []

/-- What the record says of the state, as long as the connection goes on. -/
structure Ledger (h : Record τ) : Prop where
  queue : h.submitted = h.written ++ h.connection.waiting
  outstanding : h.written.map Prod.fst =
    (completions h.effects).map Prod.fst ++ h.connection.outstanding
  decoder : Reply.Decoder.drain {} h.read =
    ⟨Reply.decoded h.read, h.connection.decoder, h.connection.buffer, none⟩

namespace Ledger

theorem idle {h : Record τ} (l : Ledger h) : h.connection.decoder.decode h.connection.buffer =
    (.more, h.connection.decoder, h.connection.buffer) := by
  have hd := Reply.Decoder.decode_of_drained {} h.read (by rw [l.decoder])
  rwa [l.decoder] at hd

theorem drain_append {h : Record τ} (l : Ledger h) (bs : Bytes) :
    Reply.Decoder.drain {} (h.read ++ bs) =
      (h.connection.decoder.drain (h.connection.buffer ++ bs)).behind (Reply.decoded h.read) := by
  rw [Reply.Decoder.drain_append, l.decoder]
  rfl

end Ledger

variable [DecidableEq τ]

def Record.step (h : Record τ) : Incident τ → Record τ
  | .event e =>
    { h with
      connection := (h.connection.step e).1
      effects := h.effects ++ (h.connection.step e).2
      submitted := h.submitted ++ e.command?.toList
      written := h.written ++ h.connection.taken e
      read := h.read ++ h.connection.intake e
      heard := h.heard ++
        (completions (h.connection.step e).2).filter fun x => !h.abandoned.contains x.1 }
  | .abandon t => { h with abandoned := h.abandoned ++ [t] }

def record (is : List (Incident τ)) : Record τ := is.foldl Record.step {}

theorem record_concat (is : List (Incident τ)) (i : Incident τ) :
    record (is ++ [i]) = (record is).step i := by
  rw [record, List.foldl_append]
  rfl

theorem record_run (is : List (Incident τ)) :
    ((record is).connection, (record is).effects) =
      run ({} : Connection τ) (is.filterMap Incident.event?) := by
  have hall : ∀ (is : List (Incident τ)) (h : Record τ),
      ((is.foldl Record.step h).connection, (is.foldl Record.step h).effects) =
        ((h.connection.run (is.filterMap Incident.event?)).1,
          h.effects ++ (h.connection.run (is.filterMap Incident.event?)).2) := by
    intro is
    induction is with
    | nil => intro h; simp [run]
    | cons i is ih =>
      intro h
      rw [List.foldl_cons, ih]
      cases i with
      | event e => simp [Record.step, Incident.event?, run]
      | abandon t => rfl
  exact hall is {}

namespace Ledger

theorem start : Ledger (record ([] : List (Incident τ))) where
  queue := rfl
  outstanding := rfl
  decoder := by
    change Reply.Decoder.drain {} [] = ⟨(Reply.Decoder.drain {} []).replies, {}, [], none⟩
    rw [Reply.Decoder.drain_of_more (Reply.Decoder.decode_nil {})]

theorem step {h : Record τ} (l : Ledger h) {e : Event τ}
    (hopen : (h.connection.step e).1.ended = false) : Ledger (h.step (.event e)) := by
  have b := step_balanced hopen
  constructor
  · change h.submitted ++ e.command?.toList =
      h.written ++ h.connection.taken e ++ (h.connection.step e).1.waiting
    rw [l.queue, List.append_assoc, b.queue, List.append_assoc]
  · change (h.written ++ h.connection.taken e).map Prod.fst =
      (completions (h.effects ++ (h.connection.step e).2)).map Prod.fst ++
        (h.connection.step e).1.outstanding
    rw [List.map_append, l.outstanding, List.append_assoc, b.outstanding, completions_append,
      List.map_append, List.append_assoc]
  · change Reply.Decoder.drain {} (h.read ++ h.connection.intake e) =
      ⟨(Reply.Decoder.drain {} (h.read ++ h.connection.intake e)).replies,
        (h.connection.step e).1.decoder, (h.connection.step e).1.buffer, none⟩
    rw [l.drain_append, b.decoder l.idle]
    rfl

end Ledger

theorem ledger_record (is : List (Incident τ)) (hopen : (record is).connection.ended = false) :
    Ledger (record is) := by
  induction is using List.reverseRecOn with
  | nil => exact Ledger.start
  | append_singleton is i ih =>
    rw [record_concat] at hopen ⊢
    cases i with
    | event e => exact (ih (ended_of_step hopen)).step hopen
    | abandon t =>
      have l := ih hopen
      exact ⟨l.queue, l.outstanding, l.decoder⟩

/-- Written is written in the order of submission, also when the connection has ended. -/
theorem written_prefix (is : List (Incident τ)) :
    (record is).written <+: (record is).submitted := by
  induction is using List.reverseRecOn with
  | nil => exact List.prefix_rfl
  | append_singleton is i ih =>
    cases hend : (record (is ++ [i])).connection.ended with
    | false => exact ⟨_, (ledger_record _ hend).queue.symm⟩
    | true =>
      rw [record_concat] at hend ⊢
      cases i with
      | event e =>
        change (record is).written ++ (record is).connection.taken e <+: _
        rw [taken_of_ended hend, List.append_nil]
        exact ih.trans (List.prefix_append _ _)
      | abandon t => exact ih

theorem sent_written (is : List (Incident τ)) :
    sent (record is).effects = (record is).written.flatMap Prod.snd := by
  induction is using List.reverseRecOn with
  | nil => rfl
  | append_singleton is i ih =>
    rw [record_concat]
    cases i with
    | event e =>
      obtain ⟨last, b⟩ := step_effects (record is).connection e
      change sent ((record is).effects ++ ((record is).connection.step e).2) =
        ((record is).written ++ (record is).connection.taken e).flatMap Prod.snd
      rw [b.effects, sent_append, sent_append, sent_answers, List.nil_append, b.sent, ih,
        List.flatMap_append]
    | abandon t => exact ih

/-- The replies that an event completes are those that it adds to the decoded ones. -/
theorem decoded_intake (is : List (Incident τ)) (e : Event τ) :
    Reply.decoded ((record is).read ++ (record is).connection.intake e) =
      Reply.decoded (record is).read ++ (record is).connection.arrivals e := by
  cases e with
  | received bs =>
    cases hend : (record is).connection.ended with
    | true => simp [intake, arrivals, hend]
    | false =>
      have l := ledger_record is hend
      simp only [intake, arrivals, hend, Bool.false_eq_true, if_false]
      rw [Reply.decoded, l.drain_append]
      rfl
  | submit | turn | endOfStream | readFailure => simp [intake, arrivals]

/-- A caller that still waits hears the outcome of its command. -/
theorem heard_of_completed (is : List (Incident τ)) {x : τ × Outcome}
    (hx : x ∈ completions (record is).effects) (hw : x.1 ∉ (record is).abandoned) :
    x ∈ (record is).heard := by
  induction is using List.reverseRecOn with
  | nil => cases hx
  | append_singleton is i ih =>
    rw [record_concat] at hx hw ⊢
    cases i with
    | event e =>
      change x ∈ completions ((record is).effects ++ ((record is).connection.step e).2) at hx
      rw [completions_append, List.mem_append] at hx
      refine List.mem_append.2 (hx.imp (fun h => ih h hw) fun h => List.mem_filter.2 ⟨h, ?_⟩)
      change x.1 ∉ (record is).abandoned at hw
      simpa using hw
    | abandon t => exact ih hx fun h => hw (List.mem_append_left _ h)

end RespClient.Connection
