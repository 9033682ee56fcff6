import Mathlib.Data.List.Infix
import RespClient.Proofs.Connection.History

namespace RespClient.Connection

variable {τ : Type}

/-- The outcomes that replies bring, each to the command in its place. -/
def answered (commands : List (τ × Bytes)) (rs : List Reply) : List (τ × Outcome) :=
  (commands.zip rs).map fun x => (x.1.1, Outcome.ofReply x.2)

/-- More commands do not change who is answered, and more replies answer the next commands. -/
theorem answered_append (commands later : List (τ × Bytes)) (rs more : List Reply)
    (h : rs.length + more.length ≤ commands.length) :
    answered (commands ++ later) (rs ++ more) = answered commands rs ++
      (((commands.map Prod.fst).drop rs.length).zip more).map
        fun x => (x.1, Outcome.ofReply x.2) := by
  induction commands generalizing rs more with
  | nil =>
    obtain ⟨rfl, rfl⟩ : rs = [] ∧ more = [] := by
      simpa [List.length_eq_zero_iff] using h
    simp [answered]
  | cons x commands ih =>
    cases rs with
    | nil =>
      cases more with
      | nil => simp [answered]
      | cons r more =>
        have hm := ih [] more (by simpa using h)
        simpa [answered] using hm
    | cons r rs =>
      have hm := ih rs more (by simp at h ⊢; omega)
      simpa [answered] using hm

/-- Each written command is answered by the reply in its place, as far as replies have come, and
only the end adds refusals. Nobody gets a message. -/
structure Served (h : Record τ) : Prop where
  completed : ∃ refused, completions h.effects =
    answered h.written (Reply.decoded h.read) ++ refused ∧
      (h.connection.ended = false → refused = [])
  messages : messages h.effects = []

theorem Served.outstanding {h : Record τ} (s : Served h) (l : Ledger h)
    (hopen : h.connection.ended = false)
    (hle : (Reply.decoded h.read).length ≤ h.written.length) :
    completions h.effects = answered h.written (Reply.decoded h.read) ∧
      h.connection.outstanding = (h.written.map Prod.fst).drop (Reply.decoded h.read).length := by
  obtain ⟨refused, hc, hr⟩ := s.completed
  rw [hr hopen, List.append_nil] at hc
  refine ⟨hc, ?_⟩
  have hlength : ((completions h.effects).map Prod.fst).length = (Reply.decoded h.read).length := by
    rw [hc, answered]
    simp [hle]
  rw [l.outstanding, ← hlength, List.drop_left]

theorem Served.getElem? {h : Record τ} (s : Served h) {n : Nat} {x : τ × Bytes} {r : Reply}
    (hx : h.written[n]? = some x) (hr : (Reply.decoded h.read)[n]? = some r) :
    (completions h.effects)[n]? = some (x.1, Outcome.ofReply r) := by
  obtain ⟨refused, hc, -⟩ := s.completed
  have hzip : (answered h.written (Reply.decoded h.read))[n]? = some (x.1, Outcome.ofReply r) := by
    have hz : (h.written.zip (Reply.decoded h.read))[n]? = some (x, r) :=
      List.getElem?_zip_eq_some.2 ⟨hx, hr⟩
    rw [answered, List.getElem?_map, hz]
    rfl
  rw [hc, List.getElem?_append_left (List.getElem?_eq_some_iff.1 hzip).1, hzip]

variable [DecidableEq τ]

/-- At no time more replies were read than commands were written before. -/
def Causal (is : List (Incident τ)) : Prop :=
  ∀ p, p <+: is → (Reply.decoded (record p).read).length ≤ (record p).written.length

theorem Causal.init {is : List (Incident τ)} {i : Incident τ} (h : Causal (is ++ [i])) :
    Causal is :=
  fun p hp => h p (hp.trans (List.prefix_append _ _))

theorem Causal.length_le {is : List (Incident τ)} (h : Causal is) :
    (Reply.decoded (record is).read).length ≤ (record is).written.length :=
  h is List.prefix_rfl

/-- The replies that the next event completes were asked for before. -/
theorem Causal.arrivals_le {is : List (Incident τ)} {e : Event τ}
    (h : Causal (is ++ [.event e])) :
    (Reply.decoded (record is).read).length + ((record is).connection.arrivals e).length ≤
      (record is).written.length := by
  cases e with
  | received bs =>
    have hle := h.length_le
    rw [record_concat] at hle
    change (Reply.decoded ((record is).read ++ _)).length ≤
      ((record is).written ++ []).length at hle
    rwa [decoded_intake, List.length_append, List.append_nil] at hle
  | submit | turn | endOfStream | readFailure => simpa [arrivals] using h.init.length_le

section
variable {is : List (Incident τ)} {e : Event τ} {last : List (Effect τ)}

theorem completions_event (b : Beside (record is).connection e last) :
    completions (record (is ++ [.event e])).effects = completions (record is).effects ++
      (((record is).connection.outstanding.zip ((record is).connection.arrivals e)).map
        fun x => (x.1, Outcome.ofReply x.2)) ++ completions last := by
  rw [record_concat]
  change completions ((record is).effects ++ ((record is).connection.step e).2) = _
  rw [completions_append, b.effects, completions_append, completions_answers, List.append_assoc]

theorem messages_event (b : Beside (record is).connection e last) :
    messages (record (is ++ [.event e])).effects = messages (record is).effects ++
      ((record is).connection.arrivals e).drop (record is).connection.outstanding.length := by
  rw [record_concat]
  change messages ((record is).effects ++ ((record is).connection.step e).2) = _
  rw [messages_append, b.effects, messages_append, messages_answers, b.refusing.messages,
    List.append_nil]

theorem answered_event : answered (record (is ++ [.event e])).written
      (Reply.decoded (record (is ++ [.event e])).read) =
    answered ((record is).written ++ (record is).connection.taken e)
      (Reply.decoded (record is).read ++ (record is).connection.arrivals e) := by
  rw [record_concat, ← decoded_intake]
  rfl

theorem ended_event : (record (is ++ [.event e])).connection.ended =
    ((record is).connection.step e).1.ended := by
  rw [record_concat]
  rfl

/-- An ended connection reads nothing more, and adds but refusals. -/
theorem Served.step_ended (s : Served (record is)) (hend : (record is).connection.ended = true) :
    Served (record (is ++ [.event e])) := by
  obtain ⟨last, b⟩ := step_effects (record is).connection e
  obtain ⟨refused, hc, -⟩ := s.completed
  have ha := arrivals_of_ended e hend
  have hend' := Connection.step_ended e hend
  refine ⟨⟨refused ++ completions last, ?_, fun h => ?_⟩, ?_⟩
  · rw [completions_event b, answered_event, ha, taken_of_ended hend', hc]
    simp
  · rw [ended_event, hend'] at h
    cases h
  · rw [messages_event b, s.messages, ha, List.drop_nil, List.nil_append]

/-- The outstanding tickets are those behind the answered ones, so they get the replies behind. -/
theorem Served.step_going (s : Served (record is)) (hend : (record is).connection.ended = false)
    (hcausal : Causal (is ++ [.event e])) : Served (record (is ++ [.event e])) := by
  obtain ⟨last, b⟩ := step_effects (record is).connection e
  have hle := hcausal.arrivals_le
  obtain ⟨hc, hout⟩ := s.outstanding (ledger_record is hend) hend hcausal.init.length_le
  refine ⟨⟨completions last, ?_, fun h => b.completions (ended_event.symm.trans h)⟩, ?_⟩
  · rw [completions_event b, answered_event, answered_append _ _ _ _ hle, hc, hout]
  · rw [messages_event b, s.messages, List.nil_append]
    refine List.drop_eq_nil_of_le ?_
    rw [hout, List.length_drop, List.length_map]
    omega

end

theorem served_record (is : List (Incident τ)) (h : Causal is) : Served (record is) := by
  induction is using List.reverseRecOn with
  | nil =>
    exact ⟨⟨[], rfl, fun _ => rfl⟩, rfl⟩
  | append_singleton is i ih =>
    have s := ih h.init
    cases i with
    | event e =>
      cases hend : (record is).connection.ended with
      | true => exact s.step_ended hend
      | false => exact s.step_going hend h
    | abandon t =>
      rw [record_concat]
      exact ⟨s.completed, s.messages⟩

/-- Through all that may happen to a connection, the replies that an event completes go to the
outstanding tickets in order, and are messages where no ticket is left; no other event hands out a
reply. As long as the connection goes on, the outstanding tickets are those of the written and not
answered commands in the order of submission, and no complete reply is left in the buffer. If the
server answers only what was written, nobody gets a message, and the command submitted in the n-th
place completes with the n-th reply, an error reply as a failure with its text, which its caller
hears if it still waits. -/
theorem replies_in_order (is : List (Incident τ)) :
    let h := record is
    let c := h.connection
    (c, h.effects) = run ({} : Connection τ) (is.filterMap Incident.event?) ∧
    sent h.effects = h.written.flatMap Prod.snd ∧
    (∀ r : Reply, (∀ text, r = .error text → Outcome.ofReply r = .error (.reply text)) ∧
      (r.isError = false → Outcome.ofReply r = .ok r)) ∧
    (∀ e, ∃ last, (c.step e).2 = answers c.outstanding (c.arrivals e) ++ last ∧ Refusing last ∧
      Reply.decoded (h.read ++ c.intake e) = Reply.decoded h.read ++ c.arrivals e) ∧
    (c.ended = false →
      h.submitted = h.written ++ c.waiting ∧
      h.written.map Prod.fst = (completions h.effects).map Prod.fst ++ c.outstanding ∧
      c.decoder.decode c.buffer = (.more, c.decoder, c.buffer)) ∧
    ∀ rs w rest, Reply.Wires ({} : Reply.Limits).bulk ({} : Reply.Limits).depth rs w →
      h.read = w ++ rest → Causal is →
      messages h.effects = [] ∧
      ∀ (n : Nat) (r : Reply), rs[n]? = some r → ∃ x : τ × Bytes, h.submitted[n]? = some x ∧
        (completions h.effects)[n]? = some (x.1, Outcome.ofReply r) ∧
        (x.1 ∉ h.abandoned → (x.1, Outcome.ofReply r) ∈ h.heard) := by
  intro h c
  refine ⟨record_run is, sent_written is, ?_, ?_, ?_, ?_⟩
  · exact fun r => ⟨fun text hr => hr ▸ rfl, Outcome.ofReply_of_not_error⟩
  · intro e
    obtain ⟨last, b⟩ := step_effects c e
    exact ⟨last, b.effects, b.refusing, decoded_intake is e⟩
  · intro hopen
    have l := ledger_record is hopen
    exact ⟨l.queue, l.outstanding, l.idle⟩
  · intro rs w rest hw hread hcausal
    have s := served_record is hcausal
    refine ⟨s.messages, ?_⟩
    intro n r hn
    have hdecoded : (Reply.decoded h.read)[n]? = some r := by
      have hlt := (List.getElem?_eq_some_iff.1 hn).1
      rw [hread, Reply.decoded_wires hw, List.getElem?_append_left hlt, hn]
    have hlt : n < h.written.length :=
      Nat.lt_of_lt_of_le (List.getElem?_eq_some_iff.1 hdecoded).1 hcausal.length_le
    have hx : h.written[n]? = some h.written[n] := List.getElem?_eq_getElem hlt
    have hcom := s.getElem? hx hdecoded
    refine ⟨h.written[n], ?_, hcom, ?_⟩
    · obtain ⟨later, hsub⟩ := written_prefix is
      rw [← hsub, List.getElem?_append_left hlt, hx]
    · exact heard_of_completed is (List.mem_of_getElem? hcom)

/-- Two commands in one batch, the first caller gone, and two replies cut in the middle of the
first, with malformed bytes behind the second. -/
theorem replies_in_order_cut :
    let is : List (Incident Nat) := [.event (.submit (.command 0 [1])), .event (.submit .pause),
      .event (.submit (.command 1 [2, 3])), .event (.turn true true), .abandon 0,
      .event (.received [45, 69, 13]), .event (.received [10, 43, 79, 75, 13, 10, 33, 10])]
    Causal is ∧ messages (record is).effects = [] ∧
      (completions (record is).effects)[0]? = some (0, .error (.reply "E")) ∧
      (completions (record is).effects)[1]? = some (1, .ok (.status "OK")) ∧
      (1, .ok (.status "OK")) ∈ (record is).heard := by
  intro is
  have hcausal : Causal is := by
    intro p hp
    have hall : ∀ q ∈ is.inits,
        (Reply.decoded (record q).read).length ≤ (record q).written.length := by
      decide +kernel
    exact hall p ((List.mem_inits p is).2 hp)
  have hw : Reply.Wires ({} : Reply.Limits).bulk ({} : Reply.Limits).depth
      [.error (Text.Utf8.lenient [69]), .status (Text.Utf8.lenient [79, 75])]
      [45, 69, 13, 10, 43, 79, 75, 13, 10] :=
    .cons (.error (by decide)) (.cons (.status (by decide)) .nil)
  have hE : Text.Utf8.lenient [69] = "E" := by decide +kernel
  have hOK : Text.Utf8.lenient [79, 75] = "OK" := by decide +kernel
  rw [hE, hOK] at hw
  obtain ⟨-, -, -, -, -, h⟩ := replies_in_order is
  obtain ⟨hmessages, hserved⟩ := h _ _ [33, 10] hw (by decide +kernel) hcausal
  obtain ⟨x, hx, hfirst, -⟩ := hserved 0 _ rfl
  obtain ⟨y, hy, hsecond, hheard⟩ := hserved 1 _ rfl
  cases hx
  cases hy
  exact ⟨hcausal, hmessages, hfirst, hsecond, hheard (by decide +kernel)⟩

end RespClient.Connection
