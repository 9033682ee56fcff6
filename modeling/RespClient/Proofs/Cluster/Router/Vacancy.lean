import RespClient.Proofs.Cluster.Router.Liveness

namespace RespClient.Cluster

def Action.isEnd : Action → Bool
  | reportEnd => true
  | _ => false

def Input.isEnd : Input → Bool
  | ended _ => true
  | _ => false

namespace Router

variable {s : ClusterSettings} {is later : List Input} {i : Input} {r r' core : Router}
  {log acts : List Action}

def reports (acts : List Action) : Nat := acts.countP Action.isEnd

def endsEmpty (r : Router) (i : Input) : Bool := i.isEnd && (r.step i).1.pool.isEmpty

def empties (r : Router) (i : Input) : Bool := !r.pool.isEmpty && (r.step i).1.pool.isEmpty

def tally (p : Router → Input → Bool) (r : Router) : List Input → Nat
  | [] => 0
  | i :: is => (p r i).toNat + tally p (r.step i).1 is

theorem reports_eq_zero (h : .reportEnd ∉ acts) : reports acts = 0 := by
  refine List.countP_eq_zero.mpr fun x hx => ?_
  cases x with
  | reportEnd => exact absurd hx h
  | _ => exact Bool.false_ne_true

theorem not_reportEnd_of_warn (h : ∀ x ∈ acts, ∃ text, x = Action.warn text) :
    .reportEnd ∉ acts := by
  intro hx
  obtain ⟨_, ⟨⟩⟩ := h _ hx

theorem Turn.silent {t : Task} {job? : Option Job} {fresh : List Job}
    (h : Turn r i t job? fresh core acts) : .reportEnd ∉ acts := by
  cases h with
  | dial h => cases h <;> simp
  | refresh h =>
    cases h with
    | fill => exact not_reportEnd_of_warn (dialWarnings_warn r _)
    | _ => simp
  | send h =>
    cases h with
    | refreshed _ _ hw => exact not_reportEnd_of_warn hw
    | _ => simp
  | opening h => cases h <;> simp
  | recovered _ hw => exact not_reportEnd_of_warn hw
  | reload | reloaded | recover | dialed | refused | rested => simp

theorem Event.silent (h : Event r i r' acts) (hi : i.isEnd = false) : .reportEnd ∉ acts := by
  cases h with
  | turn _ h => exact h.silent
  | call h => cases h <;> simp
  | news h =>
    cases h with
    | ended => cases hi
    | _ => simp

theorem step_reports (r : Router) (i : Input) : reports (r.step i).2 = (r.endsEmpty i).toNat := by
  cases hi : i.isEnd with
  | false =>
    rw [reports_eq_zero ((step_event r i).silent hi), endsEmpty, hi]
    rfl
  | true =>
    cases i with
    | ended c =>
      simp only [endsEmpty, Input.isEnd, Bool.true_and, step, ended]
      cases (r.forget (r.origin c)).pool.isEmpty <;> rfl
    | _ => cases hi

theorem run_reports (r : Router) (is : List Input) :
    reports (r.run is).2 = tally endsEmpty r is := by
  induction is generalizing r with
  | nil => rfl
  | cons i is ih =>
    simp only [run, tally, ← ih, ← step_reports]
    exact List.countP_append

theorem Reaches.log_eq (h : Reaches s is r log) : log = (Router.run { settings := s } is).2 := by
  induction h with
  | start => rfl
  | step h _ ih =>
    rw [run_concat, ← ih, h.eq_after]
    rfl

/-- What is the case after each input of a run. -/
def Throughout (P : Router → Prop) (r : Router) : List Input → Prop
  | [] => True
  | i :: is => P (r.step i).1 ∧ Throughout P (r.step i).1 is

instance decidableThroughout {P : Router → Prop} [DecidablePred P] :
    (r : Router) → (is : List Input) → Decidable (Throughout P r is)
  | _, [] => isTrue trivial
  | r, i :: is =>
    have := decidableThroughout (P := P) (r.step i).1 is
    inferInstanceAs (Decidable (P (r.step i).1 ∧ Throughout P (r.step i).1 is))

theorem tally_of_pooled (h : Throughout (fun r => r.pool ≠ []) r is) :
    tally endsEmpty r is = 0 := by
  induction is generalizing r with
  | nil => rfl
  | cons i is ih =>
    obtain ⟨hp, h⟩ := h
    simp [tally, ih h, endsEmpty, hp]

theorem tally_of_empty (h : Throughout (fun r => r.pool = []) r is) :
    tally endsEmpty r is = is.countP Input.isEnd := by
  induction is generalizing r with
  | nil => rfl
  | cons i is ih =>
    obtain ⟨hp, h⟩ := h
    rw [tally, ih h, List.countP_cons, endsEmpty, hp]
    cases i.isEnd <;> simp [Nat.add_comm]

theorem forget_eq_nil (hk : (r.pool.map (·.1)).Nodup) {a : String} (hp : r.pool ≠ [])
    (h : (r.forget a).pool = []) : ∃ c ∈ r.down, r.pool = [(a, c)] := by
  unfold forget at h
  split at h
  next c hc =>
    split at h
    next hd =>
      have hmem : (a, c) ∈ r.pool := mem_of_pooled? hc
      have hall (e : String × ConnId) (he : e ∈ r.pool) : e = (a, c) := by
        have hkey : e.1 = a := by simpa using List.filter_eq_nil_iff.mp h e he
        exact List.inj_on_of_nodup_map hk he hmem hkey
      refine ⟨c, isDown_iff.mp hd, ?_⟩
      have hlen := List.eq_replicate_of_mem hall
      have hnodup : r.pool.Nodup := .of_map _ hk
      rw [hlen, List.nodup_replicate] at hnodup
      obtain ⟨e, es, hes⟩ := List.exists_cons_of_ne_nil hp
      have hone : r.pool.length = 1 := by
        rw [hes, List.length_cons] at hnodup ⊢
        omega
      rw [hlen, hone]
      rfl
    · exact absurd h hp
  · exact absurd h hp

theorem Turn.empties {t : Task} {job? : Option Job} {fresh : List Job}
    (h : Turn r i t job? fresh core acts) (hp : r.pool ≠ []) (he : core.pool = []) :
    (∃ table choice, i = .step t.id choice ∧ t.job = .refresh (.evicting table)) ∧
      job? = some (.refresh (.closing (r.pool.map (·.2)))) := by
  cases h with
  | dial h =>
    cases h with
    | join => simp [insert] at he
    | _ => exact absurd he hp
  | refresh h =>
    cases h with
    | @evict table =>
      refine ⟨⟨table, _, rfl, rfl⟩, ?_⟩
      have hall : (r.pool.filter fun e => !table.addresses.contains e.1) = r.pool := by
        refine List.filter_eq_self.mpr fun e hm => ?_
        simpa using List.filter_eq_nil_iff.mp he e hm
      rw [hall]
    | _ => exact absurd he hp
  | send h => cases h <;> exact absurd he hp
  | opening h => cases h <;> exact absurd he hp
  | reload | reloaded | recover | recovered | dialed | refused | rested => exact absurd he hp

/-- A handler takes the last connection away, or a refresh takes all of them. -/
theorem Reaches.emptied (h : Reaches s is r log) (he : r.empties i = true) :
    (∃ c d, (i = .ended c ∨ ∃ e, i = .failed c e) ∧ d ∈ r.down ∧ r.pool = [(r.origin c, d)]) ∨
    ∃ t ∈ r.tasks, ∃ table choice, i = .step t.id choice ∧ t.job = .refresh (.evicting table) ∧
      ∃ u ∈ (r.step i).1.tasks, u.id = t.id ∧ u.job = .refresh (.closing (r.pool.map (·.2))) := by
  have hk := h.custody.keys
  obtain ⟨hp, hn⟩ : r.pool ≠ [] ∧ (r.step i).1.pool = [] := by simpa [empties] using he
  have hx := step_event r i
  generalize (r.step i).1 = r' at hx hn ⊢
  generalize (r.step i).2 = acts at hx
  cases hx with
  | turn ht hx =>
    rw [turn_eq] at hn
    obtain ⟨⟨table, choice, hi, hj⟩, hj'⟩ := hx.empties hp hn
    refine .inr ⟨_, ht, table, choice, hi, hj, ?_⟩
    exact ⟨_, (h.forest.mem_turn ht hx.grows).mpr (.inr (.inl ⟨_, hj', rfl⟩)), rfl, rfl⟩
  | call hx =>
    cases hx with
    | recovery =>
      obtain ⟨d, hd, hpool⟩ := forget_eq_nil hk hp hn
      exact .inl ⟨_, d, .inr ⟨_, rfl⟩, hd, hpool⟩
    | opening | send | reload => exact absurd hn hp
  | news hx =>
    cases hx with
    | failed =>
      obtain ⟨d, hd, hpool⟩ := forget_eq_nil hk hp hn
      exact .inl ⟨_, d, .inr ⟨_, rfl⟩, hd, hpool⟩
    | ended =>
      obtain ⟨d, hd, hpool⟩ := forget_eq_nil hk hp hn
      exact .inl ⟨_, d, .inl rfl, hd, hpool⟩
    | idle | reply | down | close => exact absurd hn hp

/-- The observer of the end is told with each end that is handled while nothing is in the pool, and at
no other time. So it hears nothing as long as something is pooled, and as many times as ends are handled
as long as nothing is. The pool gets empty by a handler whose node had the last connection, and which
tells at once if it is an end handler; or by a refresh, which is going to close each connection that
was there, and tells nobody. -/
theorem end_reported_while_empty (h : Reaches s is r log) :
    reports log = tally endsEmpty { settings := s } is ∧
    (∀ later, Throughout (fun r => r.pool ≠ []) r later → reports (r.run later).2 = 0) ∧
    (∀ later, Throughout (fun r => r.pool = []) r later →
      reports (r.run later).2 = later.countP Input.isEnd) ∧
    ∀ i, r.empties i = true → reports (r.step i).2 = i.isEnd.toNat ∧
      ((∃ c d, (i = .ended c ∨ ∃ e, i = .failed c e) ∧ d ∈ r.down ∧ r.pool = [(r.origin c, d)]) ∨
      ∃ t ∈ r.tasks, ∃ table choice, i = .step t.id choice ∧ t.job = .refresh (.evicting table) ∧
        ∃ u ∈ (r.step i).1.tasks, u.id = t.id ∧
          u.job = .refresh (.closing (r.pool.map (·.2)))) := by
  refine ⟨?_, ?_, ?_, ?_⟩
  · rw [h.log_eq, run_reports]
  · intro later hl
    rw [run_reports, tally_of_pooled hl]
  · intro later hl
    rw [run_reports, tally_of_empty hl]
  · intro i he
    refine ⟨?_, h.emptied he⟩
    have hn : (r.step i).1.pool = [] := (by simpa [empties] using he : _ ∧ _).2
    rw [step_reports, endsEmpty, hn, List.isEmpty_nil, Bool.and_true]

def twoSeeds : ClusterSettings := { seeds := ["a:1", "b:2"] }

/-- Two nodes are pooled, and a refresh comes to a table that lists neither. -/
def deserted : List Input :=
  [.opening, .step 0 0, .step 1 0, .step 2 0, .dialed 1 (.ok 0), .dialed 2 (.ok 1),
    .step 1 0, .step 1 0, .step 1 0, .step 2 0, .step 2 0, .step 2 0, .step 0 0,
    .step 3 0, .step 3 0, .step 3 0, .step 3 0,
    .reply 4 (.ok (.multi (some [.multi (some [.integer 0, .integer 9,
      .multi (some [.status "c", .integer 1])])]))),
    .step 3 0, .step 3 0, .step 5 0, .dialed 5 (.error .connectionClosed), .step 3 0, .step 3 0]

/-- What follows: both are evicted, end, and have their ends handled. -/
def departures : List Input :=
  [.step 3 0, .step 3 0, .step 3 0, .down 0, .down 1, .ended 0, .ended 1]

/-- One refresh empties the pool, and two ends are reported. -/
theorem end_reported_while_empty_deserted :
    (after twoSeeds deserted).empties (.step 3 0) = true ∧
      reports ((after twoSeeds deserted).run departures).2 = 2 := by
  have hr : Reaches twoSeeds deserted (after twoSeeds deserted) _ :=
    Reaches.start.run deserted (by decide +kernel)
  have hl : Throughout (fun r => r.pool = []) (after twoSeeds deserted) departures := by
    decide +kernel
  exact ⟨by decide +kernel, (end_reported_while_empty hr).2.2.1 departures hl⟩

/-- A dial whose connection ends before it is pooled. -/
def stillborn : List Input :=
  [.opening, .step 0 0, .step 1 0, .dialed 1 (.ok 0), .step 1 0, .step 1 0, .down 0, .ended 0]

/-- The pool may get empty once and the observer be told twice, and it may be told with nothing ever
pooled. -/
theorem reports_exceed_emptyings :
    (∃ r log, Reaches twoSeeds (deserted ++ departures) r log ∧
      tally empties { settings := twoSeeds } (deserted ++ departures) = 1 ∧ reports log = 2) ∧
    ∃ r log, Reaches { seeds := ["a:1"] } stillborn r log ∧
      Throughout (fun r => r.pool = []) { settings := { seeds := ["a:1"] } } stillborn ∧
      reports log = 1 := by
  constructor
  · exact ⟨_, _, Reaches.start.run _ (by decide +kernel), by decide +kernel, by decide +kernel⟩
  · exact ⟨_, _, Reaches.start.run _ (by decide +kernel), by decide +kernel, by decide +kernel⟩

end Router

end RespClient.Cluster
