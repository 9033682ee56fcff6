import RespClient.Proofs.Cluster.Router.Tables

namespace RespClient.Cluster

def DialStage.watched? : DialStage → Option ConnId
  | greet c | greeting c _ | join c | surplus c _ => some c
  | _ => none

def Job.watched? : Job → Option ConnId
  | dial _ stage => stage.watched?
  | _ => none

/-- The refresh has taken connections out of the pool, and will not fail. -/
def RefreshStage.evicted : RefreshStage → Prop
  | closing _ | done (.ok _) => True
  | _ => False

namespace Router

variable {s : ClusterSettings} {is later : List Input} {i : Input} {r r' core : Router}
  {log acts : List Action} {c : ConnId} {e : String × ConnId}

theorem DialTurn.watched {id : TaskId} {a : String} {stage stage' : DialStage}
    (h : DialTurn r id a stage stage' core acts) (hc : stage'.watched? = some c) :
    stage.watched? = some c ∨ .watchEnd c ∈ acts := by
  cases h with
  | guard => split at hc <;> cases hc <;> exact .inr (List.mem_singleton_self _)
  | mute | greet | greeted | rebuffed | beaten => cases hc; exact .inl rfl
  | _ => cases hc

theorem Turn.watched {t : Task} {job : Job} {fresh : List Job}
    (h : Turn r i t (some job) fresh core acts) (hc : job.watched? = some c) :
    t.job.watched? = some c ∨ .watchEnd c ∈ acts := by
  generalize hjob : some job = job? at h
  cases h with
  | dial h =>
    cases hjob
    exact h.watched hc
  | send h =>
    obtain ⟨s', -, rfl⟩ := Option.map_eq_some_iff.mp hjob.symm
    cases hc
  | opening h =>
    obtain ⟨stage, -, rfl⟩ := Option.map_eq_some_iff.mp hjob.symm
    cases hc
  | _ => cases hjob <;> cases hc

/-- What enters the pool is alive, and a dial has just come to its last step with it. -/
theorem Turn.joins {t : Task} {job? : Option Job} {fresh : List Job}
    (h : Turn r i t job? fresh core acts) (he : e ∈ core.pool) : e ∈ r.pool ∨
      (∃ choice, i = .step t.id choice) ∧ t.job = .dial e.1 (.join e.2) ∧ e.2 ∉ r.down := by
  cases h with
  | dial h =>
    cases h with
    | join hc =>
      rcases mem_insert.mp he with ⟨he, -⟩ | rfl
      · exact .inl he
      · exact .inr ⟨⟨_, rfl⟩, rfl, by simpa [isDown] using hc⟩
    | _ => exact .inl he
  | refresh h =>
    cases h with
    | evict => exact .inl (List.mem_of_mem_filter he)
    | _ => exact .inl he
  | send h => cases h <;> exact .inl he
  | opening h => cases h <;> exact .inl he
  | _ => exact .inl he

theorem Event.joins (h : Event r i r' acts) (hf : Forest r) (hk : (r.pool.map (·.1)).Nodup)
    (he : e ∈ r'.pool) : e ∈ r.pool ∨ ∃ t ∈ r.tasks, (∃ choice, i = .step t.id choice) ∧
      t.job = .dial e.1 (.join e.2) ∧ e.2 ∉ r.down := by
  cases h with
  | turn ht h =>
    rw [turn_eq] at he
    exact (h.joins he).imp_right fun hj => ⟨_, ht, hj⟩
  | call h => exact .inl ((h.lapse hf hk).pool.subset he)
  | news h => exact .inl ((h.lapse hk).pool.subset he)

/-- What enters the pool is alive, and its end is watched. -/
theorem Event.enters (h : Event r i r' acts) (hf : Forest r) (hk : (r.pool.map (·.1)).Nodup)
    (he : e ∈ r'.pool) : e ∈ r.pool ∨ ∃ t ∈ r.tasks, t.job.watched? = some e.2 ∧ e.2 ∉ r.down := by
  rcases h.joins hf hk he with he | ⟨t, ht, -, hj, hd⟩
  · exact .inl he
  · exact .inr ⟨t, ht, by rw [hj]; rfl, hd⟩

/-- The end of a connection is watched before the pool gets it. -/
structure Watched (r : Router) (log : List Action) : Prop where
  pooled : ∀ e ∈ r.pool, .watchEnd e.2 ∈ log
  dialed : ∀ t ∈ r.tasks, ∀ c, t.job.watched? = some c → .watchEnd c ∈ log

theorem Watched.event (hw : Watched r log) (hf : Forest r) (hk : (r.pool.map (·.1)).Nodup)
    (h : Event r i r' acts) : Watched r' (log ++ acts) where
  pooled e he := by
    rcases h.enters hf hk he with he | ⟨t, ht, hc, -⟩
    · exact List.mem_append_left _ (hw.pooled e he)
    · exact List.mem_append_left _ (hw.dialed t ht e.2 hc)
  dialed u hu c hc := by
    cases h with
    | turn ht h =>
      rcases (hf.mem_turn ht h.grows).mp hu with ⟨hu, -, -⟩ | ⟨job, rfl, rfl⟩ | hu
      · exact List.mem_append_left _ (hw.dialed u hu c hc)
      · rcases h.watched hc with hc | hc
        · exact List.mem_append_left _ (hw.dialed _ ht c hc)
        · exact List.mem_append_right _ hc
      · cases hj : u.job with
        | dial a stage =>
          have hfresh := h.grows.recruits _ (job_of_mem_recruits hu)
          rw [hj] at hfresh hc
          cases hfresh
          cases hc
        | _ => rw [hj] at hc; cases hc
    | call h =>
      rcases List.mem_append.mp hu with hu | hu
      · exact List.mem_append_left _ (hw.dialed u (h.spares.tasks ▸ hu) c hc)
      · obtain rfl := List.mem_singleton.mp hu
        cases h <;> cases hc
    | news h => exact List.mem_append_left _ (hw.dialed u (h.spares.tasks ▸ hu) c hc)

theorem Reaches.watched (h : Reaches s is r log) : Watched r log :=
  h.induct (P := Watched) ⟨nofun, nofun⟩ fun h hw _ he => hw.event h.forest h.custody.keys he

/-- A live connection leaves the pool with an eviction only. -/
theorem Turn.leaves {t : Task} {job? : Option Job} {fresh : List Job}
    (h : Turn r i t job? fresh core acts) (hk : (r.pool.map (·.1)).Nodup) (hi : r.Admits i)
    (he : e ∈ r.pool) (hd : e.2 ∉ r.down) (hn : e ∉ core.pool) :
    ∃ table choice, i = .step t.id choice ∧ t.job = .refresh (.evicting table) ∧
      e.1 ∉ table.addresses ∧ ∃ cs, job? = some (.refresh (.closing cs)) := by
  have hv := ((h.transfer hk hi).leaves e he).resolve_left hn |>.resolve_left hd
  cases h with
  | refresh h =>
    cases h with
    | @evict table =>
      refine ⟨table, _, rfl, rfl, ?_, _, rfl⟩
      intro hl
      exact hn (List.mem_filter.mpr ⟨he, by simpa using hl⟩)
    | close => exact absurd he hn
    | _ => cases hv
  | send h => cases h <;> exact absurd he hn
  | opening h => cases h <;> exact absurd he hn
  | _ => cases hv

/-- A live connection that leaves the pool has a node that the new table does not list. The refresh
that takes it out has installed that table. -/
theorem Reaches.leaves (h : Reaches s is r log) (hi : r.Admits i) (he : e ∈ r.pool)
    (hd : e.2 ∉ r.down) (hn : e ∉ (r.step i).1.pool) :
    ∃ t ∈ r.tasks, ∃ choice, i = .step t.id choice ∧ t.job = .refresh (.evicting r.table) ∧
      r.table.addresses ≠ [] ∧ e.1 ∉ r.table.addresses ∧
      ∃ u ∈ (r.step i).1.tasks, u.id = t.id ∧ ∃ cs, u.job = .refresh (.closing cs) := by
  have hx := step_event r i
  generalize (r.step i).1 = r' at hx hn ⊢
  generalize (r.step i).2 = acts at hx
  cases hx with
  | turn ht hx =>
    rw [turn_eq] at hn
    obtain ⟨table, choice, hi, hj, hl, cs, hj'⟩ := hx.leaves h.custody.keys hi he hd hn
    obtain ⟨⟨rfl, hne⟩, -⟩ := h.past _ ht _ hj
    refine ⟨_, ht, choice, hi, hj, hne, hl, ?_⟩
    exact ⟨_, (h.forest.mem_turn ht hx.grows).mpr (.inr (.inl ⟨_, hj', rfl⟩)), rfl, cs, rfl⟩
  | call hx =>
    rcases (hx.lapse h.forest h.custody.keys).leaves e he with h' | h'
    · exact absurd h' hn
    · exact absurd h' hd
  | news hx =>
    rcases (hx.lapse h.custody.keys).leaves e he with h' | h'
    · exact absurd h' hn
    · exact absurd h' hd

theorem RefreshTurn.evicted {id : TaskId} {choice : Nat} {stage stage' : RefreshStage}
    {fresh : List Job} (h : RefreshTurn r id choice stage stage' fresh core acts)
    (hs : stage.evicted) : stage'.evicted := by
  cases h with
  | finish | close => trivial
  | _ => cases hs

/-- A refresh that has taken connections out of the pool comes to a good end. -/
theorem Reaches.evicted_run (h : Reaches s is r log) (hl : r.AdmitsAll later) {t u : Task}
    (ht : t ∈ r.tasks) {stage : RefreshStage} (hj : t.job = .refresh stage) (hs : stage.evicted)
    (hu : u ∈ (r.run later).1.tasks) (hid : u.id = t.id) :
    (∃ cs, u.job = .refresh (.closing cs)) ∨ u.job = .refresh (.done (.ok ())) := by
  obtain ⟨v, hv, hvid, hk, himp⟩ :=
    h.refresh_run (P := RefreshStage.evicted) RefreshTurn.evicted hl hu (hid ▸ h.forest.bound t ht)
  cases h.forest.eq_of_id hv ht (hvid.trans hid)
  rw [hj] at hk
  obtain ⟨stage', hj'⟩ := Job.exists_of_kind hk.symm
  have hs' := himp stage stage' hj hj' hs
  cases stage' with
  | closing cs => exact .inl ⟨cs, hj'⟩
  | done result =>
    cases result with
    | ok => exact .inr hj'
    | error => cases hs'
  | _ => cases hs'

theorem Reaches.down_run (h : Reaches s is r log) (hl : r.AdmitsAll later) (hd : c ∈ r.down) :
    c ∈ (r.run later).1.down :=
  h.induct_run (P := fun _ r' _ => c ∈ r'.down) hl hd fun _ hm hd hi =>
    (hm.custody.handover hm.forest hi (step_event _ _)).down c hd

/-- A connection that ended outside of the pool stays there. -/
theorem Reaches.stays_out (h : Reaches s is r log) (hl : r.AdmitsAll later) (hd : c ∈ r.down)
    (hp : c ∉ r.pool.map (·.2)) : c ∉ (r.run later).1.pool.map (·.2) := by
  refine h.induct_run (P := fun _ r' _ => c ∉ r'.pool.map (·.2)) hl hp ?_
  intro js i hj hm hp _ hp'
  obtain ⟨e, hmem, rfl⟩ := List.mem_map.mp hp'
  rcases (step_event _ i).enters hm.forest hm.custody.keys hmem with hmem | ⟨t, -, -, hn⟩
  · exact hp (List.mem_map_of_mem hmem)
  · exact hn (h.down_run hj hd)

/-- The end handler takes its own connection out of the pool. -/
theorem Custody.ended (hc : Custody r log) (hd : c ∈ r.down) :
    c ∉ (r.step (.ended c)).1.pool.map (·.2) := by
  intro hp
  obtain ⟨e, he, rfl⟩ := List.mem_map.mp hp
  have hpool : (r.step (.ended e.2)).1.pool = (r.forget (r.origin e.2)).pool := rfl
  rw [hpool] at he
  have hmem : e ∈ r.pool := (lapse_forget hc.keys _).pool.subset he
  have horigin : r.origin e.2 = e.1 := hc.origin_eq (hc.stored e hmem)
  rw [horigin] at he
  unfold forget at he
  rw [pooled?_eq hc.keys hmem] at he
  simp only [isDown_iff.mpr hd, if_true] at he
  have hne := (List.mem_filter.mp he).2
  simp at hne

/-- The end handler takes a connection out that has ended, and nothing that is down comes in after
that. -/
theorem Reaches.unpooled_of_handled (h : Reaches s is r log) {js ks : List Input}
    (hl : r.AdmitsAll (js ++ .ended c :: ks)) (hd : c ∈ (r.run js).1.down) :
    c ∉ (r.run (js ++ .ended c :: ks)).1.pool.map (·.2) := by
  obtain ⟨hj, -, hk⟩ := admitsAll_append.mp hl
  have hm := h.run js hj
  have hone : (r.run js).1.AdmitsAll [.ended c] := ⟨trivial, trivial⟩
  have hdown := hm.down_run hone hd
  rw [run_append]
  exact (hm.step (i := .ended c) trivial).stays_out hk hdown (hm.custody.ended hd)

/-- Nobody has a connection in the pool whose end was handled. -/
theorem Reaches.unpooled_of_ended (h : Reaches s is r log) (hl : r.AdmitsAll later) (hd : c ∈ r.down)
    (he : .watchEnd c ∈ log → .ended c ∈ later) : c ∉ (r.run later).1.pool.map (·.2) := by
  by_cases hw : .watchEnd c ∈ log
  · obtain ⟨js, ks, rfl⟩ := List.append_of_mem (he hw)
    exact h.unpooled_of_handled hl (h.down_run (admitsAll_append.mp hl).1 hd)
  · -- A connection that nobody watches was not in the pool when it ended.
    refine h.stays_out hl hd ?_
    intro hp
    obtain ⟨e, hmem, rfl⟩ := List.mem_map.mp hp
    exact hw (h.watched.pooled e hmem)

/-- The pool tracks liveness. A live connection leaves it with one event only: a refresh that has
installed a table takes it out, which is not empty and does not list its node; and that refresh does
not fail. The failure or the end of another connection leaves it alone, to whatever node that was. A
connection that has ended is never in the pool again once its end was handled: either nobody watched
it when its handlers were looked up, or its end handler has run. -/
theorem pool_tracks_liveness (h : Reaches s is r log) :
    (∀ i, r.Admits i → ∀ e ∈ r.pool, e.2 ∉ r.down → e ∉ (r.step i).1.pool →
      ∃ t ∈ r.tasks, ∃ choice, i = .step t.id choice ∧ t.job = .refresh (.evicting r.table) ∧
        r.table.addresses ≠ [] ∧ e.1 ∉ r.table.addresses ∧
        ∀ later, (r.step i).1.AdmitsAll later → ∀ u ∈ ((r.step i).1.run later).1.tasks, u.id = t.id →
          (∃ cs, u.job = .refresh (.closing cs)) ∨ u.job = .refresh (.done (.ok ()))) ∧
    (∀ e ∈ r.pool, e.2 ∉ r.down → ∀ c fault,
      e ∈ (r.step (.failed c fault)).1.pool ∧ e ∈ (r.step (.ended c)).1.pool) ∧
    ∀ c ∈ r.down, ∀ later, r.AdmitsAll later → (.watchEnd c ∈ log → .ended c ∈ later) →
      c ∉ (r.run later).1.pool.map (·.2) := by
  refine ⟨?_, ?_, ?_⟩
  · intro i hi e he hd hn
    obtain ⟨t, ht, choice, hi', hj, hne, hl, u, hu, huid, cs, huj⟩ := h.leaves hi he hd hn
    refine ⟨t, ht, choice, hi', hj, hne, hl, ?_⟩
    intro later hlater v hv hvid
    exact (h.step hi).evicted_run hlater hu huj trivial hv (hvid.trans huid.symm)
  · intro e he hd c fault
    have stays (i : Input) (hi : r.Admits i) (hs : ∀ id choice, i ≠ .step id choice) :
        e ∈ (r.step i).1.pool := by
      by_contra hn
      obtain ⟨t, -, choice, hi', -⟩ := h.leaves hi he hd hn
      exact hs _ _ hi'
    exact ⟨stays _ trivial nofun, stays _ trivial nofun⟩
  · intro c hd later hl he
    exact h.unpooled_of_ended hl hd he

/-- A node whose first connection ended and was replaced before its end handler ran. -/
def replaced : List Input :=
  [.opening, .step 0 0, .step 1 0, .dialed 1 (.ok 0), .step 1 0, .step 1 0, .step 1 0, .down 0,
    .opening, .step 2 0, .step 3 0, .dialed 3 (.ok 1), .step 3 0, .step 3 0, .step 3 0]

theorem pool_tracks_liveness_replaced :
    ("a:1", 1) ∈ ((after { seeds := ["a:1"] } replaced).step (.ended 0)).1.pool ∧
      0 ∉ ((after { seeds := ["a:1"] } replaced).run [.ended 0]).1.pool.map (·.2) := by
  have hr : Reaches _ _ (after { seeds := ["a:1"] } replaced) _ :=
    Reaches.start.run replaced (by decide +kernel)
  obtain ⟨-, hlive, hended⟩ := pool_tracks_liveness hr
  have hpool : (after { seeds := ["a:1"] } replaced).pool = [("a:1", 1)] := rfl
  have hdown : (after { seeds := ["a:1"] } replaced).down = [0] := rfl
  constructor
  · have hmem : ("a:1", 1) ∈ (after { seeds := ["a:1"] } replaced).pool := by rw [hpool]; simp
    exact (hlive _ hmem (by rw [hdown]; simp) 0 .connectionClosed).2
  · refine hended 0 (by rw [hdown]; simp) [.ended 0] ⟨trivial, trivial⟩ ?_
    intro _
    exact List.mem_singleton_self _

end Router

end RespClient.Cluster
