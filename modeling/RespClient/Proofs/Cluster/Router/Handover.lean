import RespClient.Proofs.Cluster.Router.Forest

namespace RespClient.Cluster

/-- The connection that a dial has to itself. -/
def DialStage.own? : DialStage → Option ConnId
  | opened c | guarded c | greet c | greeting c _ | join c | surplus c _ => some c
  | _ => none

def DialStage.reached? : DialStage → Option ConnId
  | surplus _ winner => some winner
  | done (.ok c) => some c
  | _ => none

namespace Job

/-- The connection that a dial has to itself, after the address it goes to. -/
def own? : Job → Option (String × ConnId)
  | dial a stage => stage.own?.map (a, ·)
  | _ => none

/-- The connection that a dial comes to, after the address it was to reach. -/
def reached? : Job → Option (String × ConnId)
  | dial a stage => stage.reached?.map (a, ·)
  | _ => none

/-- The connections that a job uses and others may use as well. -/
def borrows : Job → List ConnId
  | dial _ stage => stage.reached?.toList
  | refresh stage => stage.holds
  | send s => s.stage.holds
  | opening _ | reload _ | recovery _ => []

/-- The connections that a refresh is about to close. -/
def evicts : Job → List ConnId
  | refresh (.closing cs) => cs
  | _ => []

theorem mem_holds {job : Job} {c : ConnId} :
    c ∈ job.holds ↔ (∃ a, job.own? = some (a, c)) ∨ c ∈ job.borrows := by
  cases job with
  | dial a stage =>
    cases stage with
    | done result => cases result <;> simp [holds, own?, borrows, DialStage.holds, DialStage.own?,
        DialStage.reached?]
    | _ => simp [holds, own?, borrows, DialStage.holds, DialStage.own?, DialStage.reached?, eq_comm]
  | _ => simp [holds, own?, borrows]

theorem IsFresh.empty {job : Job} (h : job.IsFresh) :
    job.own? = none ∧ job.reached? = none ∧ job.borrows = [] ∧ job.evicts = [] := by
  cases h <;> exact ⟨rfl, rfl, rfl, rfl⟩

end Job

namespace Router

variable {s : ClusterSettings} {is : List Input} {r r' core : Router} {log acts : List Action}
  {a : String} {c : ConnId}

theorem mem_of_pooled? (h : r.pooled? a = some c) : (a, c) ∈ r.pool := by
  obtain ⟨⟨a', c'⟩, he, rfl⟩ := Option.map_eq_some_iff.mp h
  obtain rfl : a' = a := by simpa using List.find?_some he
  exact List.mem_of_find?_eq_some he

theorem pooled?_eq (hk : (r.pool.map (·.1)).Nodup) (h : (a, c) ∈ r.pool) : r.pooled? a = some c := by
  rw [pooled?, find?_eq_of_nodup hk h]
  rfl

theorem isDown_iff : r.isDown c = true ↔ c ∈ r.down := by simp [isDown]

theorem live?_eq_some : r.live? a = some c ↔ r.pooled? a = some c ∧ c ∉ r.down := by
  simp [live?, Option.filter_eq_some_iff, ← isDown_iff]

theorem mem_of_live? (h : r.live? a = some c) : (a, c) ∈ r.pool :=
  mem_of_pooled? (live?_eq_some.mp h).1

theorem mem_of_pick {failed : List String} {choice : Nat} (h : r.pick failed choice = some (a, c)) :
    (a, c) ∈ r.pool := List.mem_of_mem_filter (List.mem_of_getElem? h)

theorem live?_insert (h : c ∉ r.down) : (r.insert a c).live? a = some c := by
  refine live?_eq_some.mpr ⟨?_, h⟩
  have : (r.pool.filter fun e => e.1 != a).find? (fun e => e.1 == a) = none := by simp
  simp [insert, pooled?, List.find?_append, this]

theorem insert_keys (hk : (r.pool.map (·.1)).Nodup) : ((r.insert a c).pool.map (·.1)).Nodup := by
  simp only [insert, List.map_append, List.map_cons, List.map_nil]
  refine List.nodup_append.mpr ⟨hk.sublist (List.Sublist.map _ List.filter_sublist), by simp, ?_⟩
  rintro _ hb _ hb' rfl
  obtain ⟨e, he, rfl⟩ := List.mem_map.mp hb
  simp_all

theorem mem_insert {e : String × ConnId} :
    e ∈ (r.insert a c).pool ↔ e ∈ r.pool ∧ e.1 ≠ a ∨ e = (a, c) := by
  simp [insert]

theorem borrowed_of_dialResult? {d : TaskId} (h : r.dialResult? d = some (.ok c)) :
    ∃ u ∈ r.tasks, c ∈ u.job.borrows := by
  unfold dialResult? at h
  split at h
  next hj =>
    cases h
    obtain ⟨u, hu, -, hj⟩ := exists_of_job? hj
    exact ⟨u, hu, by simp [hj, Job.borrows, DialStage.reached?]⟩
  · cases h

theorem live?_congr (hp : r'.pool = r.pool) (hd : r'.down = r.down) (a : String) :
    r'.live? a = r.live? a := by simp only [live?, pooled?, isDown, hp, hd]

/-- What the turn of a task does with the connections it has, uses or closes. -/
structure Transfer (r : Router) (job : Job) (job? : Option Job) (core : Router) (acts : List Action) :
    Prop where
  opened : core.opened = r.opened ∨ ∃ e, e.1 ∉ r.opened.map (·.1) ∧ core.opened = r.opened ++ [e]
  down : core.down = r.down
  keys : (core.pool.map (·.1)).Nodup
  enters : ∀ e ∈ core.pool, e ∈ r.pool ∨ job.own? = some e ∧ job?.bind Job.own? = none
  leaves : ∀ e ∈ r.pool, e ∈ core.pool ∨ e.2 ∈ r.down ∨ e.2 ∈ job?.elim [] Job.evicts
  own : ∀ e, job?.bind Job.own? = some e →
    job.own? = some e ∨ e.2 ∉ r.opened.map (·.1) ∧ core.opened = r.opened ++ [(e.2, e.1)]
  releases : ∀ e, job.own? = some e →
    job?.bind Job.own? = some e ∨ e.2 ∈ r.down ∨ .close e.2 ∈ acts ∨ job?.bind Job.reached? = some e
  reached : ∀ e, job?.bind Job.reached? = some e →
    job.reached? = some e ∨ core.live? e.1 = some e.2
  keeps : ∀ e, job.reached? = some e → job? = none ∨ job?.bind Job.reached? = some e
  borrows : ∀ c ∈ job?.elim [] Job.borrows, c ∈ job.borrows ∨
    (∃ a, (a, c) ∈ r.pool ∨ (a, c) ∈ core.pool) ∨
    ∃ u ∈ r.tasks, c ∈ u.job.borrows
  evicts : ∀ c ∈ job.evicts, c ∈ job?.elim [] Job.evicts ∨ .close c ∈ acts

/-- A turn that leaves the pool alone and has no connection to itself. -/
theorem Transfer.of_pool_eq {job : Job} {job? : Option Job} (ho : core.opened = r.opened)
    (hd : core.down = r.down) (hp : core.pool = r.pool) (hk : (r.pool.map (·.1)).Nodup)
    (hj : job.own? = none ∧ job.reached? = none ∧ job.evicts = [])
    (hj' : job?.bind Job.own? = none ∧ job?.bind Job.reached? = none)
    (hb : ∀ c ∈ job?.elim [] Job.borrows, c ∈ job.borrows ∨ (∃ a, (a, c) ∈ r.pool) ∨
      ∃ u ∈ r.tasks, c ∈ u.job.borrows) : Transfer r job job? core acts where
  opened := .inl ho
  down := hd
  keys := hp ▸ hk
  enters e he := .inl (hp ▸ he)
  leaves e he := .inl (hp ▸ he)
  own e he := by simp [hj'.1] at he
  releases e he := by simp [hj.1] at he
  reached e he := by simp [hj'.2] at he
  keeps e he := by simp [hj.2.1] at he
  borrows c hc := by
    rcases hb c hc with h | ⟨a, h⟩ | h
    · exact .inl h
    · exact .inr (.inl ⟨a, .inl h⟩)
    · exact .inr (.inr h)
  evicts c hc := by simp [hj.2.2] at hc

theorem Transfer.of_dial {stage stage' : DialStage} (ho : core.opened = r.opened)
    (hd : core.down = r.down) (hp : core.pool = r.pool) (hk : (r.pool.map (·.1)).Nodup)
    (own : ∀ c, stage'.own? = some c → stage.own? = some c)
    (releases : ∀ c, stage.own? = some c → stage'.own? = some c ∨ c ∈ r.down ∨ .close c ∈ acts)
    (reached : ∀ c, stage'.reached? = some c → stage.reached? = some c ∨ r.live? a = some c)
    (keeps : ∀ c, stage.reached? = some c → stage'.reached? = some c) :
    Transfer r (.dial a stage) (some (.dial a stage')) core acts where
  opened := .inl ho
  down := hd
  keys := hp ▸ hk
  enters e he := .inl (hp ▸ he)
  leaves e he := .inl (hp ▸ he)
  own e he := by
    obtain ⟨c, hc, rfl⟩ := Option.map_eq_some_iff.mp he
    exact .inl (Option.map_eq_some_iff.mpr ⟨c, own c hc, rfl⟩)
  releases e he := by
    obtain ⟨c, hc, rfl⟩ := Option.map_eq_some_iff.mp he
    rcases releases c hc with h | h | h
    · exact .inl (Option.map_eq_some_iff.mpr ⟨c, h, rfl⟩)
    · exact .inr (.inl h)
    · exact .inr (.inr (.inl h))
  reached e he := by
    obtain ⟨c, hc, rfl⟩ := Option.map_eq_some_iff.mp he
    rw [live?_congr hp hd]
    exact (reached c hc).imp_left fun h => Option.map_eq_some_iff.mpr ⟨c, h, rfl⟩
  keeps e he := by
    obtain ⟨c, hc, rfl⟩ := Option.map_eq_some_iff.mp he
    exact .inr (Option.map_eq_some_iff.mpr ⟨c, keeps c hc, rfl⟩)
  borrows c hc := by
    rcases reached c (by simpa [Job.borrows] using hc) with h | h
    · exact .inl (by simpa [Job.borrows] using h)
    · exact .inr (.inl ⟨a, .inl (mem_of_live? h)⟩)
  evicts c hc := by cases hc

/-- A dial whose connection enters the pool; what stood under the address was not alive. -/
theorem Transfer.of_join (hk : (r.pool.map (·.1)).Nodup) (hc : c ∉ r.down) (hl : r.live? a = none) :
    Transfer r (.dial a (.join c)) (some (.dial a (.done (.ok c)))) (r.insert a c) acts where
  opened := .inl rfl
  down := rfl
  keys := insert_keys hk
  enters e he := by
    rcases mem_insert.mp he with ⟨he, -⟩ | rfl
    · exact .inl he
    · exact .inr ⟨rfl, rfl⟩
  leaves e he := by
    by_cases hea : e.1 = a
    · subst hea
      have hp : r.pooled? e.1 = some e.2 := pooled?_eq hk he
      exact .inr (.inl (by_contra fun hd => nomatch (live?_eq_some.mpr ⟨hp, hd⟩).symm.trans hl))
    · exact .inl (mem_insert.mpr (.inl ⟨he, hea⟩))
  own e he := by cases he
  releases e he := by cases he; exact .inr (.inr (.inr rfl))
  reached e he := by cases he; exact .inr (live?_insert hc)
  keeps e he := by cases he
  borrows c' hc' := by
    obtain rfl : c' = c := by simpa [Job.borrows, DialStage.reached?] using hc'
    exact .inr (.inl ⟨a, .inr (mem_insert.mpr (.inr rfl))⟩)
  evicts c hc := by cases hc

theorem DialTurn.transfer {id : TaskId} {stage stage' : DialStage}
    (h : DialTurn r id a stage stage' core acts) (hk : (r.pool.map (·.1)).Nodup) :
    Transfer r (.dial a stage) (some (.dial a stage')) core acts := by
  cases h with
  | join hc hl => exact .of_join hk (by simpa [isDown] using hc) hl
  | guard =>
    split <;> exact .of_dial rfl rfl rfl hk (by simp [DialStage.own?]) (by simp [DialStage.own?])
      (by simp [DialStage.reached?]) nofun
  | late hc =>
    exact .of_dial rfl rfl rfl hk (by simp [DialStage.own?]) (by simp_all [DialStage.own?, isDown])
      (by simp [DialStage.reached?]) nofun
  | _ =>
    exact .of_dial rfl rfl rfl hk (by simp [DialStage.own?]) (by simp [DialStage.own?])
      (by simp_all [DialStage.reached?]) (by simp [DialStage.reached?])

theorem RefreshTurn.transfer {id : TaskId} {choice : Nat} {stage stage' : RefreshStage}
    {fresh : List Job} (h : RefreshTurn r id choice stage stage' fresh core acts)
    (hk : (r.pool.map (·.1)).Nodup) :
    Transfer r (.refresh stage) (some (.refresh stage')) core acts := by
  cases h with
  | @evict table =>
    exact {
      opened := .inl rfl
      down := rfl
      keys := hk.sublist (List.Sublist.map _ List.filter_sublist)
      enters := fun e he => .inl (List.mem_of_mem_filter he)
      leaves := fun e he => by
        by_cases hl : table.addresses.contains e.1
        · exact .inl (List.mem_filter.mpr ⟨he, hl⟩)
        · exact .inr (.inr (List.mem_map_of_mem (List.mem_filter.mpr ⟨he, by simpa using hl⟩)))
      own := by rintro e ⟨⟩
      releases := by rintro e ⟨⟩
      reached := by rintro e ⟨⟩
      keeps := by rintro e ⟨⟩
      borrows := fun c hc => by
        obtain ⟨e, he, rfl⟩ := List.mem_map.mp hc
        exact .inr (.inl ⟨e.1, .inl (List.mem_of_mem_filter he)⟩)
      evicts := by rintro c ⟨⟩ }
  | @close c cs =>
    exact {
      opened := .inl rfl
      down := rfl
      keys := hk
      enters := fun e he => .inl he
      leaves := fun e he => .inl he
      own := by rintro e ⟨⟩
      releases := by rintro e ⟨⟩
      reached := by rintro e ⟨⟩
      keeps := by rintro e ⟨⟩
      borrows := fun c hc => .inl (List.mem_cons_of_mem _ hc)
      evicts := fun c' hc => by
        rcases List.mem_cons.mp hc with rfl | hc
        · exact .inr (List.mem_singleton_self _)
        · exact .inl hc }
  | choose hp =>
    refine .of_pool_eq rfl rfl rfl hk ⟨rfl, rfl, rfl⟩ ⟨rfl, rfl⟩ fun c hc => .inr (.inl ?_)
    obtain rfl := List.mem_singleton.mp hc
    exact ⟨_, mem_of_pick hp⟩
  | _ =>
    exact .of_pool_eq rfl rfl rfl hk ⟨rfl, rfl, rfl⟩ ⟨rfl, rfl⟩
      (by simp [Job.borrows, RefreshStage.holds])

theorem SendTurn.transfer {id : TaskId} {choice : Nat} {s : Sending} {s' : Option Sending}
    {fresh : List Job} (h : SendTurn r id choice s s' fresh core acts)
    (hk : (r.pool.map (·.1)).Nodup) : Transfer r (.send s) (s'.map .send) core acts := by
  have ends (core : Router) (ho : core.opened = r.opened) (hd : core.down = r.down)
      (hp : core.pool = r.pool) : Transfer r (.send s) none core acts :=
    .of_pool_eq ho hd hp hk ⟨rfl, rfl, rfl⟩ ⟨rfl, rfl⟩ nofun
  have same (core : Router) (s' : Sending) (ho : core.opened = r.opened) (hd : core.down = r.down)
      (hp : core.pool = r.pool) (hs : ∀ c ∈ s'.stage.holds, c ∈ s.stage.holds) :
      Transfer r (.send s) (some (.send s')) core acts :=
    .of_pool_eq ho hd hp hk ⟨rfl, rfl, rfl⟩ ⟨rfl, rfl⟩ fun c hc => .inl (hs c hc)
  cases h with
  | nowhere | miss | mute | answer => exact ends _ rfl rfl rfl
  | anywhere _ _ hp =>
    refine .of_pool_eq rfl rfl rfl hk ⟨rfl, rfl, rfl⟩ ⟨rfl, rfl⟩ fun c hc => .inr (.inl ?_)
    obtain rfl := List.mem_singleton.mp hc
    exact ⟨_, mem_of_pick hp⟩
  | reach _ hd =>
    refine .of_pool_eq rfl rfl rfl hk ⟨rfl, rfl, rfl⟩ ⟨rfl, rfl⟩ fun c hc => .inr (.inr ?_)
    have hd := borrowed_of_dialResult? hd
    split at hc <;> (obtain rfl := List.mem_singleton.mp hc; exact hd)
  | route h => exact same _ _ rfl rfl rfl (by simp [h, SendStage.holds])
  | submit h | ask h | follow h | asked h | moved h | shift h | again h | refreshed h =>
    exact same _ _ rfl rfl rfl (by simp [h, SendStage.holds])

theorem OpeningTurn.transfer {id : TaskId} {stage : OpeningStage} {stage' : Option OpeningStage}
    {fresh : List Job} (h : OpeningTurn r id stage stage' fresh core acts)
    (hk : (r.pool.map (·.1)).Nodup) : Transfer r (.opening stage) (stage'.map .opening) core acts := by
  cases h <;> exact .of_pool_eq rfl rfl rfl hk ⟨rfl, rfl, rfl⟩ ⟨rfl, rfl⟩ nofun

theorem Turn.transfer {i : Input} {t : Task} {job? : Option Job} {fresh : List Job}
    (h : Turn r i t job? fresh core acts) (hk : (r.pool.map (·.1)).Nodup) (hi : r.Admits i) :
    Transfer r t.job job? core acts := by
  cases h with
  | dial h => exact h.transfer hk
  | refresh h => exact h.transfer hk
  | send h => exact h.transfer hk
  | opening h => exact h.transfer hk
  | reload | reloaded | recover | recovered | refused =>
    exact .of_pool_eq rfl rfl rfl hk ⟨rfl, rfl, rfl⟩ ⟨rfl, rfl⟩ nofun
  | @dialed id root a c =>
    exact {
      opened := .inr ⟨(c, a), hi, rfl⟩
      down := rfl
      keys := hk
      enters := fun e he => .inl he
      leaves := fun e he => .inl he
      own := by rintro e ⟨⟩; exact .inr ⟨hi, rfl⟩
      releases := by rintro e ⟨⟩
      reached := by rintro e ⟨⟩
      keeps := by rintro e ⟨⟩
      borrows := by rintro c ⟨⟩
      evicts := by rintro c ⟨⟩ }
  | rested h =>
    refine .of_pool_eq rfl rfl rfl hk ⟨rfl, rfl, rfl⟩ ⟨rfl, rfl⟩ fun c hc => .inl ?_
    simpa [Job.borrows, h, SendStage.holds] using hc

structure Handover (r r' : Router) (acts : List Action) : Prop where
  opened : r'.opened = r.opened ∨ ∃ e, e.1 ∉ r.opened.map (·.1) ∧ r'.opened = r.opened ++ [e]
  down : ∀ c ∈ r.down, c ∈ r'.down
  keys : (r'.pool.map (·.1)).Nodup
  enters : ∀ e ∈ r'.pool, e ∈ r.pool ∨
    ∃ t ∈ r.tasks, t.job.own? = some e ∧ ∀ u ∈ r'.tasks, u.id = t.id → u.job.own? = none
  leaves : ∀ e ∈ r.pool, e ∈ r'.pool ∨ e.2 ∈ r.down ∨ ∃ u ∈ r'.tasks, e.2 ∈ u.job.evicts
  own : ∀ u ∈ r'.tasks, ∀ e, u.job.own? = some e →
    (∃ t ∈ r.tasks, t.id = u.id ∧ t.job.own? = some e) ∨
    e.2 ∉ r.opened.map (·.1) ∧ r'.opened = r.opened ++ [(e.2, e.1)]
  single : ∃ id, ∀ u ∈ r'.tasks, ∀ e, u.job.own? = some e → e.2 ∉ r.opened.map (·.1) → u.id = id
  releases : ∀ t ∈ r.tasks, ∀ e, t.job.own? = some e → e.2 ∈ r.down ∨ .close e.2 ∈ acts ∨
    ∀ u ∈ r'.tasks, u.id = t.id → u.job.own? = some e ∨ u.job.reached? = some e
  reached : ∀ u ∈ r'.tasks, ∀ e, u.job.reached? = some e →
    (∃ t ∈ r.tasks, t.id = u.id ∧ t.job.reached? = some e) ∨ r'.live? e.1 = some e.2
  keeps : ∀ t ∈ r.tasks, ∀ e, t.job.reached? = some e → ∀ u ∈ r'.tasks, u.id = t.id →
    u.job.reached? = some e
  borrows : ∀ u ∈ r'.tasks, ∀ c ∈ u.job.borrows,
    (∃ t ∈ r.tasks, c ∈ t.job.borrows) ∨ ∃ a, (a, c) ∈ r.pool ∨ (a, c) ∈ r'.pool
  evicts : ∀ t ∈ r.tasks, ∀ c ∈ t.job.evicts,
    (∃ u ∈ r'.tasks, u.id = t.id ∧ c ∈ u.job.evicts) ∨ .close c ∈ acts

theorem Turn.handover {i : Input} {t : Task} {job? : Option Job} {fresh : List Job} (hf : Forest r)
    (hk : (r.pool.map (·.1)).Nodup)
    (ho : ∀ t ∈ r.tasks, ∀ e, t.job.own? = some e → e.2 ∈ r.opened.map (·.1)) (hi : r.Admits i)
    (ht : t ∈ r.tasks) (h : Turn r i t job? fresh core acts) :
    Handover r (core.turn t job? fresh) acts := by
  have hx := h.transfer hk hi
  have hg := h.grows
  have hp : (core.turn t job? fresh).pool = core.pool := by rw [turn_eq]
  have hd : (core.turn t job? fresh).down = core.down := by rw [turn_eq]
  have hop : (core.turn t job? fresh).opened = core.opened := by rw [turn_eq]
  have self {job : Job} (hj : job? = some job) :
      { t with job := job } ∈ (core.turn t job? fresh).tasks :=
    (hf.mem_turn ht hg).mpr (.inr (.inl ⟨job, hj, rfl⟩))
  -- A task with something at its disposal was there before, or it is the one that took its turn.
  have source {u : Task} (hu : u ∈ (core.turn t job? fresh).tasks) :
      u ∈ r.tasks ∨ u.id = t.id ∧ job? = some u.job ∨
        u.job.own? = none ∧ u.job.reached? = none ∧ u.job.borrows = [] := by
    rcases (hf.mem_turn ht hg).mp hu with ⟨hu, -, -⟩ | ⟨job, hj, rfl⟩ | hu
    · exact .inl hu
    · exact .inr (.inl ⟨rfl, hj⟩)
    · have := (hg.recruits _ (job_of_mem_recruits hu)).empty
      exact .inr (.inr ⟨this.1, this.2.1, this.2.2.1⟩)
  refine
    { opened := hop ▸ hx.opened, down := fun c hc => by rwa [hd, hx.down], keys := hp ▸ hx.keys,
      enters := ?enters, leaves := ?leaves, own := ?own, single := ⟨t.id, ?single⟩,
      releases := ?releases, reached := ?reached, keeps := ?keeps, borrows := ?borrows,
      evicts := ?evicts }
  case enters =>
    intro e he
    rcases hx.enters e (hp ▸ he) with h | ⟨h, hn⟩
    · exact .inl h
    · refine .inr ⟨t, ht, h, fun u hu hid => ?_⟩
      simpa [hf.job_of_mem_turn ht hg hu hid] using hn
  case leaves =>
    intro e he
    rcases hx.leaves e he with h | h | h
    · exact .inl (hp ▸ h)
    · exact .inr (.inl h)
    · cases hj : job? with
      | none => simp [hj] at h
      | some job => exact .inr (.inr ⟨_, hj ▸ self hj, by simpa [hj] using h⟩)
  case own =>
    intro u hu e he
    rcases source hu with h | ⟨hid, hj⟩ | h
    · exact .inl ⟨u, h, rfl, he⟩
    · rcases hx.own e (by simpa [hj] using he) with h | h
      · exact .inl ⟨t, ht, hid.symm, h⟩
      · exact .inr (hop ▸ h)
    · cases h.1.symm.trans he
  case single =>
    intro u hu e he hn
    rcases source hu with h | ⟨hid, -⟩ | h
    · exact absurd (ho u h e he) hn
    · exact hid
    · cases h.1.symm.trans he
  case releases =>
    intro u hu e he
    by_cases hut : u = t
    · subst hut
      rcases hx.releases e he with h | h | h | h
      · exact .inr (.inr fun v hv hid => .inl (by simpa [hf.job_of_mem_turn ht hg hv hid] using h))
      · exact .inl h
      · exact .inr (.inl h)
      · exact .inr (.inr fun v hv hid => .inr (by simpa [hf.job_of_mem_turn ht hg hv hid] using h))
    · refine .inr (.inr fun v hv hid => .inl ?_)
      rwa [hf.mem_turn_eq ht hg hu hut hv hid]
  case reached =>
    intro u hu e he
    rcases source hu with h | ⟨hid, hj⟩ | h
    · exact .inl ⟨u, h, rfl, he⟩
    · rw [live?_congr hp hd]
      exact (hx.reached e (by simpa [hj] using he)).imp_left fun h => ⟨t, ht, hid.symm, h⟩
    · cases h.2.1.symm.trans he
  case keeps =>
    intro u hu e he v hv hid
    by_cases hut : u = t
    · subst hut
      have hj := hf.job_of_mem_turn ht hg hv hid
      rcases hx.keeps e he with h | h
      · cases h.symm.trans hj
      · simpa [hj] using h
    · rwa [hf.mem_turn_eq ht hg hu hut hv hid]
  case borrows =>
    intro u hu c hc
    rcases source hu with h | ⟨-, hj⟩ | h
    · exact .inl ⟨u, h, hc⟩
    · rcases hx.borrows c (by simpa [hj] using hc) with h | h | h
      · exact .inl ⟨t, ht, h⟩
      · exact .inr (hp ▸ h)
      · exact .inl h
    · simp [h.2.2] at hc
  case evicts =>
    intro u hu c hc
    by_cases hut : u = t
    · subst hut
      rcases hx.evicts c hc with h | h
      · cases hj : job? with
        | none => simp [hj] at h
        | some job => exact .inl ⟨{ u with job := job }, hj ▸ self hj, rfl, by simpa [hj] using h⟩
      · exact .inr h
    · refine .inl ⟨u, (hf.mem_turn ht hg).mpr (.inl ⟨hu, hut, fun hd => ?_⟩), rfl, hc⟩
      -- Nobody takes a refresh away that still has connections to close.
      obtain ⟨id, root, job⟩ := u
      rcases hf.helper_done ht h hu hd with h | ⟨result, rfl⟩
      · cases job <;> cases h
        cases hc
      · cases hc

/-- Tasks stay what they are or come with nothing; only dead connections leave the pool, and none
enters it. -/
structure Lapse (r r' : Router) : Prop where
  opened : r'.opened = r.opened
  down : ∀ c ∈ r.down, c ∈ r'.down
  pool : r'.pool.Sublist r.pool
  leaves : ∀ e ∈ r.pool, e ∈ r'.pool ∨ e.2 ∈ r.down
  old : ∀ t ∈ r.tasks, t ∈ r'.tasks
  new : ∀ u ∈ r'.tasks, u ∈ r.tasks ∨
    (∀ t ∈ r.tasks, t.id ≠ u.id) ∧ u.job.own? = none ∧ u.job.reached? = none ∧ u.job.borrows = []

theorem Lapse.handover (h : Lapse r r') (hf : Forest r) (hk : (r.pool.map (·.1)).Nodup)
    (ho : ∀ t ∈ r.tasks, ∀ e, t.job.own? = some e → e.2 ∈ r.opened.map (·.1)) :
    Handover r r' acts where
  opened := .inl h.opened
  down := h.down
  keys := hk.sublist (h.pool.map _)
  enters e he := .inl (h.pool.subset he)
  leaves e he := (h.leaves e he).imp_right .inl
  own u hu e he := by
    rcases h.new u hu with hu | ⟨-, hn, -⟩
    · exact .inl ⟨u, hu, rfl, he⟩
    · cases hn.symm.trans he
  single := ⟨0, fun u hu e he hn => by
    rcases h.new u hu with hu | ⟨-, hn, -⟩
    · exact absurd (ho u hu e he) hn
    · cases hn.symm.trans he⟩
  releases t ht e he := .inr (.inr fun u hu hid => by
    rcases h.new u hu with hu | ⟨hn, -⟩
    · rw [hf.eq_of_id hu ht hid]
      exact .inl he
    · exact absurd hid.symm (hn t ht))
  reached u hu e he := by
    rcases h.new u hu with hu | ⟨-, -, hn, -⟩
    · exact .inl ⟨u, hu, rfl, he⟩
    · cases hn.symm.trans he
  keeps t ht e he u hu hid := by
    rcases h.new u hu with hu | ⟨hn, -⟩
    · rwa [hf.eq_of_id hu ht hid]
    · exact absurd hid.symm (hn t ht)
  borrows u hu c hc := by
    rcases h.new u hu with hu | ⟨-, -, -, hn⟩
    · exact .inl ⟨u, hu, hc⟩
    · simp [hn] at hc
  evicts t ht c hc := .inl ⟨t, h.old t ht, rfl, hc⟩

/-- Forgetting an address takes no live connection out of the pool. -/
theorem lapse_forget (hk : (r.pool.map (·.1)).Nodup) (a : String) : Lapse r (r.forget a) where
  opened := by rw [forget_eq]
  down c hc := by rwa [forget_eq]
  pool := by
    unfold forget
    split
    · split
      · exact List.filter_sublist
      · exact .refl _
    · exact .refl _
  leaves e he := by
    unfold forget
    split
    next c hp =>
      split
      next hd =>
        by_cases hea : e.1 = a
        · have : r.pooled? a = some e.2 := hea ▸ pooled?_eq hk he
          cases hp.symm.trans this
          exact .inr (isDown_iff.mp hd)
        · exact .inl (List.mem_filter.mpr ⟨he, by simpa using hea⟩)
      · exact .inl he
    · exact .inl he
  old t ht := by rwa [forget_eq]
  new u hu := .inl (by rwa [forget_eq] at hu)

theorem Lapse.of_eq (ho : r'.opened = r.opened) (hd : ∀ c ∈ r.down, c ∈ r'.down)
    (hp : r'.pool = r.pool) (ht : r'.tasks = r.tasks) : Lapse r r' :=
  ⟨ho, hd, hp ▸ .refl _, fun _ he => .inl (hp ▸ he), fun _ h => ht ▸ h, fun _ h => .inl (ht ▸ h)⟩

theorem News.lapse {i : Input} (h : News r i r' acts) (hk : (r.pool.map (·.1)).Nodup) :
    Lapse r r' := by
  cases h with
  | failed | ended => exact lapse_forget hk _
  | down => exact .of_eq rfl (fun c hc => List.mem_append_left _ hc) rfl rfl
  | idle | reply | close => exact .of_eq rfl (fun c hc => hc) rfl rfl

theorem Call.lapse {i : Input} {job : Job} (h : Call r i job core acts) (hf : Forest r)
    (hk : (r.pool.map (·.1)).Nodup) : Lapse r (core.call job).2 := by
  have hn := h.spares
  have he : job.own? = none ∧ job.reached? = none ∧ job.borrows = [] := by
    cases h <;> exact ⟨rfl, rfl, rfl⟩
  have hc : Lapse r core := by
    cases h with
    | recovery => exact lapse_forget hk _
    | _ => exact .of_eq rfl (fun c hc => hc) rfl rfl
  refine { hc with old := fun t ht => List.mem_append_left _ (hc.old t ht), new := fun u hu => ?_ }
  rcases List.mem_append.mp hu with hu | hu
  · exact .inl (hn.tasks ▸ hu)
  · obtain rfl := List.mem_singleton.mp hu
    exact .inr ⟨fun t ht => Nat.ne_of_lt (hn.next ▸ hf.bound t ht), he⟩

theorem Event.handover {i : Input} (h : Event r i r' acts) (hf : Forest r)
    (hk : (r.pool.map (·.1)).Nodup)
    (ho : ∀ t ∈ r.tasks, ∀ e, t.job.own? = some e → e.2 ∈ r.opened.map (·.1)) (hi : r.Admits i) :
    Handover r r' acts := by
  cases h with
  | turn ht h => exact h.handover hf hk ho hi ht
  | call h => exact (h.lapse hf hk).handover hf hk ho
  | news h => exact (h.lapse hk).handover hf hk ho

end Router

end RespClient.Cluster
