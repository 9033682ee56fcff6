import RespClient.Proofs.Cluster.Router.Forest

namespace RespClient.Cluster

/-- The refresh has asked for the lock and not given it back. -/
def RefreshStage.queued : RefreshStage → Bool
  | enter | done _ => false
  | _ => true

def RefreshStage.loading : RefreshStage → Bool
  | enter | waiting | done _ => false
  | _ => true

namespace Job

def queued : Job → Bool
  | refresh stage => stage.queued
  | _ => false

def loading : Job → Bool
  | refresh stage => stage.loading
  | _ => false

/-- The job has a result that another task takes up. -/
def finished : Job → Bool
  | dial _ (.done _) | refresh (.done _) => true
  | _ => false

/-- The job waits for a connection, a reply or the end of a rest. -/
def waitsOutside : Job → Bool
  | dial _ .calling | dial _ (.greeting _ _) | refresh (.awaiting _ _ _ _) => true
  | send ⟨_, _, _, _, .awaiting _ _⟩ | send ⟨_, _, _, _, .awaitingAsking _ _ _⟩
  | send ⟨_, _, _, _, .resting _⟩ => true
  | _ => false

theorem queued_of_loading {job : Job} (h : job.loading = true) : job.queued = true := by
  cases job with
  | refresh stage => cases stage <;> first | rfl | cases h
  | _ => cases h

theorem waiting_or_loading {job : Job} (h : job.queued = true) :
    job = .refresh .waiting ∨ job.loading = true := by
  cases job with
  | refresh stage => cases stage <;> first | exact .inl rfl | exact .inr rfl | cases h
  | _ => cases h

theorem kind_of_queued {job : Job} (h : job.queued = true) : job.kind = .refresh := by
  cases job with
  | refresh => rfl
  | _ => cases h

theorem IsFresh.queued {job : Job} (h : job.IsFresh) : job.queued = false := by cases h <;> rfl

end Job

namespace Router

variable {s : ClusterSettings} {is : List Input} {r r' core : Router} {log acts : List Action}

structure Lock (r : Router) : Prop where
  nodup : r.lock.Nodup
  queued : ∀ t ∈ r.tasks, t.id ∈ r.lock ↔ t.job.queued = true
  owner : ∀ id ∈ r.lock, ∃ t ∈ r.tasks, t.id = id
  head : ∀ t ∈ r.tasks, t.job.loading = true → r.lock.head? = some t.id

/-- What a turn does to the lock. -/
inductive Locks (r : Router) (id : TaskId) (job : Job) (job? : Option Job) (core : Router) : Prop
  | enter (hc : core.lock = r.lock ++ [id]) (hj : job.queued = false)
      (hq : job?.elim false Job.queued = true) (hl : job?.elim false Job.loading = false)
  | leave (hc : core.lock = r.lock.filter (· != id)) (hj : job.loading = true)
      (hq : job?.elim false Job.queued = false)
  | stay (hc : core.lock = r.lock) (hq : job?.elim false Job.queued = job.queued)
      (hl : job?.elim false Job.loading = true → job.loading = true ∨ r.lock.head? = some id)

theorem RefreshTurn.locks {id : TaskId} {choice : Nat} {stage stage' : RefreshStage} {fresh : List Job}
    (h : RefreshTurn r id choice stage stage' fresh core acts) :
    Locks r id (.refresh stage) (some (.refresh stage')) core := by
  cases h with
  | enter => exact .enter rfl rfl rfl rfl
  | giveUp | installEmpty | finish => exact .leave rfl rfl rfl
  | lock h => exact .stay rfl rfl fun _ => .inr h
  | _ => exact .stay rfl rfl fun _ => .inl rfl

theorem Turn.locks {i : Input} {t : Task} {job? : Option Job} {fresh : List Job}
    (h : Turn r i t job? fresh core acts) : Locks r t.id t.job job? core := by
  have quiet {t : Task} {job? : Option Job} {core : Router} (hc : core.lock = r.lock)
      (hj : t.job.queued = false) (hq : job?.elim false Job.queued = false)
      (hl : job?.elim false Job.loading = false) : Locks r t.id t.job job? core :=
    .stay hc (hq.trans hj.symm) fun h => nomatch hl.symm.trans h
  cases h with
  | refresh h => exact h.locks
  | dial h => cases h <;> exact quiet rfl rfl rfl rfl
  | send h => cases h <;> exact quiet rfl rfl rfl rfl
  | opening h => cases h <;> exact quiet rfl rfl rfl rfl
  | reload | reloaded | recover | recovered | dialed | refused | rested =>
    exact quiet rfl rfl rfl rfl

namespace Lock

theorem lt_of_mem (hl : Lock r) (hf : Forest r) {id : TaskId} (h : id ∈ r.lock) : id < r.next := by
  obtain ⟨t, ht, rfl⟩ := hl.owner id h
  exact hf.bound t ht

theorem turn (hl : Lock r) (hf : Forest r) {i : Input} {t : Task} {job? : Option Job}
    {fresh : List Job} (ht : t ∈ r.tasks) (h : Turn r i t job? fresh core acts) :
    Lock (core.turn t job? fresh) := by
  have hg := h.grows
  have hk : (core.turn t job? fresh).lock = core.lock := by rw [turn_eq]
  have mem {id : TaskId} (hid : id ≠ t.id) : id ∈ core.lock ↔ id ∈ r.lock := by
    cases h.locks with
    | enter hc => simp [hc, hid]
    | leave hc => simp [hc, hid]
    | stay hc => rw [hc]
  have self : t.id ∈ core.lock ↔ job?.elim false Job.queued = true := by
    cases h.locks with
    | enter hc hj hq => simp [hc, hq]
    | leave hc hj hq => simp [hc, hq]
    | stay hc hq => rw [hc, hq, hl.queued t ht]
  refine { nodup := hk ▸ ?nodup, queued := fun u hu => hk ▸ ?queued, owner := fun id hid => ?owner,
           head := fun u hu hu' => hk ▸ ?head }
  case nodup =>
    cases h.locks with
    | enter hc hj =>
      have : t.id ∉ r.lock := fun h => nomatch ((hl.queued t ht).mp h).symm.trans hj
      rw [hc]
      exact hl.nodup.append (List.nodup_singleton _) (by simpa using this)
    | leave hc => exact hc ▸ hl.nodup.filter _
    | stay hc => exact hc ▸ hl.nodup
  case queued =>
    rcases (hf.mem_turn ht hg).mp hu with ⟨hu, hne, -⟩ | ⟨job, rfl, rfl⟩ | hu
    · rw [mem fun hid => hne (hf.eq_of_id hu ht hid)]
      exact hl.queued u hu
    · exact self
    · have hn := (id_of_mem_recruits hu).1
      have hid : u.id ≠ t.id :=
        Nat.ne_of_gt (Nat.lt_of_lt_of_le (hf.bound t ht) (Nat.le_trans hg.next hn))
      rw [mem hid, (hg.recruits _ (job_of_mem_recruits hu)).queued]
      refine iff_of_false (fun h => ?_) nofun
      exact absurd (hl.lt_of_mem hf h) (Nat.not_lt_of_ge (Nat.le_trans hg.next hn))
  case owner =>
    rw [hk] at hid
    by_cases hit : id = t.id
    · subst hit
      cases hj : job? with
      | none => simp [hj] at self; exact absurd hid self
      | some job =>
        exact ⟨{ t with job := job }, hj ▸ (hf.mem_turn ht hg).mpr (.inr (.inl ⟨job, hj, rfl⟩)), rfl⟩
    · obtain ⟨u, hu, rfl⟩ := hl.owner id ((mem hit).mp hid)
      have hq := (hl.queued u hu).mp ((mem hit).mp hid)
      refine ⟨u, (hf.mem_turn ht hg).mpr (.inl ⟨hu, fun h => hit (h ▸ rfl), fun hd => ?_⟩), rfl⟩
      rcases hf.helper_done ht h hu hd with h | ⟨result, h⟩
      · cases (Job.kind_of_queued hq).symm.trans h
      · rw [h] at hq
        cases hq
  case head =>
    rcases (hf.mem_turn ht hg).mp hu with ⟨hu, hne, -⟩ | ⟨job, rfl, rfl⟩ | hu
    · have hh := hl.head u hu hu'
      cases h.locks with
      | enter hc => rw [hc, List.head?_append, hh]; rfl
      | leave hc hj =>
        have := (hl.head t ht hj).symm.trans hh
        exact absurd (hf.eq_of_id hu ht (Option.some.inj this).symm) hne
      | stay hc => rw [hc, hh]
    · cases h.locks with
      | enter hc hj hq hl => cases hl.symm.trans hu'
      | leave hc hj hq => cases hq.symm.trans (Job.queued_of_loading hu')
      | stay hc hq hh => exact hc ▸ (hh hu').elim (hl.head t ht) id
    · cases (hg.recruits _ (job_of_mem_recruits hu)).queued.symm.trans (Job.queued_of_loading hu')

theorem of_spares (hl : Lock r) (h : Spares r core) : Lock core where
  nodup := h.lock ▸ hl.nodup
  queued t ht := h.lock ▸ hl.queued t (h.tasks ▸ ht)
  owner id hid := h.tasks ▸ hl.owner id (h.lock ▸ hid)
  head t ht := h.lock ▸ hl.head t (h.tasks ▸ ht)

theorem call (hl : Lock r) (hf : Forest r) {job : Job} (hj : job.queued = false) :
    Lock (r.call job).2 where
  nodup := hl.nodup
  queued u hu := by
    rcases List.mem_append.mp hu with hu | hu
    · exact hl.queued u hu
    · obtain rfl := List.mem_singleton.mp hu
      exact iff_of_false (fun h => Nat.lt_irrefl _ (hl.lt_of_mem hf h)) (by simp [hj])
  owner id hid := by
    obtain ⟨t, ht, h⟩ := hl.owner id hid
    exact ⟨t, List.mem_append_left _ ht, h⟩
  head u hu hu' := by
    rcases List.mem_append.mp hu with hu | hu
    · exact hl.head u hu hu'
    · obtain rfl := List.mem_singleton.mp hu
      cases hj.symm.trans (Job.queued_of_loading hu')

theorem event (hl : Lock r) (hf : Forest r) {i : Input} (h : Event r i r' acts) : Lock r' := by
  cases h with
  | turn ht h => exact hl.turn hf ht h
  | call h =>
    refine (hl.of_spares h.spares).call (hf.of_spares h.spares) ((Bool.not_eq_true _).mp fun hq => ?_)
    cases h.kind.symm.trans (Job.kind_of_queued hq)
  | news h => exact hl.of_spares h.spares

end Lock

theorem Reaches.lock (h : Reaches s is r log) : Lock r :=
  h.induct (P := fun r _ => Lock r) ⟨List.nodup_nil, nofun, nofun, nofun⟩
    fun h hl _ he => hl.event h.forest he

/-- The task can go on, or waits for something outside, or for a task that is no more stuck than it. -/
inductive Moves (r : Router) : Task → Prop
  | free {t} (h : r.isFree t = true) : Moves r t
  | outside {t} (h : t.job.waitsOutside = true) : Moves r t
  | helper {t u} (hd : u.id ∈ t.job.helpers) (hu : u ∈ r.tasks) (h : Moves r u) : Moves r t
  | lock {t u} (ht : t.job = .refresh .waiting) (hu : u ∈ r.tasks) (hh : r.lock.head? = some u.id)
      (h : Moves r u) : Moves r t

namespace Forest

theorem dialResult?_eq (hf : Forest r) {u : Task} (hu : u ∈ r.tasks) {a : String}
    {result : Except ClientError ConnId} (hj : u.job = .dial a (.done result)) :
    r.dialResult? u.id = some result := by simp only [dialResult?, hf.job?_eq hu, hj]

theorem refreshResult?_eq (hf : Forest r) {u : Task} (hu : u ∈ r.tasks)
    {result : Except ClientError Unit} (hj : u.job = .refresh (.done result)) :
    r.refreshResult? u.id = some result := by simp only [refreshResult?, hf.job?_eq hu, hj]

variable {t : Task}

theorem moves_dial (hf : Forest r) (ht : t ∈ r.tasks) (hk : t.job.kind = .dial) :
    (r.dialResult? t.id).isSome ∨ Moves r t := by
  obtain ⟨id, root, job⟩ := t
  cases job with
  | dial a stage =>
    cases stage with
    | done result => exact .inl (by rw [hf.dialResult?_eq ht rfl]; rfl)
    | calling | greeting => exact .inr (.outside rfl)
    | _ => exact .inr (.free rfl)
  | _ => cases hk

/-- Who waits for dials only can go on when they are all over. -/
theorem moves_of_dials (hf : Forest r) (ht : t ∈ r.tasks) (hk : t.job.employs = .dial)
    (hw : (∀ d ∈ t.job.helpers, (r.dialResult? d).isSome) → r.isFree t = true) : Moves r t := by
  by_cases h : ∀ d ∈ t.job.helpers, (r.dialResult? d).isSome
  · exact .free (hw h)
  · obtain ⟨d, hd, hn⟩ := by simpa using h
    obtain ⟨u, hu, rfl, huk⟩ := hf.helped t ht d hd
    refine .helper hd hu ((hf.moves_dial hu (huk.trans hk)).resolve_left ?_)
    simp [hn]

theorem moves_loading (hf : Forest r) (ht : t ∈ r.tasks) (hl : t.job.loading = true) : Moves r t := by
  obtain ⟨id, root, job⟩ := t
  cases job with
  | refresh stage =>
    cases stage with
    | enter | waiting | done => cases hl
    | awaiting => exact .outside rfl
    | filling table dials =>
      exact hf.moves_of_dials ht rfl fun h => List.all_eq_true.mpr (List.forall_mem_map.mp h)
    | _ => exact .free rfl
  | _ => cases hl

theorem moves_refresh (hf : Forest r) (hl : Lock r) (ht : t ∈ r.tasks) (hk : t.job.kind = .refresh) :
    (r.refreshResult? t.id).isSome ∨ Moves r t := by
  cases hj : t.job with
  | refresh stage =>
    cases stage with
    | done result => exact .inl (by rw [hf.refreshResult?_eq ht hj]; rfl)
    | enter => exact .inr (.free (by simp [isFree, hj]))
    | waiting =>
      have hm : t.id ∈ r.lock := (hl.queued t ht).mpr (by rw [hj]; rfl)
      obtain ⟨id, hh⟩ := Option.isSome_iff_exists.mp (List.isSome_head?.mpr (List.ne_nil_of_mem hm))
      obtain ⟨u, hu, rfl⟩ := hl.owner id (List.mem_of_head? hh)
      refine .inr (.lock hj hu hh ?_)
      rcases Job.waiting_or_loading ((hl.queued u hu).mp (List.mem_of_head? hh)) with hw | hw
      · exact .free (by simp [isFree, hw, hh])
      · exact hf.moves_loading hu hw
    | _ => exact .inr (hf.moves_loading ht (by rw [hj]; rfl))
  | _ => rw [hj] at hk; cases hk

/-- Who waits for a refresh only can go on when it is over. -/
theorem moves_of_refresh (hf : Forest r) (hl : Lock r) (ht : t ∈ r.tasks)
    (hk : t.job.employs = .refresh) {d : TaskId} (hd : d ∈ t.job.helpers)
    (hw : (r.refreshResult? d).isSome → r.isFree t = true) : Moves r t := by
  obtain ⟨u, hu, rfl, huk⟩ := hf.helped t ht d hd
  rcases hf.moves_refresh hl hu (huk.trans hk) with h | h
  · exact .free (hw h)
  · exact .helper hd hu h

theorem moves (hf : Forest r) (hl : Lock r) (ht : t ∈ r.tasks) (hn : t.job.finished = false) :
    Moves r t := by
  obtain ⟨id, root, job⟩ := t
  cases job with
  | dial a stage =>
    refine (hf.moves_dial ht rfl).resolve_left fun h => ?_
    simp only [dialResult?, hf.job?_eq ht] at h
    split at h
    next hj => cases hj; cases hn
    · cases h
  | refresh stage =>
    refine (hf.moves_refresh hl ht rfl).resolve_left fun h => ?_
    simp only [refreshResult?, hf.job?_eq ht] at h
    split at h
    next hj => cases hj; cases hn
    · cases h
  | send s =>
    obtain ⟨_, _, _, _, stage⟩ := s
    cases stage with
    | reaching held d asking =>
      exact hf.moves_of_dials ht rfl fun h => h d (List.mem_singleton_self d)
    | refreshing c target d =>
      exact hf.moves_of_refresh hl ht rfl (List.mem_singleton_self d) fun h => h
    | awaiting | awaitingAsking | resting => exact .outside rfl
    | route | submit | submitAsking | submitAsked => exact .free rfl
  | opening stage =>
    cases stage with
    | start => exact .free rfl
    | seeding dials =>
      refine hf.moves_of_dials ht rfl fun h => ?_
      simp only [isFree, Bool.or_eq_true]
      exact .inr (List.all_eq_true.mpr h)
    | loading d => exact hf.moves_of_refresh hl ht rfl (List.mem_singleton_self d) fun h => h
  | reload d =>
    cases d with
    | none => exact .free rfl
    | some d => exact hf.moves_of_refresh hl ht rfl (List.mem_singleton_self d) fun h => h
  | recovery d =>
    cases d with
    | none => exact .free rfl
    | some d => exact hf.moves_of_refresh hl ht rfl (List.mem_singleton_self d) fun h => h

end Forest

/-- In a state that a router gets to, no task is stuck. -/
theorem Reaches.moves (h : Reaches s is r log) {t : Task} (ht : t ∈ r.tasks)
    (hn : t.job.finished = false) : Moves r t := h.forest.moves h.lock ht hn

end Router

end RespClient.Cluster
