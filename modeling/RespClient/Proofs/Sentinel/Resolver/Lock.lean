import RespClient.Proofs.Sentinel.Resolver.Runs

namespace RespClient.Sentinel

/-- The job has asked for the lock and not given it back. -/
def Job.queued : Job → Bool
  | .notify .enter | .notify (.done _) => false
  | .notify _ => true
  | _ => false

/-- The job has the lock and has found no notification connection. -/
def Job.locked : Job → Bool
  | .notify .enter | .notify .waiting | .notify (.done _) => false
  | .notify _ => true
  | _ => false

theorem Job.queued_of_locked {job : Job} (h : job.locked = true) : job.queued = true := by
  cases job with
  | notify stage => cases stage <;> first | rfl | cases h
  | _ => cases h

theorem Job.IsFresh.queued {job : Job} (h : job.IsFresh) : job.queued = false := by cases h <;> rfl

namespace Resolver

variable {s : SentinelSettings} {is : List Input} {i : Input} {r r' core : Resolver}
  {log acts : List Action} {t u : Task} {job? fresh? : Option Job}

structure Lock (r : Resolver) : Prop where
  queued : ∀ t ∈ r.tasks, t.id ∈ r.lock ↔ t.job.queued = true
  bound : ∀ id ∈ r.lock, id < r.next
  head : ∀ t ∈ r.tasks, t.job.locked = true → r.lock.head? = some t.id

/-- What a turn does to the lock. -/
inductive Locks (r : Resolver) (id : TaskId) (job : Job) (job? : Option Job) (core : Resolver) : Prop
  | enter (hc : core.lock = r.lock ++ [id]) (hj : job.queued = false)
      (hq : job?.elim false Job.queued = true) (hl : job?.elim false Job.locked = false)
  | leave (hc : core.lock = r.lock.filter (· != id)) (hj : r.lock.head? = some id ∨ job.locked = true)
      (hq : job?.elim false Job.queued = false)
  | stay (hc : core.lock = r.lock) (hq : job?.elim false Job.queued = job.queued)
      (hl : job?.elim false Job.locked = true → job.locked = true ∨ r.lock.head? = some id)

theorem Turn.locks (h : Turn r i t job? fresh? core acts) : Locks r t.id t.job job? core := by
  have quiet {t : Task} {job? : Option Job} {core : Resolver} (hc : core.lock = r.lock)
      (hj : t.job.queued = false) (hq : job?.elim false Job.queued = false)
      (hl : job?.elim false Job.locked = false) : Locks r t.id t.job job? core :=
    .stay hc (hq.trans hj.symm) fun h => nomatch hl.symm.trans h
  cases h with
  | resolve h =>
    cases h with
    | accept =>
      rw [promote_eq]
      exact quiet rfl rfl rfl rfl
    | _ => exact quiet rfl rfl rfl rfl
  | notify h =>
    cases h with
    | enter => exact .enter rfl rfl rfl rfl
    | found h => exact .leave rfl (.inl h) rfl
    | resolve h => exact .stay rfl rfl fun _ => .inr h
    | stuck | record | giveUp => exact .leave rfl (.inr rfl) rfl
    | _ => exact .stay rfl rfl fun _ => .inl rfl
  | opening h => cases h <;> exact quiet rfl rfl rfl rfl
  | connected => exact .stay rfl rfl fun _ => .inl rfl
  | unreachable => exact .leave rfl (.inr rfl) rfl
  | lookup | found | reached | missed | opened => exact quiet rfl rfl rfl rfl

namespace Lock

theorem turn (hl : Lock r) (hn : Numbered r) (ht : t ∈ r.tasks)
    (h : Turn r i t job? fresh? core acts) : Lock (core.turn t job? fresh?) := by
  have hg := h.grows
  have hk : (core.turn t job? fresh?).lock = core.lock := by rw [turn_eq]
  have others {id : TaskId} (hid : id ≠ t.id) : id ∈ core.lock ↔ id ∈ r.lock := by
    cases h.locks with
    | enter hc => simp [hc, hid]
    | leave hc => simp [hc, hid]
    | stay hc => rw [hc]
  have self : t.id ∈ core.lock ↔ job?.elim false Job.queued = true := by
    cases h.locks with
    | enter hc hj hq => simp [hc, hq]
    | leave hc hj hq => simp [hc, hq]
    | stay hc hq => rw [hc, hq, hl.queued t ht]
  refine { queued := fun u hu => hk ▸ ?queued, bound := fun id hid => ?bound,
           head := fun u hu hu' => hk ▸ ?head }
  case queued =>
    rcases (hn.mem_turn ht hg).mp hu with ⟨hu, hne, -⟩ | ⟨job, rfl, rfl⟩ | ⟨job, hj, rfl⟩
    · rw [others fun hid => hne (hn.eq_of_id hu ht hid)]
      exact hl.queued u hu
    · exact self
    · have hid : core.next ≠ t.id := Nat.ne_of_gt (Nat.lt_of_lt_of_le (hn.bound t ht) hg.next)
      rw [others hid, (hg.recruits job hj).queued]
      refine iff_of_false ?_ nofun
      intro hm
      exact Nat.not_lt_of_ge hg.next (hl.bound _ hm)
  case bound =>
    rw [hk] at hid
    rw [turn_eq]
    by_cases hit : id = t.id
    · rw [hit]
      exact Nat.lt_of_lt_of_le (hn.bound t ht) (Nat.le_trans hg.next (Nat.le_add_right _ _))
    · have hlt := hl.bound id ((others hit).mp hid)
      exact Nat.lt_of_lt_of_le hlt (Nat.le_trans hg.next (Nat.le_add_right _ _))
  case head =>
    rcases (hn.mem_turn ht hg).mp hu with ⟨hu, hne, -⟩ | ⟨job, rfl, rfl⟩ | ⟨job, hj, rfl⟩
    · have hh := hl.head u hu hu'
      cases h.locks with
      | enter hc =>
        rw [hc, List.head?_append, hh]
        rfl
      | leave hc hj =>
        have hth := hj.elim id (hl.head t ht)
        have hid : t.id = u.id := Option.some.inj (hth.symm.trans hh)
        exact absurd (hn.eq_of_id ht hu hid).symm hne
      | stay hc => rw [hc, hh]
    · cases h.locks with
      | enter hc hj hq hl => cases hl.symm.trans hu'
      | leave hc hj hq => cases hq.symm.trans (Job.queued_of_locked hu')
      | stay hc hq hh => exact hc ▸ (hh hu').elim (hl.head t ht) id
    · cases (hg.recruits job hj).queued.symm.trans (Job.queued_of_locked hu')

theorem call (hl : Lock r) {job : Job} (hj : job.queued = false) :
    Lock (r.call job).2 where
  queued u hu := by
    rcases List.mem_append.mp hu with hu | hu
    · exact hl.queued u hu
    · obtain rfl := List.mem_singleton.mp hu
      exact iff_of_false (fun h => Nat.lt_irrefl _ (hl.bound _ h)) (by simp [hj])
  bound id hid := Nat.lt_succ_of_lt (hl.bound id hid)
  head u hu hu' := by
    rcases List.mem_append.mp hu with hu | hu
    · exact hl.head u hu hu'
    · obtain rfl := List.mem_singleton.mp hu
      cases hj.symm.trans (Job.queued_of_locked hu')

theorem event (hl : Lock r) (hn : Numbered r) (h : Event r i r' acts) : Lock r' := by
  cases h with
  | turn ht h => exact hl.turn hn ht h
  | call h => exact hl.call h.isFresh.queued
  | news h => cases h <;> exact ⟨hl.queued, hl.bound, hl.head⟩

/-- Only one notifying at a time has the lock. -/
theorem unique (hl : Lock r) (hn : Numbered r) (ht : t ∈ r.tasks) (hu : u ∈ r.tasks)
    (h : t.job.locked = true) (h' : u.job.locked = true) : t = u := by
  have hid := (hl.head t ht h).symm.trans (hl.head u hu h')
  exact hn.eq_of_id ht hu (Option.some.inj hid)

end Lock

theorem Reaches.lock (h : Reaches s is r log) : Lock r :=
  h.induct (P := fun _ r _ => Lock r) ⟨nofun, nofun, nofun⟩ fun h hl _ he => hl.event h.numbered he

end Resolver

end RespClient.Sentinel
