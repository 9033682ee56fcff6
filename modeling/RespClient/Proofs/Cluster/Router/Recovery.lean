import RespClient.Proofs.Cluster.Router.Shutdown
import RespClient.Proofs.Cluster.Router.Tables

namespace RespClient.Cluster

/-- The connection whose failure handler runs. -/
def Input.broken? : Input → Option ConnId
  | failed c _ => some c
  | _ => none

namespace Job

def isCall : Job → Bool
  | send _ | opening _ | reload _ => true
  | _ => false

/-- The recovery has not started its refresh. -/
def waits : Job → Bool
  | recovery none => true
  | _ => false

theorem waits_iff {job : Job} : job.waits = true ↔ job = recovery none := by
  cases job with
  | recovery d => cases d <;> simp [waits]
  | _ => simp [waits]

def lists : Job → List String
  | refresh (.comparing table) => table.addresses
  | dial a _ => [a]
  | _ => []

/-- The job leads to nothing but connections to listed addresses. -/
structure Confined (listed : List String) (job : Job) : Prop where
  isCall : job.isCall = false
  lists : ∀ a ∈ job.lists, a ∈ listed

theorem Confined.mono {job : Job} {listed listed' : List String} (h : job.Confined listed)
    (hl : ∀ a ∈ listed, a ∈ listed') : job.Confined listed' :=
  ⟨h.isCall, fun a ha => hl a (h.lists a ha)⟩

end Job

namespace Router

variable {s : ClusterSettings} {is js : List Input} {i : Input} {r r' core : Router}
  {log acts : List Action} {id : TaskId}

/-- The connections whose failures are handled, in order. -/
def broken (js : List Input) : List ConnId := js.flatMap fun i => i.broken?.toList

/-- The recovery that starts its refresh with an input. -/
def recovers? (r : Router) : Input → Option TaskId
  | .step id _ =>
    match r.job? id with
    | some (.recovery none) => some id
    | _ => none
  | _ => none

def recoveries (r : Router) : List Input → List TaskId :=
  r.collect fun r i => (r.recovers? i).toList

/-- The table that a refresh takes up with an input. -/
def hears? (r : Router) : Input → Option SlotTable
  | .step id choice =>
    match r.job? id with
    | some (.refresh (.awaiting _ _ _ _)) =>
      match (r.step (.step id choice)).1.job? id with
      | some (.refresh (.comparing table)) => some table
      | _ => none
    | _ => none
  | _ => none

/-- The addresses in the tables that refreshes take up, in order. -/
def reported (r : Router) : List Input → List String :=
  r.collect fun r i => (r.hears? i).elim [] SlotTable.addresses

/-- The addresses to connect to: those that tasks already have, and those in the tables to come. -/
def listed (r : Router) (js : List Input) : List String :=
  (r.tasks.flatMap fun t => t.job.lists) ++ r.reported js

def waiting (r : Router) : List TaskId := (r.tasks.filter fun t => t.job.waits).map (·.id)

/-- The recovery that a failure starts. -/
def begins? (r : Router) : Input → Option TaskId
  | .failed _ _ => if r.closed then none else some r.next
  | _ => none

def begun (r : Router) : List Input → List TaskId :=
  r.collect fun r i => (r.begins? i).toList

theorem Event.task_cases (h : Event r i r' acts) (hf : Forest r) {u : Task} (hu : u ∈ r'.tasks) :
    u ∈ r.tasks ∨
    (∃ t ∈ r.tasks, t.id = u.id ∧ ∃ fresh core, Turn r i t (some u.job) fresh core acts) ∨
    (∃ t ∈ r.tasks, ∃ job? fresh core, Turn r i t job? fresh core acts ∧ u.job ∈ fresh) ∨
    ∃ core, Call r i u.job core acts ∧ u.id = r.next := by
  cases h with
  | turn ht h =>
    rcases (hf.mem_turn ht h.grows).mp hu with ⟨hu, -, -⟩ | ⟨job, rfl, rfl⟩ | hu
    · exact .inl hu
    · exact .inr (.inl ⟨_, ht, rfl, _, _, h⟩)
    · exact .inr (.inr (.inl ⟨_, ht, _, _, _, h, job_of_mem_recruits hu⟩))
  | call h =>
    rcases List.mem_append.mp hu with hu | hu
    · exact .inl (h.spares.tasks ▸ hu)
    · obtain rfl := List.mem_singleton.mp hu
      exact .inr (.inr (.inr ⟨_, h, h.spares.next⟩))
  | news h => exact .inl (h.spares.tasks ▸ hu)

theorem begun_length_le (r : Router) (js : List Input) :
    (r.begun js).length ≤ (broken js).length := by
  induction js generalizing r with
  | nil => exact Nat.le_refl _
  | cons j js ih =>
    have hhead : (r.begins? j).toList.length ≤ j.broken?.toList.length := by
      cases j with
      | failed c e =>
        simp only [begins?, Input.broken?]
        split <;> simp
      | _ => exact Nat.le_refl _
    have hbegun : r.begun (j :: js) = (r.begins? j).toList ++ (r.step j).1.begun js := rfl
    have hbroken : broken (j :: js) = j.broken?.toList ++ broken js := rfl
    rw [hbegun, hbroken, List.length_append, List.length_append]
    exact Nat.add_le_add hhead (ih _)

theorem begins?_eq_some {k : TaskId} (h : r.begins? i = some k) :
    k = r.next ∧ (r.step i).1.next = r.next + 1 := by
  cases i with
  | failed c e =>
    simp only [begins?] at h
    split at h
    · cases h
    next hc =>
      cases h
      rw [Router.step, Router.failed, forget_eq]
      simp [hc, call, spawn]
  | _ => cases h

theorem recovers?_eq_some (h : r.recovers? i = some id) :
    ∃ t ∈ r.tasks, t.id = id ∧ t.job = .recovery none ∧ ∃ choice, i = .step id choice := by
  unfold recovers? at h
  split at h
  · split at h
    next hj =>
      cases h
      obtain ⟨t, ht, hid, htj⟩ := exists_of_job? hj
      exact ⟨t, ht, hid, htj, _, rfl⟩
    · cases h
  · cases h

theorem Turn.not_waiting {t : Task} {job? : Option Job} {fresh : List Job}
    (h : Turn r i t job? fresh core acts) : job? ≠ some (.recovery none) := by
  cases h <;> simp

/-- A recovery that waits after a step has waited before and does not start its refresh now, or a failure
has just started it. -/
theorem step_waits (hf : Forest r) {u : Task} (hu : u ∈ (r.step i).1.tasks)
    (hj : u.job = .recovery none) : u ∈ r.tasks ∧ r.recovers? i ≠ some u.id ∨
      r.begins? i = some u.id := by
  rcases (step_event r i).task_cases hf hu with hu' | ⟨t, -, -, fresh, core, hx⟩ |
    ⟨t, -, job?, fresh, core, hx, hfresh⟩ | ⟨core, hx, hid⟩
  · refine .inl ⟨hu', fun hr => ?_⟩
    obtain ⟨t, -, -, -, choice, rfl⟩ := recovers?_eq_some hr
    rcases step_own hf hu' choice with ⟨hno, -⟩ | ⟨job?, fresh, core, acts, hx, hstep⟩
    · have hfree : r.isFree u = true := by simp only [isFree, hj, Option.all_none]
      cases hno.symm.trans hfree
    · rw [hstep] at hu
      have hjob := hf.job_of_mem_turn hu' hx.grows hu rfl
      exact absurd (hjob.trans (congrArg some hj)) hx.not_waiting
  · exact absurd (congrArg some hj) hx.not_waiting
  · have hfresh' := hx.grows.recruits _ hfresh
    rw [hj] at hfresh'
    cases hfresh'
  · rw [hj] at hx
    cases hx with
    | recovery hc => exact .inr (by simp only [begins?, hc, hid, Bool.false_eq_true, if_false])

/-- The recoveries that wait for their refresh, or will. -/
def due (r : Router) (js : List Input) : List TaskId := r.waiting ++ r.begun js

/-- What is the case of the recoveries after some inputs. -/
structure Recovering (r : Router) (js : List Input) (r' : Router) : Prop where
  nodup : (r.recoveries js).Nodup
  due : ∀ k ∈ r.recoveries js, k ∈ r.due js
  bound : ∀ k ∈ r.due js, k < r'.next
  waits : ∀ t ∈ r'.tasks, t.job = .recovery none → t.id ∈ r.due js ∧ t.id ∉ r.recoveries js

theorem Recovering.start (hf : Forest r) : Recovering r [] r where
  nodup := List.nodup_nil
  due := nofun
  bound := by
    intro k hk
    rw [Router.due, begun, collect, List.append_nil] at hk
    obtain ⟨t, ht, rfl⟩ := List.mem_map.mp hk
    exact hf.bound t (List.mem_of_mem_filter ht)
  waits := fun t ht hj => ⟨List.mem_append_left _ (List.mem_map_of_mem
    (List.mem_filter.mpr ⟨ht, Job.waits_iff.mpr hj⟩)), List.not_mem_nil⟩

theorem Recovering.step (hr : Recovering r js (r.run js).1) (hf : Forest (r.run js).1) (i : Input) :
    Recovering r (js ++ [i]) ((r.run js).1.step i).1 := by
  have hlist : r.recoveries (js ++ [i]) =
      r.recoveries js ++ ((r.run js).1.recovers? i).toList := collect_concat ..
  have hdue : r.due (js ++ [i]) = r.due js ++ ((r.run js).1.begins? i).toList := by
    rw [Router.due, begun, collect_concat, ← List.append_assoc]
    rfl
  have hnext := (step_event (r.run js).1 i).next_le
  have hnew : ∀ id, (r.run js).1.recovers? i = some id → id ∈ r.due js ∧ id ∉ r.recoveries js := by
    intro id hid
    obtain ⟨t, ht, rfl, hj, -⟩ := recovers?_eq_some hid
    exact hr.waits t ht hj
  refine ⟨?_, fun k hk => ?_, fun k hk => ?_, fun u hu hj => ?_⟩
  · rw [hlist]
    refine List.nodup_append.mpr ⟨hr.nodup, by cases (r.run js).1.recovers? i <;> simp, ?_⟩
    rintro k hk _ hk' rfl
    exact (hnew k (Option.mem_toList.mp hk')).2 hk
  · rw [hlist] at hk
    rw [hdue]
    rcases List.mem_append.mp hk with hk | hk
    · exact List.mem_append_left _ (hr.due k hk)
    · exact List.mem_append_left _ (hnew k (Option.mem_toList.mp hk)).1
  · rw [hdue] at hk
    rcases List.mem_append.mp hk with hk | hk
    · exact Nat.lt_of_lt_of_le (hr.bound k hk) hnext
    · obtain ⟨rfl, hsucc⟩ := begins?_eq_some (Option.mem_toList.mp hk)
      exact hsucc ▸ Nat.lt_succ_self _
  · rw [hlist, hdue]
    rcases step_waits hf hu hj with ⟨hu', hne⟩ | hbegins
    · obtain ⟨hb, hn⟩ := hr.waits u hu' hj
      refine ⟨List.mem_append_left _ hb, fun hk => ?_⟩
      rcases List.mem_append.mp hk with hk | hk
      · exact hn hk
      · exact hne (Option.mem_toList.mp hk)
    · have hid := (begins?_eq_some hbegins).1
      refine ⟨List.mem_append_right _ (Option.mem_toList.mpr hbegins), fun hk => ?_⟩
      rcases List.mem_append.mp hk with hk | hk
      · exact Nat.ne_of_lt (hr.bound _ (hr.due _ hk)) hid
      · obtain ⟨t, ht, htid, -⟩ := recovers?_eq_some (Option.mem_toList.mp hk)
        exact Nat.ne_of_lt (hf.bound t ht) (htid.trans hid)

/-- Each recovery refreshes once, and each was already due or started by a failure of its own. -/
theorem Reaches.recoveries_le (h : Reaches s is r log) (hl : r.AdmitsAll js) :
    (r.recoveries js).Nodup ∧
      (r.recoveries js).length ≤ r.waiting.length + (broken js).length := by
  have hr : Recovering r js (r.run js).1 := by
    induction js using List.reverseRecOn with
    | nil => exact .start h.forest
    | append_singleton js i ih =>
      obtain ⟨hjs, hi⟩ := admitsAll_concat.mp hl
      rw [run_concat]
      exact (ih hjs).step (h.run js hjs).forest i
  have hle := (List.subperm_of_subset hr.nodup hr.due).length_le
  rw [Router.due, List.length_append] at hle
  exact ⟨hr.nodup, hle.trans (Nat.add_le_add_left (begun_length_le r js) _)⟩

section Turns

variable {t : Task} {job? : Option Job} {fresh : List Job} {listed : List String}

theorem Turn.confined (h : Turn r i t job? fresh core acts) (ht : t.job.Confined listed)
    (hl : ∀ table, job? = some (.refresh (.comparing table)) → ∀ a ∈ table.addresses, a ∈ listed) :
    ∀ job, job? = some job → job.Confined listed := by
  rintro job rfl
  generalize hj : some job = job? at h hl
  cases h with
  | dial | dialed | refused =>
    cases hj
    exact ⟨rfl, ht.lists⟩
  | refresh h =>
    cases hj
    cases h with
    | load => exact ⟨rfl, hl _ rfl⟩
    | _ => exact ⟨rfl, nofun⟩
  | recover =>
    cases hj
    exact ⟨rfl, nofun⟩
  | recovered => cases hj
  | send | opening | reload | reloaded | rested => cases ht.isCall

theorem Turn.confined_fresh (h : Turn r i t job? fresh core acts) (ht : t.job.Confined listed) :
    ∀ job ∈ fresh, job.Confined listed := by
  cases h with
  | refresh h =>
    cases h with
    | compare =>
      refine List.forall_mem_map.mpr fun a ha => ⟨rfl, List.forall_mem_singleton.mpr ?_⟩
      exact ht.lists a (List.mem_of_mem_filter ha)
    | _ => exact List.forall_mem_nil _
  | recover => exact List.forall_mem_singleton.mpr ⟨rfl, nofun⟩
  | dial | dialed | refused | recovered => exact List.forall_mem_nil _
  | send | opening | reload | reloaded | rested => cases ht.isCall

end Turns

/-- A refresh that has a table after its turn has taken it up with that. -/
theorem hears?_of_comparing (hf : Forest r) (hf' : Forest (r.step i).1) {t u : Task}
    (ht : t ∈ r.tasks) (hu : u ∈ (r.step i).1.tasks) (hid : t.id = u.id) {fresh : List Job}
    (h : Turn r i t (some u.job) fresh core acts) {table : SlotTable}
    (hj : u.job = .refresh (.comparing table)) : r.hears? i = some table := by
  have hafter := hf'.job?_eq hu
  rw [hj] at h hafter
  have hbefore := hf.job?_eq ht
  rw [hid] at hbefore
  obtain ⟨id, root, job⟩ := t
  obtain rfl : id = u.id := hid
  generalize hjob? : some (Job.refresh (.comparing table)) = job? at h
  cases h with
  | refresh h =>
    cases hjob?
    cases h with
    | load => simp only [hears?, hbefore, hafter]
  | _ => simp at hjob?

/-- What is the case after some inputs without a call, when no call was under way: the tasks connect to
nothing but what is listed, and each new connection leads there. -/
structure Confined (r : Router) (js : List Input) (r' : Router) : Prop where
  tasks : ∀ t ∈ r'.tasks, t.job.Confined (r.listed js)
  opened : ∀ e ∈ r'.opened, e ∈ r.opened ∨ e.2 ∈ r.listed js

theorem Confined.start (hr : ∀ t ∈ r.tasks, t.job.isCall = false) : Confined r [] r where
  tasks := fun t ht => ⟨hr t ht, fun _ ha => List.mem_append_left _ (List.mem_flatMap.mpr ⟨t, ht, ha⟩)⟩
  opened := fun _ he => .inl he

theorem listed_concat (r : Router) (js : List Input) (i : Input) : r.listed (js ++ [i]) =
    r.listed js ++ ((r.run js).1.hears? i).elim [] SlotTable.addresses := by
  rw [listed, reported, collect_concat, ← List.append_assoc]
  rfl

theorem Confined.step (hc : Confined r js (r.run js).1) (hf : Forest (r.run js).1)
    (hf' : Forest ((r.run js).1.step i).1) (hi : i.isCall = false) :
    Confined r (js ++ [i]) ((r.run js).1.step i).1 := by
  have hmono : ∀ a ∈ r.listed js, a ∈ r.listed (js ++ [i]) := by
    intro a ha
    rw [listed_concat]
    exact List.mem_append_left _ ha
  have hheard : ∀ table, (r.run js).1.hears? i = some table →
      ∀ a ∈ table.addresses, a ∈ r.listed (js ++ [i]) := by
    intro table ht a ha
    rw [listed_concat, ht]
    exact List.mem_append_right _ ha
  refine ⟨fun u hu => ?_, fun e he => ?_⟩
  · rcases (step_event (r.run js).1 i).task_cases hf hu with hu' | ⟨t, ht, hid, fresh, core, hx⟩ |
      ⟨t, ht, job?, fresh, core, hx, hfresh⟩ | ⟨core, hx, -⟩
    · exact (hc.tasks u hu').mono hmono
    · refine hx.confined ((hc.tasks t ht).mono hmono) (fun table hj => ?_) _ rfl
      exact hheard table (hears?_of_comparing hf hf' ht hu hid hx (Option.some.inj hj))
    · exact hx.confined_fresh ((hc.tasks t ht).mono hmono) _ hfresh
    · generalize u.job = job at hx
      cases hx with
      | recovery => exact ⟨rfl, nofun⟩
      | _ => cases hi
  · rcases (step_event (r.run js).1 i).opens with ho | ⟨t, ht, c, a, -, hj, ho⟩
    · exact (hc.opened e (ho ▸ he)).imp_right (hmono _)
    · rw [ho] at he
      rcases List.mem_append.mp he with he | he
      · exact (hc.opened e he).imp_right (hmono _)
      · obtain rfl := List.mem_singleton.mp he
        exact .inr (hmono _ ((hc.tasks t ht).lists _ (hj ▸ List.mem_singleton_self a)))

theorem Reaches.confined (h : Reaches s is r log) (hl : r.AdmitsAll js)
    (hr : ∀ t ∈ r.tasks, t.job.isCall = false) (hcalls : ∀ i ∈ js, i.isCall = false) :
    Confined r js (r.run js).1 := by
  induction js using List.reverseRecOn with
  | nil => exact .start hr
  | append_singleton js i ih =>
    obtain ⟨hjs, hi⟩ := admitsAll_concat.mp hl
    obtain ⟨hcalls, hcall⟩ := List.forall_mem_append.mp hcalls
    have hm := h.run js hjs
    rw [run_concat]
    exact (ih hjs hcalls).step hm.forest (hm.step hi).forest (hcall i (List.mem_singleton_self i))

/-- The connections in use: a pool entry, or a dial's own. -/
def InUse (r : Router) (c : ConnId) : Prop :=
  ∃ a, (a, c) ∈ r.pool ∨ ∃ t ∈ r.tasks, t.job.own? = some (a, c)

/-- A connection in use leads to a node in the pool, or to one that a dial was to reach. -/
theorem Reaches.origin_of_inUse (h : Reaches s is r log) {c : ConnId} {a : String}
    (he : (c, a) ∈ r.opened) (hu : r.InUse c) :
    a ∈ r.pool.map (·.1) ∨ ∃ t ∈ r.tasks, a ∈ t.job.lists := by
  have hsame : ∀ b, (c, b) ∈ r.opened → b = a := fun b hb =>
    (h.custody.origin_eq hb).symm.trans (h.custody.origin_eq he)
  obtain ⟨b, hp | ⟨t, ht, ho⟩⟩ := hu
  · exact .inl (hsame b (h.custody.stored _ hp) ▸ List.mem_map_of_mem hp)
  · obtain rfl := hsame b (h.custody.owned t ht _ ho)
    refine .inr ⟨t, ht, ?_⟩
    generalize t.job = job at ho
    cases job with
    | dial b stage =>
      obtain ⟨c', -, hb⟩ := Option.map_eq_some_iff.mp ho
      cases hb
      exact List.mem_singleton_self b
    | _ => cases ho

/-- When nobody calls, a router starts no more refreshes than connections fail, one for each, besides those
that are already due, and connects to nothing but what is listed: by the tables that it gets, and for the
tasks under way. Let what fails be in use at first, or opened since. Then it leads to a node that was in the
pool or is listed; and if no node fails twice, failures start no more refreshes than such nodes. -/
theorem recoveries_bounded_by_failures (h : Reaches s is r log) (hl : r.AdmitsAll js)
    (hr : ∀ t ∈ r.tasks, t.job.isCall = false) (hcalls : ∀ i ∈ js, i.isCall = false) :
    let r' := (r.run js).1
    (r.recoveries js).Nodup ∧
    (r.recoveries js).length ≤ r.waiting.length + (broken js).length ∧
    (∀ e ∈ r'.opened, e ∈ r.opened ∨ e.2 ∈ r.listed js) ∧
    ∀ nodes : List String, (∀ x ∈ r.pool, x.1 ∈ nodes) → (∀ a ∈ r.listed js, a ∈ nodes) →
      (∀ c ∈ broken js, c ∈ r'.opened.map (·.1) ∧ (c ∈ r.opened.map (·.1) → r.InUse c)) →
      (∀ c ∈ broken js, r'.origin c ∈ nodes) ∧
      (((broken js).map r'.origin).Nodup →
        (r.recoveries js).length ≤ r.waiting.length + nodes.length) := by
  intro r'
  have hm := h.run js hl
  have hc := h.confined hl hr hcalls
  obtain ⟨hnodup, hle⟩ := h.recoveries_le hl
  refine ⟨hnodup, hle, hc.opened, fun nodes hpool hlisted hb => ?_⟩
  have horigin : ∀ c ∈ broken js, r'.origin c ∈ nodes := by
    intro c hbroken
    obtain ⟨hopened, huse⟩ := hb c hbroken
    obtain ⟨⟨c', a⟩, he, rfl⟩ := List.mem_map.mp hopened
    rw [hm.custody.origin_eq he]
    rcases hc.opened _ he with hold | hnew
    · rcases h.origin_of_inUse hold (huse (List.mem_map_of_mem hold)) with hp | ⟨t, ht, ha⟩
      · obtain ⟨x, hx, rfl⟩ := List.mem_map.mp hp
        exact hpool x hx
      · exact hlisted a (List.mem_append_left _ (List.mem_flatMap.mpr ⟨t, ht, ha⟩))
    · exact hlisted a hnew
  refine ⟨horigin, fun hdistinct => ?_⟩
  have hsub : (broken js).map r'.origin ⊆ nodes := List.forall_mem_map.mpr horigin
  have hcard := (List.subperm_of_subset hdistinct hsub).length_le
  rw [List.length_map] at hcard
  exact hle.trans (Nat.add_le_add_left hcard _)

/-- Two nodes are listed. -/
def pair : Reply :=
  .multi (some [.multi (some [.integer 0, .integer 9, .multi (some [.status "a", .integer 1])]),
    .multi (some [.integer 10, .integer 19, .multi (some [.status "b", .integer 1])])])

/-- A task takes some steps in a row. -/
def steps (id : TaskId) (k : Nat) : List Input := List.replicate k (.step id 0)

/-- A client of two nodes opens, while no slots are assigned yet. -/
def paired : List Input :=
  .opening :: steps 0 1 ++ steps 1 1 ++ steps 2 1 ++ [.dialed 1 (.ok 0), .dialed 2 (.ok 1)] ++
    steps 1 3 ++ steps 2 3 ++ steps 0 1 ++ steps 3 4 ++ [.reply 4 (.ok (.multi (some [])))] ++
    steps 3 4 ++ steps 0 1

/-- Connection `c` to the second node fails, and recovery `n` starts its refresh. -/
def losing (n : TaskId) (c : ConnId) : List Input :=
  [.down c, .failed c (.io "reset"), .ended c, .step n 0]

/-- The first node still lists both, and the second one accepts a connection. -/
def dialing (n : TaskId) (c : ConnId) : List Input :=
  [.reply (n + 2) (.ok pair), .step (n + 1) 0, .step (n + 1) 0, .step (n + 3) 0,
    .dialed (n + 3) (.ok (c + 1))]

/-- One failure, and the connection that replaces the one that failed. -/
def relapse (n : TaskId) (c : ConnId) : List Input :=
  losing n c ++ steps (n + 1) 4 ++ dialing n c ++ (steps (n + 3) 3 ++ steps (n + 1) 4 ++ steps n 1)

def relapses : Nat → TaskId → ConnId → List Input
  | 0, _, _ => []
  | m + 1, n, c => relapse n c ++ relapses m (n + 4) (c + 1)

/-- A run gets from one router to another one, with these recoveries and reports. -/
structure Passes (r : Router) (js : List Input) (r' : Router) (started : List TaskId)
    (listed : List String) : Prop where
  admits : r.AdmitsAll js
  run : (r.run js).1 = r'
  recoveries : r.recoveries js = started
  reported : r.reported js = listed

theorem Passes.append {r₁ r₂ r₃ : Router} {js ks : List Input} {started started' : List TaskId}
    {listed listed' : List String} (h : Passes r₁ js r₂ started listed)
    (h' : Passes r₂ ks r₃ started' listed') :
    Passes r₁ (js ++ ks) r₃ (started ++ started') (listed ++ listed') where
  admits := admitsAll_append.mpr ⟨h.admits, h.run ▸ h'.admits⟩
  run := by rw [run_append, h.run, h'.run]
  recoveries := by
    rw [Router.recoveries, collect_append, h.run]
    exact congrArg₂ _ h.recoveries h'.recoveries
  reported := by
    rw [Router.reported, collect_append, h.run]
    exact congrArg₂ _ h.reported h'.reported

section Relapse

/-- A router of two nodes. -/
abbrev scene (pool : List (String × ConnId)) (table : SlotTable) (opened : List (ConnId × String))
    (down : List ConnId) (next : Nat) (lock : List TaskId) (tasks : List Task) : Router :=
  { settings := { seeds := ["a:1", "b:1"] }
    pool := pool
    table := table
    opened := opened
    down := down
    next := next
    lock := lock
    tasks := tasks }

variable {table old : SlotTable} {opened : List (ConnId × String)} {down : List ConnId}
  {n : TaskId} {c : ConnId}

theorem pair_loads : ∃ table, SlotTable.load (Address.hostOf "a:1") pair = .ok table ∧
    table.addresses = ["a:1", "b:1"] := by
  have hok : (SlotTable.load (Address.hostOf "a:1") pair).toOption.map
      (·.shards.toList.flatten.eraseDups) = some ["a:1", "b:1"] := by decide +kernel
  generalize SlotTable.load (Address.hostOf "a:1") pair = loaded at hok
  cases loaded with
  | error e => cases hok
  | ok table =>
    exact ⟨table, rfl, SlotTable.addresses_eq_of_sorted (Option.some.inj hok) (by decide +kernel)⟩

/-- The second node loses connection `c`, and recovery `n` starts its refresh. -/
theorem passes_losing (hc : (opened.find? fun e => e.1 == c) = some (c, "b:1")) :
    Passes (scene [("a:1", 0), ("b:1", c)] old opened down n [] []) (losing n c)
      (scene [("a:1", 0)] old opened (down ++ [c]) (n + 2) []
        [⟨n, n, .recovery (some (n + 1))⟩, ⟨n + 1, n, .refresh .enter⟩]) [n] [] := by
  constructor <;>
    simp [losing, AdmitsAll, Admits, Router.run, step, failed, ended, origin, hc, forget, pooled?,
      isDown, call, spawn, stepTask, stepRecovery, setJob, job?, Router.recoveries, recovers?,
      Router.reported, hears?, collect]

theorem passes_asking (hd : 0 ∉ down) :
    Passes (scene [("a:1", 0)] old opened down (n + 2) []
        [⟨n, n, .recovery (some (n + 1))⟩, ⟨n + 1, n, .refresh .enter⟩])
      (steps (n + 1) 4)
      (scene [("a:1", 0)] old opened down (n + 3) [n + 1] [⟨n, n, .recovery (some (n + 1))⟩,
        ⟨n + 1, n, .refresh (.awaiting [] "a:1" 0 (n + 2))⟩]) [] [] := by
  constructor <;>
    simp [steps, List.replicate, AdmitsAll, Admits, Router.run, step, stepTask, stepRefresh, setJob,
      job?, pick, candidates, isDown, hd, claim, Router.recoveries, recovers?, Router.reported, hears?,
      collect]

/-- The first node lists both, and a connection to the second one opens. -/
theorem passes_dialing (hT : SlotTable.load (Address.hostOf "a:1") pair = .ok table)
    (ha : table.addresses = ["a:1", "b:1"]) (hd : 0 ∉ down) (hc : c + 1 ∉ opened.map (·.1)) :
    Passes (scene [("a:1", 0)] old opened down (n + 3) [n + 1] [⟨n, n, .recovery (some (n + 1))⟩,
        ⟨n + 1, n, .refresh (.awaiting [] "a:1" 0 (n + 2))⟩])
      (dialing n c)
      (scene [("a:1", 0)] old (opened ++ [(c + 1, "b:1")]) down (n + 4) [n + 1]
        [⟨n, n, .recovery (some (n + 1))⟩, ⟨n + 1, n, .refresh (.filling table [("b:1", n + 3)])⟩,
          ⟨n + 3, n, .dial "b:1" (.opened (c + 1))⟩]) [] ["a:1", "b:1"] := by
  constructor <;>
    simp [dialing, AdmitsAll, Admits, Router.run, step, stepTask, stepRefresh, stepDial, dialed, setJob,
      job?, mail?, takeMail, hT, missing, ha, live?, pooled?, isDown, hd, hc, spawnAll, spawn,
      List.filter, Option.filter, Router.recoveries, recovers?, Router.reported, hears?, collect]

/-- The connection is pooled, and the recovery is over. -/
theorem passes_pooling (ha : table.addresses = ["a:1", "b:1"]) (hd : c + 1 ∉ down) :
    Passes (scene [("a:1", 0)] old opened down (n + 4) [n + 1]
        [⟨n, n, .recovery (some (n + 1))⟩, ⟨n + 1, n, .refresh (.filling table [("b:1", n + 3)])⟩,
          ⟨n + 3, n, .dial "b:1" (.opened (c + 1))⟩])
      (steps (n + 3) 3 ++ steps (n + 1) 4 ++ steps n 1)
      (scene [("a:1", 0), ("b:1", c + 1)] table opened down (n + 4) [] []) [] [] := by
  constructor <;>
    simp [steps, List.replicate, AdmitsAll, Admits, Router.run, step, stepTask, stepRefresh, stepDial,
      stepRecovery, setJob, job?, isDown, hd, live?, pooled?, insert, dialResult?, remove, ha, endRefresh,
      refreshResult?, Router.recoveries, recovers?, Router.reported, hears?, collect]

/-- Connection `c` to the second node is the last one that was opened, and no later one has failed. -/
structure Latest (opened : List (ConnId × String)) (down : List ConnId) (c : ConnId) : Prop where
  pos : 0 < c
  earlier : ∃ prior, opened = prior ++ [(c, "b:1")] ∧ ∀ e ∈ prior, e.1 < c
  down : ∀ d ∈ down, 0 < d ∧ d < c

theorem Latest.succ (h : Latest opened down c) :
    Latest (opened ++ [(c + 1, "b:1")]) (down ++ [c]) (c + 1) where
  pos := Nat.succ_pos c
  earlier := by
    obtain ⟨prior, rfl, hprior⟩ := h.earlier
    refine ⟨_, rfl, fun e he => ?_⟩
    rcases List.mem_append.mp he with he | he
    · exact Nat.lt_succ_of_lt (hprior e he)
    · obtain rfl := List.mem_singleton.mp he
      exact Nat.lt_succ_self c
  down := by
    intro d hd
    rcases List.mem_append.mp hd with hd | hd
    · exact ⟨(h.down d hd).1, Nat.lt_succ_of_lt (h.down d hd).2⟩
    · obtain rfl := List.mem_singleton.mp hd
      exact ⟨h.pos, Nat.lt_succ_self _⟩

theorem passes_relapse (hT : SlotTable.load (Address.hostOf "a:1") pair = .ok table)
    (ha : table.addresses = ["a:1", "b:1"]) (h : Latest opened down c) :
    Passes (scene [("a:1", 0), ("b:1", c)] old opened down n [] []) (relapse n c)
      (scene [("a:1", 0), ("b:1", c + 1)] table (opened ++ [(c + 1, "b:1")]) (down ++ [c]) (n + 4) [] [])
      [n] ["a:1", "b:1"] := by
  have hfind : (opened.find? fun e => e.1 == c) = some (c, "b:1") := by
    obtain ⟨prior, rfl, hprior⟩ := h.earlier
    rw [List.find?_append, List.find?_eq_none.mpr fun e he => by simpa using (hprior e he).ne]
    simp
  have hnew : c + 1 ∉ opened.map (·.1) := by
    obtain ⟨prior, rfl, hprior⟩ := h.earlier
    intro hmem
    obtain ⟨e, he, hec⟩ := List.mem_map.mp hmem
    rcases List.mem_append.mp he with he | he
    · exact absurd hec (Nat.lt_succ_of_lt (hprior e he)).ne
    · obtain rfl := List.mem_singleton.mp he
      exact absurd hec (Nat.ne_of_lt (Nat.lt_succ_self c))
  have hdown : ∀ d ∈ down ++ [c], 0 < d ∧ d < c + 1 := h.succ.down
  have hfirst : 0 ∉ down ++ [c] := fun hd => Nat.lt_irrefl 0 (hdown 0 hd).1
  have hlast : c + 1 ∉ down ++ [c] := fun hd => Nat.lt_irrefl _ (hdown _ hd).2
  exact (((passes_losing hfind).append (passes_asking hfirst)).append
    (passes_dialing hT ha hfirst hnew)).append (passes_pooling ha hlast)

theorem passes_relapses (m : Nat) (h : Latest opened down c) :
    ∃ r started listed, Passes (scene [("a:1", 0), ("b:1", c)] old opened down n [] [])
      (relapses m n c) r started listed ∧ started.length = m ∧ ∀ a ∈ listed, a ∈ ["a:1", "b:1"] := by
  obtain ⟨table, hT, ha⟩ := pair_loads
  induction m generalizing old opened down n c with
  | zero => exact ⟨_, [], [], ⟨trivial, rfl, rfl, rfl⟩, rfl, nofun⟩
  | succ m ih =>
    obtain ⟨r, started, listed, hp, hlength, hlisted⟩ := ih h.succ
    exact ⟨r, _, _, (passes_relapse hT ha h).append hp, congrArg Nat.succ hlength,
      List.forall_mem_append.mpr ⟨fun _ ha => ha, hlisted⟩⟩

end Relapse

theorem broken_relapses (m : Nat) (n : TaskId) (c : ConnId) :
    broken (relapses m n c) = List.range' c m := by
  induction m generalizing n c with
  | zero => rfl
  | succ m ih =>
    have h : broken (relapses (m + 1) n c) =
        broken (relapse n c) ++ broken (relapses m (n + 4) (c + 1)) := List.flatMap_append
    rw [h, ih]
    rfl

theorem isCall_relapses (m : Nat) (n : TaskId) (c : ConnId) :
    ∀ i ∈ relapses m n c, i.isCall = false := by
  induction m generalizing n c with
  | zero => exact nofun
  | succ m ih =>
    refine List.forall_mem_append.mpr ⟨?_, ih _ _⟩
    simp [relapse, losing, dialing, steps, List.replicate, Input.isCall]

theorem paired_opens : ∃ table, after { seeds := ["a:1", "b:1"] } paired =
    scene [("a:1", 0), ("b:1", 1)] table [(0, "a:1"), (1, "b:1")] [] 5 [] [] := by
  have h : let r := after { seeds := ["a:1", "b:1"] } paired
      r.settings = { seeds := ["a:1", "b:1"] } ∧ r.pool = [("a:1", 0), ("b:1", 1)] ∧
      r.closed = false ∧ r.lock = [] ∧ r.tasks = [] ∧ r.next = 5 ∧ r.mail = [] ∧
      r.opened = [(0, "a:1"), (1, "b:1")] ∧ r.down = [] := by decide +kernel
  generalize after { seeds := ["a:1", "b:1"] } paired = r at h
  obtain ⟨settings, pool, table, closed, lock, tasks, next, mail, opened, down⟩ := r
  obtain ⟨rfl, rfl, rfl, rfl, rfl, rfl, rfl, rfl, rfl⟩ := h
  exact ⟨table, rfl⟩

theorem latest_paired : Latest [(0, "a:1"), (1, "b:1")] [] 1 :=
  ⟨Nat.one_pos, ⟨[(0, "a:1")], rfl, by decide⟩, nofun⟩

/-- Two nodes are in the pool and no other one is listed, and there are as many refreshes as one likes when
the second node accepts each connection and then fails it. -/
theorem recoveries_exceed_nodes :
    let r := after { seeds := ["a:1", "b:1"] } paired
    (∃ log, Reaches { seeds := ["a:1", "b:1"] } paired r log) ∧
    r.tasks = [] ∧ r.pool.map (·.1) = ["a:1", "b:1"] ∧
    ∀ m, let js := relapses m r.next 1
      r.AdmitsAll js ∧ (∀ i ∈ js, i.isCall = false) ∧ broken js = List.range' 1 m ∧
      (∀ a ∈ r.reported js, a ∈ ["a:1", "b:1"]) ∧ (r.recoveries js).length = m := by
  intro r
  have hr : Reaches { seeds := ["a:1", "b:1"] } paired r _ :=
    Reaches.start.run paired (by decide +kernel)
  refine ⟨⟨_, hr⟩, by decide +kernel, by decide +kernel, fun m => ?_⟩
  obtain ⟨table, hopens⟩ := paired_opens
  have hscene : r = scene [("a:1", 0), ("b:1", 1)] table [(0, "a:1"), (1, "b:1")] [] 5 [] [] := hopens
  rw [hscene]
  obtain ⟨r', started, listed, hp, hlength, hlisted⟩ := passes_relapses m latest_paired
  exact ⟨hp.admits, isCall_relapses m 5 1, broken_relapses m 5 1, hp.reported ▸ hlisted,
    hp.recoveries ▸ hlength⟩

/-- One failure there starts one refresh at most, and that connects to the second node again. -/
theorem recoveries_bounded_by_failures_once :
    let r := after { seeds := ["a:1", "b:1"] } paired
    let r' := (r.run (relapse 5 1)).1
    (r.recoveries (relapse 5 1)).length ≤ 1 ∧ r'.opened = [(0, "a:1"), (1, "b:1"), (2, "b:1")] ∧
      r'.origin 1 ∈ ["a:1", "b:1"] := by
  intro r r'
  have hr : Reaches { seeds := ["a:1", "b:1"] } paired r _ :=
    Reaches.start.run paired (by decide +kernel)
  obtain ⟨table, hp⟩ : ∃ table, Passes r (relapse 5 1) (scene [("a:1", 0), ("b:1", 2)] table
      [(0, "a:1"), (1, "b:1"), (2, "b:1")] [1] 9 [] []) [5] ["a:1", "b:1"] := by
    obtain ⟨table, hT, ha⟩ := pair_loads
    obtain ⟨old, hopens⟩ := paired_opens
    have hscene : r = scene [("a:1", 0), ("b:1", 1)] old [(0, "a:1"), (1, "b:1")] [] 5 [] [] := hopens
    rw [hscene]
    exact ⟨table, passes_relapse hT ha latest_paired⟩
  have hopened : r'.opened = [(0, "a:1"), (1, "b:1"), (2, "b:1")] := congrArg Router.opened hp.run
  have hpool : r.pool = [("a:1", 0), ("b:1", 1)] := by decide +kernel
  have hidle : r.tasks = [] := by decide +kernel
  have hlisted : r.listed (relapse 5 1) = ["a:1", "b:1"] := by
    rw [listed, hidle, hp.reported]
    rfl
  obtain ⟨-, hle, -, hnodes⟩ := recoveries_bounded_by_failures hr hp.admits
    (by rw [hidle]; exact nofun) (by decide)
  rw [waiting, hidle] at hle
  obtain ⟨horigin, -⟩ := hnodes ["a:1", "b:1"] (by rw [hpool]; decide)
    (by rw [hlisted]; exact fun _ h => h) (by
      intro c hc
      obtain rfl : c = 1 := List.mem_singleton.mp hc
      exact ⟨by rw [hopened]; decide, fun _ => ⟨"b:1", .inl (by rw [hpool]; decide)⟩⟩)
  exact ⟨hle, hopened, horigin 1 (List.mem_singleton_self 1)⟩

end Router

end RespClient.Cluster
