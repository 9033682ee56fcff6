import RespClient.Proofs.Cluster.Router.Calls
import RespClient.Proofs.Cluster.Router.Script
import RespClient.Proofs.Cluster.Selection
import RespClient.Proofs.Cluster.SlotTable

namespace RespClient.Cluster

def RefreshStage.loaded : RefreshStage → Bool
  | comparing _ | filling _ _ | installing _ | evicting _ | closing _ | done (.ok _) => true
  | _ => false

theorem Job.exists_of_kind {job : Job} (h : job.kind = .refresh) : ∃ stage, job = .refresh stage := by
  cases job with
  | refresh stage => exact ⟨stage, rfl⟩
  | _ => cases h

namespace Router

variable {s : ClusterSettings} {is js ks : List Input} {i : Input} {r r' core : Router}
  {log acts : List Action}

/-- A router with settings `s` after some inputs. -/
def after (s : ClusterSettings) (is : List Input) : Router := (run { settings := s } is).1

theorem after_concat (s : ClusterSettings) (is : List Input) (i : Input) :
    after s (is ++ [i]) = ((after s is).step i).1 := by
  rw [after, run_concat]
  rfl

theorem run_append (r : Router) (js ks : List Input) :
    r.run (js ++ ks) =
      (((r.run js).1.run ks).1, (r.run js).2 ++ ((r.run js).1.run ks).2) := by
  induction js generalizing r with
  | nil => simp [run]
  | cons j js ih => simp [run, ih, List.append_assoc]

theorem after_append (s : ClusterSettings) (is js : List Input) :
    after s (is ++ js) = ((after s is).run js).1 := by
  rw [after, run_append]
  rfl

theorem Reaches.eq_after (h : Reaches s is r log) : r = after s is := by
  induction h with
  | start => rfl
  | step h _ ih => rw [after_concat, ← ih]

theorem admitsAll_append : r.AdmitsAll (js ++ ks) ↔ r.AdmitsAll js ∧ (r.run js).1.AdmitsAll ks := by
  induction js generalizing r with
  | nil => simp [AdmitsAll, run]
  | cons j js ih => simp [AdmitsAll, run, ih, and_assoc]

theorem Reaches.admits (h : Reaches s is r log) : AdmitsAll { settings := s } is := by
  induction h with
  | start => trivial
  | step h hi ih =>
    refine admitsAll_concat.mpr ⟨ih, ?_⟩
    rw [h.eq_after] at hi
    exact hi

theorem Reaches.cut (h : Reaches s (is ++ js) r log) :
    ∃ log', Reaches s is (after s is) log' ∧ (after s is).AdmitsAll js ∧
      r = ((after s is).run js).1 := by
  obtain ⟨hi, hj⟩ := admitsAll_append.mp h.admits
  have hs := Reaches.start.run is hi
  rw [List.nil_append] at hs
  exact ⟨_, hs, hj, by rw [← after_append, h.eq_after]⟩

/-- What `f` makes of each input of a run, in order. -/
def collect {α : Type} (f : Router → Input → List α) (r : Router) : List Input → List α
  | [] => []
  | i :: is => f r i ++ collect f (r.step i).1 is

theorem collect_append {α : Type} (f : Router → Input → List α) (r : Router) (js ks : List Input) :
    collect f r (js ++ ks) = collect f r js ++ collect f (r.run js).1 ks := by
  induction js generalizing r with
  | nil => rfl
  | cons j js ih => simp [collect, run, ih, List.append_assoc]

theorem collect_concat {α : Type} (f : Router → Input → List α) (r : Router) (js : List Input)
    (i : Input) : collect f r (js ++ [i]) = collect f r js ++ f (r.run js).1 i := by
  rw [collect_append, collect, collect, List.append_nil]

/-- A reply that came in has a claim that was made before. -/
theorem Reaches.claim_lt (h : Reaches s is r log) {k : Claim} {o : Outcome} (hk : .reply k o ∈ is) :
    k < r.next := by
  induction h with
  | start => cases hk
  | @step is r log i h hi ih =>
    have hle := (step_event r i).next_le
    rcases List.mem_append.mp hk with hk | hk
    · exact Nat.lt_of_lt_of_le (ih hk) hle
    · obtain rfl := List.mem_singleton.mp hk
      exact Nat.lt_of_lt_of_le hi hle

/-- The table that an input puts in place. -/
def installs? (r : Router) (i : Input) : Option SlotTable :=
  match i with
  | .step id _ =>
    match r.job? id with
    | some (.refresh (.installing table)) => some table
    | _ => none
  | _ => none

def installs (r : Router) : List Input → List SlotTable
  | [] => []
  | i :: is => (r.installs? i).toList ++ (r.step i).1.installs is

theorem installs_concat (r : Router) (js : List Input) (i : Input) :
    r.installs (js ++ [i]) = r.installs js ++ ((r.run js).1.installs? i).toList := by
  induction js generalizing r with
  | nil => simp [installs, run]
  | cons j js ih => simp [installs, run, ih, List.append_assoc]

theorem installs?_eq_some (hf : Forest r) {table : SlotTable} :
    r.installs? i = some table ↔ ∃ t ∈ r.tasks, ∃ choice, i = .step t.id choice ∧
      t.job = .refresh (.installing table) := by
  constructor
  · intro h
    unfold installs? at h
    split at h
    next id choice =>
      split at h
      next hj =>
        cases h
        obtain ⟨t, ht, rfl, hjob⟩ := exists_of_job? hj
        exact ⟨t, ht, choice, rfl, hjob⟩
      · cases h
    · cases h
  · intro h
    obtain ⟨t, ht, choice, rfl, hj⟩ := h
    simp only [installs?, hf.job?_eq ht, hj]

/-- A turn leaves the table alone, or it is that of a refresh that installs one. -/
theorem Turn.table {t : Task} {job? : Option Job} {fresh : List Job}
    (h : Turn r i t job? fresh core acts) : core.table = r.table ∨
      ∃ table choice, i = .step t.id choice ∧ t.job = .refresh (.installing table) ∧
        core.table = table := by
  cases h with
  | dial h => cases h <;> exact .inl rfl
  | refresh h =>
    cases h with
    | installEmpty | install => exact .inr ⟨_, _, rfl, rfl, rfl⟩
    | _ => exact .inl rfl
  | send h => cases h <;> exact .inl rfl
  | opening h => cases h <;> exact .inl rfl
  | reload | reloaded | recover | recovered | dialed | refused | rested => exact .inl rfl

theorem turn_table (r : Router) (t : Task) (job? : Option Job) (fresh : List Job) :
    (r.turn t job? fresh).table = r.table := by rw [turn_eq]

theorem Event.table (h : Event r i r' acts) (hf : Forest r) (hi : r.installs? i = none) :
    r'.table = r.table := by
  cases h with
  | turn ht h =>
    rw [turn_table]
    rcases h.table with h | ⟨table, choice, hi', hj, -⟩
    · exact h
    · cases hi.symm.trans ((installs?_eq_some hf).mpr ⟨_, ht, choice, hi', hj⟩)
  | call h =>
    cases h with
    | recovery => rw [forget_eq]; rfl
    | _ => rfl
  | news h =>
    cases h with
    | failed | ended => rw [forget_eq]
    | _ => rfl

/-- A refresh that has a table to install does so with its next step. -/
theorem step_installing (hf : Forest r) {t : Task} {table : SlotTable} (ht : t ∈ r.tasks)
    (hj : t.job = .refresh (.installing table)) (choice : Nat) :
    ∃ job? fresh core acts, Turn r (.step t.id choice) t job? fresh core acts ∧
      r.step (.step t.id choice) = (core.turn t job? fresh, acts) := by
  rcases step_own hf ht choice with ⟨hfree, -⟩ | h
  · have hfree' : r.isFree t = true := by simp only [isFree, hj]
    cases hfree.symm.trans hfree'
  · exact h

theorem step_table (hf : Forest r) (i : Input) :
    (r.step i).1.table = (r.installs? i).getD r.table := by
  cases hi : r.installs? i with
  | none => exact (step_event r i).table hf hi
  | some table =>
    obtain ⟨t, ht, choice, rfl, hj⟩ := (installs?_eq_some hf).mp hi
    obtain ⟨job?, fresh, core, acts, hx, hstep⟩ := step_installing hf ht hj choice
    rw [hstep, turn_table]
    obtain ⟨tid, root, job⟩ := t
    cases hj
    cases hx with
    | refresh hx => cases hx <;> rfl

/-- The table in place is the last one that was installed. -/
theorem Reaches.table_eq (h : Reaches s is r log) :
    r.table = ((installs (after s []) is).getLast?).getD .empty := by
  induction h with
  | start => rfl
  | @step is r log i h _ ih =>
    have hr : ((after s []).run is).1 = r := h.eq_after.symm
    rw [step_table h.forest, installs_concat, hr, List.getLast?_append]
    cases r.installs? i with
    | none => simpa using ih
    | some table => rfl

theorem Reaches.table_run (h : Reaches s is r log) (hl : r.AdmitsAll js) (hn : r.installs js = []) :
    (r.run js).1.table = r.table := by
  induction js generalizing is r log with
  | nil => rfl
  | cons j js ih =>
    obtain ⟨hj, hjs⟩ := List.append_eq_nil_iff.mp hn
    have hinst : r.installs? j = none := by simpa using hj
    have htable := step_table h.forest j
    rw [hinst] at htable
    exact (ih (h.step hl.1) hl.2 hjs).trans htable

/-- Only one refresh at a time is beyond the lock. -/
theorem Lock.unique (hl : Lock r) (hf : Forest r) {t u : Task} (ht : t ∈ r.tasks) (hu : u ∈ r.tasks)
    (h : t.job.loading = true) (h' : u.job.loading = true) : t = u := by
  have hid := (hl.head t ht h).symm.trans (hl.head u hu h')
  exact hf.eq_of_id ht hu (Option.some.inj hid)

/-- Where a refresh stands after a turn: it had no part in it, or the turn was its own, or it is new. -/
theorem Turn.refresh_cases {t u : Task} {job? : Option Job} {fresh : List Job} (hf : Forest r)
    (ht : t ∈ r.tasks) (h : Turn r i t job? fresh core acts)
    (hu : u ∈ (core.turn t job? fresh).tasks) {stage' : RefreshStage} (hj : u.job = .refresh stage') :
    (u ∈ r.tasks ∧ u ≠ t) ∨
    (∃ stage choice, i = .step u.id choice ∧ t.id = u.id ∧ t.job = .refresh stage ∧
      RefreshTurn r u.id choice stage stage' fresh core acts) ∨
    (stage' = .enter ∧ r.next ≤ u.id) := by
  have hg := h.grows
  rcases (hf.mem_turn ht hg).mp hu with ⟨hu, hne, -⟩ | ⟨job, hjob, rfl⟩ | hu
  · exact .inl ⟨hu, hne⟩
  · refine .inr (.inl ?_)
    obtain rfl : job = _ := hj
    have hk := (hg.keeps _ hjob).1
    cases h with
    | refresh h =>
      cases hjob
      exact ⟨_, _, rfl, rfl, rfl, h⟩
    | dial | dialed | refused => cases hk
    | send | opening | reload | reloaded | recover | recovered | rested => cases hk
  · refine .inr (.inr ⟨?_, Nat.le_trans hg.next (id_of_mem_recruits hu).1⟩)
    have hfresh := hg.recruits _ (job_of_mem_recruits hu)
    rw [hj] at hfresh
    cases hfresh
    rfl

/-- Where a refresh stands after a step of the router. No table is installed while another refresh is
beyond the lock. -/
theorem step_refresh (hf : Forest r) (hl : Lock r) (i : Input) {u : Task}
    (hu : u ∈ (r.step i).1.tasks) {stage' : RefreshStage} (hj : u.job = .refresh stage') :
    (u ∈ r.tasks ∧ (stage'.loading = true → r.installs? i = none)) ∨
    (∃ t ∈ r.tasks, ∃ stage choice fresh core, i = .step u.id choice ∧ t.id = u.id ∧
      t.job = .refresh stage ∧ RefreshTurn r u.id choice stage stage' fresh core (r.step i).2 ∧
      (r.step i).1 = core.turn t (some u.job) fresh) ∨
    (stage' = .enter ∧ r.next ≤ u.id) := by
  cases hi : r.installs? i with
  | none =>
    have he := step_event r i
    generalize hr : (r.step i).1 = r' at he hu ⊢
    generalize (r.step i).2 = acts at he ⊢
    cases he with
    | turn ht h =>
      rcases h.refresh_cases hf ht hu hj with ⟨hu, -⟩ | ⟨stage, choice, rfl, hid, hjob, hx⟩ | hnew
      · exact .inl ⟨hu, fun _ => rfl⟩
      · refine .inr (.inl ⟨_, ht, stage, choice, _, _, rfl, hid, hjob, hx, ?_⟩)
        rw [← hf.job_of_mem_turn ht h.grows hu hid.symm]
      · exact .inr (.inr hnew)
    | call h =>
      rcases List.mem_append.mp hu with hu | hu
      · exact .inl ⟨h.spares.tasks ▸ hu, fun _ => rfl⟩
      · obtain rfl := List.mem_singleton.mp hu
        cases (congrArg Job.kind hj).symm.trans h.kind
    | news h => exact .inl ⟨h.spares.tasks ▸ hu, fun _ => rfl⟩
  | some table =>
    obtain ⟨t, ht, choice, rfl, hjob⟩ := (installs?_eq_some hf).mp hi
    obtain ⟨job?, fresh, core, acts, hx, hstep⟩ := step_installing hf ht hjob choice
    rw [hstep] at hu ⊢
    rcases hx.refresh_cases hf ht hu hj with ⟨hu, hne⟩ | ⟨stage, choice', hi', hid, hjob', hx'⟩ | hnew
    · refine .inl ⟨hu, fun hload => ?_⟩
      -- The one that installs is beyond the lock as well, so they are the same.
      refine absurd (hl.unique hf hu ht ?_ ?_) hne
      · rw [hj]
        exact hload
      · rw [hjob]
        rfl
    · refine .inr (.inl ⟨t, ht, stage, choice', fresh, core, hi', hid, hjob', hx', ?_⟩)
      rw [← hf.job_of_mem_turn ht hx.grows hu hid.symm]
    · exact .inr (.inr hnew)

/-- Refresh `id` asked the node at `a` for the slots, with claim `k`. Since then `js` came in, and no
table was installed. -/
def Requested (s : ClusterSettings) (is : List Input) (id : TaskId) (a : String) (k : Claim)
    (js : List Input) : Prop :=
  ∃ before choice c, is = before ++ .step id choice :: js ∧ (c, a) ∈ (after s before).opened ∧
    k = (after s before).next ∧
    ((after s before).step (.step id choice)).2 = [.submit c k slotsFrame] ∧
    (after s before).installs (.step id choice :: js) = []

/-- The table is the answer of one node, and was asked for when all tables were in place that are in
place now. -/
def Answered (s : ClusterSettings) (is : List Input) (id : TaskId) (table : SlotTable) : Prop :=
  ∃ a k js reply, Requested s is id a k js ∧ .reply k (.ok reply) ∈ js ∧
    SlotTable.load (Address.hostOf a) reply = .ok table

def Installed (s : ClusterSettings) (is : List Input) (id : TaskId) : Prop :=
  ∃ before choice js table, is = before ++ .step id choice :: js ∧
    (after s before).installs? (.step id choice) = some table

/-- How a refresh got to its stage. -/
def Past (s : ClusterSettings) (is : List Input) (r : Router) (id : TaskId) : RefreshStage → Prop
  | .asking _ a c => (c, a) ∈ r.opened
  | .awaiting _ a _ k => ∃ js, Requested s is id a k js
  | .comparing table | .filling table _ | .installing table => Answered s is id table
  | .evicting table => (r.table = table ∧ table.addresses ≠ []) ∧ Installed s is id
  | .closing _ | .done (.ok _) => Installed s is id
  | .done (.error e) => e = .noConnection
  | _ => True

section Past

variable {id : TaskId} {a : String} {k : Claim} {table : SlotTable} {choice : Nat}
  {stage stage' : RefreshStage} {fresh : List Job}

theorem Requested.concat (h : Reaches s is r log) (hr : Requested s is id a k js)
    (hi : r.installs? i = none) : Requested s (is ++ [i]) id a k (js ++ [i]) := by
  obtain ⟨before, choice, c, rfl, ho, hk, hstep, hinst⟩ := hr
  refine ⟨before, choice, c, by simp, ho, hk, hstep, ?_⟩
  have hrun := after_append s before (.step id choice :: js)
  rw [← h.eq_after] at hrun
  rw [← List.cons_append, installs_concat, hinst, ← hrun, hi]
  rfl

theorem Answered.concat (h : Reaches s is r log) (ha : Answered s is id table)
    (hi : r.installs? i = none) : Answered s (is ++ [i]) id table := by
  obtain ⟨a, k, js, reply, hr, hm, hload⟩ := ha
  exact ⟨a, k, js ++ [i], reply, hr.concat h hi, List.mem_append_left _ hm, hload⟩

theorem Installed.concat (h : Installed s is id) (i : Input) : Installed s (is ++ [i]) id := by
  obtain ⟨before, choice, js, table, rfl, hi⟩ := h
  exact ⟨before, choice, js ++ [i], table, by simp, hi⟩

/-- A reply to the request came in after it was made. -/
theorem Requested.answered (h : Reaches s is r log) (hr : Requested s is id a k js) {reply : Reply}
    (hm : .reply k (.ok reply) ∈ is) (hload : SlotTable.load (Address.hostOf a) reply = .ok table) :
    Answered s is id table := by
  refine ⟨a, k, js, reply, hr, ?_, hload⟩
  obtain ⟨before, choice, c, rfl, -, rfl, -, -⟩ := hr
  obtain ⟨log', hb, -, -⟩ := h.cut
  rcases List.mem_append.mp hm with hm | hm
  · exact absurd (hb.claim_lt hm) (Nat.lt_irrefl _)
  · rcases List.mem_cons.mp hm with hm | hm
    · cases hm
    · exact hm

/-- What a refresh has behind it does not change by what others do. -/
theorem Past.keep (h : Reaches s is r log) (hi : r.Admits i) (hp : Past s is r id stage)
    (hn : stage.loading = true → r.installs? i = none) : Past s (is ++ [i]) (r.step i).1 id stage := by
  cases stage with
  | asking failed a c =>
    exact (h.custody.handover h.forest hi (step_event r i)).mem_opened hp
  | awaiting failed a c k =>
    obtain ⟨js, hr⟩ := hp
    exact ⟨js ++ [i], hr.concat h (hn rfl)⟩
  | comparing | filling | installing => exact Answered.concat h hp (hn rfl)
  | evicting table =>
    obtain ⟨⟨htable, hne⟩, hinst⟩ := hp
    refine ⟨⟨?_, hne⟩, hinst.concat i⟩
    rw [step_table h.forest, hn rfl]
    exact htable
  | closing => exact Installed.concat hp i
  | done result =>
    cases result with
    | ok => exact Installed.concat hp i
    | error => exact hp
  | _ => trivial

/-- What a refresh has behind it after a turn of its own. -/
theorem Past.turn (h : Reaches s is r log) (hjob : r.job? id = some (.refresh stage))
    (hp : Past s is r id stage) {t : Task}
    (hx : RefreshTurn r id choice stage stage' fresh core (r.step (.step id choice)).2)
    (hr : (r.step (.step id choice)).1 = core.turn t (some (.refresh stage')) fresh) :
    Past s (is ++ [.step id choice]) (r.step (.step id choice)).1 id stage' := by
  -- Its turn puts a table in place at one stage only.
  have idle (hs : ∀ table, stage ≠ .installing table) : r.installs? (.step id choice) = none := by
    simp only [installs?, hjob]
    split
    next hj =>
      cases hj
      exact absurd rfl (hs _)
    · rfl
  have installed {table : SlotTable} (hs : stage = .installing table) :
      Installed s (is ++ [.step id choice]) id := by
    refine ⟨is, choice, [], table, rfl, ?_⟩
    rw [← h.eq_after]
    simp only [installs?, hjob, hs]
  generalize hacts : (r.step (.step id choice)).2 = acts at hx
  cases hx with
  | choose hpick =>
    rw [hr, turn_eq]
    exact h.custody.stored _ (mem_of_pick hpick)
  | @ask failed a c hc =>
    refine ⟨[], is, choice, c, rfl, ?_, ?_, ?_, ?_⟩
    · rw [← h.eq_after]
      exact hp
    · rw [← h.eq_after]
    · rw [← h.eq_after]
      exact hacts
    · rw [← h.eq_after, installs, idle (by nofun)]
      rfl
  | load hm hload =>
    obtain ⟨js, hreq⟩ := hp
    have ha := hreq.answered h (h.mail (mem_of_mail? hm)) hload
    exact ha.concat h (idle (by nofun))
  | compare | fill => exact Answered.concat h hp (idle (by nofun))
  | installEmpty => exact installed rfl
  | install he =>
    refine ⟨⟨?_, he⟩, installed rfl⟩
    rw [hr, turn_table]
  | evict => exact hp.2.concat _
  | finish | close => exact Installed.concat hp _
  | giveUp => exact rfl
  | _ => trivial

end Past

theorem Reaches.past (h : Reaches s is r log) : ∀ t ∈ r.tasks, ∀ stage, t.job = .refresh stage →
    Past s is r t.id stage := by
  induction h with
  | start => nofun
  | @step is r log i h hi ih =>
    intro u hu stage' hj
    rcases step_refresh h.forest h.lock i hu hj with ⟨hu, hn⟩ |
      ⟨t, ht, stage, choice, fresh, core, rfl, hid, hjob, hx, hr⟩ | ⟨rfl, -⟩
    · exact (ih u hu stage' hj).keep h hi hn
    · rw [hj] at hr
      rw [← hid] at hx hr ⊢
      exact (ih t ht stage hjob).turn h (by rw [h.forest.job?_eq ht, hjob]) hx hr
    · trivial

/-- Whatever is installed is the answer of one node, asked for after the last install. -/
theorem Reaches.answered_of_installs (h : Reaches s is r log) {table : SlotTable}
    (hi : r.installs? i = some table) : ∃ id choice, i = .step id choice ∧ Answered s is id table := by
  obtain ⟨t, ht, choice, rfl, hj⟩ := (installs?_eq_some h.forest).mp hi
  exact ⟨t.id, choice, rfl, h.past t ht _ hj⟩

theorem Reaches.table_loaded (h : Reaches s is r log) :
    r.table = .empty ∨ ∃ origin reply, SlotTable.load origin reply = .ok r.table := by
  induction h with
  | start => exact .inl rfl
  | @step is r log i h hi ih =>
    rw [step_table h.forest]
    cases hinst : r.installs? i with
    | none => exact ih
    | some table =>
      obtain ⟨id, choice, -, a, k, js, reply, -, -, hload⟩ := h.answered_of_installs hinst
      exact .inr ⟨_, reply, hload⟩

theorem Reaches.shard_ne_nil (h : Reaches s is r log) {slot : Nat} {shard : Shard}
    (hs : r.table.shard? slot = some shard) : shard ≠ [] := by
  rcases h.table_loaded with he | ⟨origin, reply, hload⟩
  · have hnone : (SlotTable.ofRanges []).shard? slot = none :=
      SlotTable.shard?_ofRanges (List.forall_mem_nil _) slot
    rw [he] at hs
    cases hs.symm.trans hnone
  · exact SlotTable.shard_ne_nil hload hs

/-- A command goes to a member of the shard that the table in place gives its slot, or to any node if
there is no such shard. -/
theorem Reaches.target?_cases (h : Reaches s is r log) (command : Command) (choice : Nat) :
    (∃ slot shard a, command.slot = some slot ∧ r.table.shard? slot.val = some shard ∧
      shard[selectNode r.settings.replicas command.readOnly shard.length choice]? = some a ∧
      r.target? command choice = some a) ∨
    ((∀ slot, command.slot = some slot → r.table.shard? slot.val = none) ∧
      r.target? command choice = none) := by
  unfold target?
  cases hc : command.slot with
  | none => exact .inr ⟨nofun, rfl⟩
  | some slot =>
    cases hs : r.table.shard? slot.val with
    | none =>
      refine .inr ⟨?_, by simp [hs]⟩
      intro slot' h'
      cases h'
      exact hs
    | some shard =>
      have hpos : 0 < shard.length := List.length_pos_iff.mpr (h.shard_ne_nil hs)
      have hlt := selectNode_lt hpos r.settings.replicas command.readOnly choice
      have ha := List.getElem?_eq_getElem hlt
      exact .inl ⟨slot, shard, _, rfl, hs, ha, by simp [hs, ha]⟩

/-- The first turn of a command: it goes to its target, or to any live connection, or nowhere. -/
inductive FirstTurn (r : Router) (id : TaskId) (choice : Nat) (sending : Sending) :
    Option Sending → List Job → List Action → Prop
  | route {a} (ha : r.target? sending.command choice = some a) :
      FirstTurn r id choice sending (some { sending with stage := .reaching none r.next false })
        [.dial a .seek] []
  | anywhere {a c} (hn : r.target? sending.command choice = none)
      (hc : r.pick [] choice = some (a, c)) :
      FirstTurn r id choice sending (some { sending with stage := .submit c }) [] []
  | nowhere (hn : r.target? sending.command choice = none) (hc : r.pick [] choice = none) :
      FirstTurn r id choice sending none [] [.finish id (.sent (.error .noConnection))]

/-- A command that is to be routed takes its first turn. -/
theorem step_route (hf : Forest r) {id root : TaskId} {sending : Sending}
    (ht : ⟨id, root, .send sending⟩ ∈ r.tasks) (hs : sending.stage = .route) (choice : Nat) :
    ∃ s' fresh acts, FirstTurn r id choice sending s' fresh acts ∧
      Grows r ⟨id, root, .send sending⟩ (s'.map .send) fresh r ∧
      r.step (.step id choice) = (r.turn ⟨id, root, .send sending⟩ (s'.map .send) fresh, acts) := by
  have hfree : r.isFree ⟨id, root, .send sending⟩ = true := by simp only [isFree, hs]
  rcases step_own hf ht choice with ⟨hno, -⟩ | ⟨job?, fresh, core, acts, hx, hstep⟩
  · cases hno.symm.trans hfree
  · have hg := hx.grows
    cases hx with
    | send hx =>
      cases hx with
      | route _ ha => exact ⟨_, _, _, .route ha, hg, hstep⟩
      | anywhere _ hn hc => exact ⟨_, _, _, .anywhere hn hc, hg, hstep⟩
      | nowhere _ hn hc => exact ⟨_, _, _, .nowhere hn hc, hg, hstep⟩
      | reach h | miss h | submit h | ask h | follow h | asked h | answer h | moved h | shift h
        | again h | refreshed h => cases hs.symm.trans h
      | mute h => rcases h with h | h | ⟨k, h⟩ <;> cases hs.symm.trans h

/-- A command is sent to a node that the table in place lists for its slot, and to no certain node if
there is none. -/
theorem Reaches.routed (h : Reaches s is r log) {t : Task} (ht : t ∈ r.tasks) {sending : Sending}
    (hj : t.job = .send sending) (hs : sending.stage = .route) (choice : Nat) :
    (∃ slot shard a, sending.command.slot = some slot ∧ r.table.shard? slot.val = some shard ∧
      a ∈ shard ∧ ⟨r.next, t.root, .dial a .seek⟩ ∈ (r.step (.step t.id choice)).1.tasks) ∨
    (∀ slot, sending.command.slot = some slot → r.table.shard? slot.val = none) ∧
      ∀ u ∈ (r.step (.step t.id choice)).1.tasks, u.id < r.next := by
  obtain ⟨id, root, job⟩ := t
  cases hj
  obtain ⟨s', fresh, acts, hx, hg, hstep⟩ := step_route h.forest ht hs choice
  have mem := fun u => h.forest.mem_turn (u := u) ht hg
  rw [hstep]
  have quiet (hf : fresh = []) :
      ∀ u ∈ (r.turn ⟨id, root, .send sending⟩ (s'.map .send) fresh).tasks, u.id < r.next := by
    intro u hu
    rcases (mem u).mp hu with ⟨hu, -, -⟩ | ⟨job, -, rfl⟩ | hu
    · exact h.forest.bound u hu
    · exact h.forest.bound ⟨id, root, .send sending⟩ ht
    · rw [hf] at hu
      cases hu
  have htarget := h.target?_cases sending.command choice
  cases hx with
  | @route a ha =>
    rcases htarget with ⟨slot, shard, a', hslot, hshard, hmem, ha'⟩ | ⟨-, hn⟩
    · cases ha.symm.trans ha'
      refine .inl ⟨slot, shard, a, hslot, hshard, List.mem_of_getElem? hmem, ?_⟩
      exact (mem _).mpr (.inr (.inr (List.mem_singleton_self _)))
    · cases ha.symm.trans hn
  | anywhere hn | nowhere hn =>
    rcases htarget with ⟨slot, shard, a', -, -, -, ha'⟩ | ⟨hnone, -⟩
    · cases ha'.symm.trans hn
    · exact .inr ⟨hnone, quiet rfl⟩

/-- The input leaves the table and the pool alone, closes no connection and starts no task. -/
def Quiet (r : Router) (i : Input) : Prop :=
  (r.step i).1.table = r.table ∧ (r.step i).1.pool = r.pool ∧ (∀ c, .close c ∉ (r.step i).2) ∧
    ∀ u ∈ (r.step i).1.tasks, u.id < r.next

section Quiet

variable {id : TaskId} {choice : Nat} {stage stage' : RefreshStage} {fresh : List Job}

theorem RefreshTurn.loaded (h : RefreshTurn r id choice stage stage' fresh core acts)
    (hs : stage.loaded = true) : stage'.loaded = true := by
  cases h <;> first | rfl | cases hs

/-- A refresh without a table changes nothing but itself. -/
theorem RefreshTurn.quiet (h : RefreshTurn r id choice stage stage' fresh core acts)
    (hs : stage.loaded = false) :
    core.table = r.table ∧ core.pool = r.pool ∧ (∀ c, .close c ∉ acts) ∧ fresh = [] := by
  cases h with
  | enter | lock | choose | giveUp | mute | ask | rebuffed | load => exact ⟨rfl, rfl, by simp, rfl⟩
  | _ => cases hs

/-- A task that was there before an event is of the same kind after it. -/
theorem Event.kind_of_lt (h : Event r i r' acts) (hf : Forest r) {u : Task} (hu : u ∈ r'.tasks)
    (hid : u.id < r.next) : ∃ t ∈ r.tasks, t.id = u.id ∧ t.job.kind = u.job.kind := by
  cases h with
  | turn ht h =>
    have hg := h.grows
    rcases (hf.mem_turn ht hg).mp hu with ⟨hu, -, -⟩ | ⟨job, hj, rfl⟩ | hu
    · exact ⟨u, hu, rfl, rfl⟩
    · exact ⟨_, ht, rfl, (hg.keeps job hj).1.symm⟩
    · exact absurd hid (Nat.not_lt_of_ge (Nat.le_trans hg.next (id_of_mem_recruits hu).1))
  | call h =>
    rcases List.mem_append.mp hu with hu | hu
    · exact ⟨u, h.spares.tasks ▸ hu, rfl, rfl⟩
    · obtain rfl := List.mem_singleton.mp hu
      exact absurd hid (Nat.not_lt_of_ge (Nat.le_of_eq h.spares.next.symm))
  | news h => exact ⟨u, h.spares.tasks ▸ hu, rfl, rfl⟩

/-- A refresh that was there before keeps all that no turn takes from it. -/
theorem Reaches.refresh_run {P : RefreshStage → Prop}
    (hP : ∀ {r id choice stage stage' fresh core acts},
      RefreshTurn r id choice stage stage' fresh core acts → P stage → P stage')
    (h : Reaches s is r log) (hl : r.AdmitsAll js) {u : Task} (hu : u ∈ (r.run js).1.tasks)
    (hid : u.id < r.next) : ∃ t ∈ r.tasks, t.id = u.id ∧ t.job.kind = u.job.kind ∧
      ∀ stage stage', t.job = .refresh stage → u.job = .refresh stage' → P stage → P stage' := by
  have key := h.induct_run (P := fun _ r' _ => r.next ≤ r'.next ∧ ∀ u ∈ r'.tasks, u.id < r.next →
      ∃ t ∈ r.tasks, t.id = u.id ∧ t.job.kind = u.job.kind ∧
        ∀ stage stage', t.job = .refresh stage → u.job = .refresh stage' → P stage → P stage') hl ?start
    fun {js i} _ hm ⟨hle, ih⟩ _ => ?step
  case start =>
    refine ⟨Nat.le_refl _, fun u hu _ => ⟨u, hu, rfl, rfl, ?_⟩⟩
    intro stage stage' hj hj' hp
    cases hj.symm.trans hj'
    exact hp
  case step =>
    have he := step_event (r.run js).1 i
    refine ⟨Nat.le_trans hle he.next_le, ?_⟩
    intro u hu hid
    obtain ⟨v, hv, hvid, hvk⟩ := he.kind_of_lt hm.forest hu (Nat.lt_of_lt_of_le hid hle)
    obtain ⟨t, ht, htid, htk, himp⟩ := ih v hv (hvid ▸ hid)
    refine ⟨t, ht, htid.trans hvid, htk.trans hvk, ?_⟩
    intro stage stage' hj hj' hp
    rcases step_refresh hm.forest hm.lock i hu hj' with ⟨hu, -⟩ |
      ⟨w, hw, stage₁, choice, fresh, core, -, hwid, hwj, hx, -⟩ | ⟨-, hnew⟩
    · cases hm.forest.eq_of_id hv hu hvid
      exact himp stage stage' hj hj' hp
    · cases hm.forest.eq_of_id hv hw (hvid.trans hwid.symm)
      exact hP hx (himp stage stage₁ hj hwj hp)
    · exact absurd hid (Nat.not_lt_of_ge (Nat.le_trans hle hnew))
  exact key.2 u hu hid

theorem quiet_of_refresh (hf : Forest r) {t : Task} (ht : t ∈ r.tasks) (hj : t.job = .refresh stage)
    (hs : stage.loaded = false) (choice : Nat) : Quiet r (.step t.id choice) := by
  obtain ⟨id, root, job⟩ := t
  cases hj
  rcases step_own hf ht choice with ⟨-, hstep⟩ | ⟨job?, fresh, core, acts, hx, hstep⟩
  · unfold Quiet
    rw [hstep]
    exact ⟨rfl, rfl, by simp, hf.bound⟩
  · have hg := hx.grows
    cases hx with
    | refresh hx =>
      obtain ⟨htable, hpool, hclose, rfl⟩ := hx.quiet hs
      unfold Quiet
      rw [hstep]
      refine ⟨?_, ?_, hclose, ?_⟩
      · rw [turn_table, htable]
      · rw [turn_eq]
        exact hpool
      · intro u hu
        rcases (hf.mem_turn ht hg).mp hu with ⟨hu, -, -⟩ | ⟨job, -, rfl⟩ | hu
        · exact hf.bound u hu
        · exact hf.bound ⟨id, root, .refresh stage⟩ ht
        · cases hu

/-- No step of a refresh that failed has changed anything. -/
theorem Reaches.quiet_of_failed (h : Reaches s is r log) {t : Task} (ht : t ∈ r.tasks)
    {e : ClientError} (hj : t.job = .refresh (.done (.error e))) {before : List Input}
    (his : is = before ++ .step t.id choice :: js) : Quiet (after s before) (.step t.id choice) := by
  subst his
  obtain ⟨log', hb, hl, rfl⟩ := h.cut
  by_cases hid : t.id < (after s before).next
  · obtain ⟨t', ht', hid', hk, himp⟩ :=
      hb.refresh_run (P := fun stage => stage.loaded = true) RefreshTurn.loaded hl ht hid
    rw [hj] at hk
    obtain ⟨stage, hj'⟩ := Job.exists_of_kind hk
    have hs : stage.loaded = false := by
      by_contra hs
      cases himp stage _ hj' hj ((Bool.not_eq_false _).mp hs)
    have hq := quiet_of_refresh hb.forest ht' hj' hs choice
    rwa [hid'] at hq
  · -- The task is not there yet.
    have hnone : ((after s before).tasks.find? fun u => u.id == t.id) = none := by
      refine List.find?_eq_none.mpr fun u hu => ?_
      rw [beq_iff_eq]
      intro heq
      exact hid (heq ▸ hb.forest.bound u hu)
    have hstep : (after s before).step (.step t.id choice) = (after s before, []) := by
      simp only [Router.step, hnone]
    unfold Quiet
    rw [hstep]
    exact ⟨rfl, rfl, by simp, hb.forest.bound⟩

end Quiet

/-- Tables are replaced whole, in order, or not at all. The table in place is the last one that was
installed. Each one that is installed is the answer of one node, asked for after the last install. A
command is routed by the table in place alone. A refresh that succeeds has installed a table. One that
fails does so only for want of a node to ask, and none of its steps has changed the table or the pool,
closed a connection or started a dial. -/
theorem tables_replaced_whole (h : Reaches s is r log) :
    r.table = ((installs (after s []) is).getLast?).getD .empty ∧
    (∀ i table, r.installs? i = some table →
      ∃ id choice, i = .step id choice ∧ Answered s is id table) ∧
    (∀ t ∈ r.tasks, ∀ sending, t.job = .send sending → sending.stage = .route → ∀ choice,
      (∃ slot shard a, sending.command.slot = some slot ∧ r.table.shard? slot.val = some shard ∧
        a ∈ shard ∧ ⟨r.next, t.root, .dial a .seek⟩ ∈ (r.step (.step t.id choice)).1.tasks) ∨
      (∀ slot, sending.command.slot = some slot → r.table.shard? slot.val = none) ∧
        ∀ u ∈ (r.step (.step t.id choice)).1.tasks, u.id < r.next) ∧
    (∀ t ∈ r.tasks, t.job = .refresh (.done (.ok ())) → Installed s is t.id) ∧
    ∀ t ∈ r.tasks, ∀ e, t.job = .refresh (.done (.error e)) → e = .noConnection ∧
      ∀ before choice js, is = before ++ .step t.id choice :: js →
        Quiet (after s before) (.step t.id choice) := by
  refine ⟨h.table_eq, fun i table hi => h.answered_of_installs hi, ?_, ?_, ?_⟩
  · intro t ht sending hj hs choice
    exact h.routed ht hj hs choice
  · intro t ht hj
    exact h.past t ht _ hj
  · intro t ht e hj
    exact ⟨h.past t ht _ hj, fun before choice js his => h.quiet_of_failed ht hj his⟩

/-- The only node gives the first ten slots to itself, and its answer is about to be installed. -/
def surveyed : List Input :=
  [.opening, .step 0 0, .step 1 0, .dialed 1 (.ok 0), .step 1 0, .step 1 0, .step 1 0, .step 0 0,
    .step 2 0, .step 2 0, .step 2 0, .step 2 0,
    .reply 3 (.ok (.multi (some [.multi (some [.integer 0, .integer 9,
      .multi (some [.status "a", .integer 1])])]))),
    .step 2 0, .step 2 0, .step 2 0]

theorem tables_replaced_whole_surveyed : ∃ table,
    (after { seeds := ["a:1"] } surveyed).installs? (.step 2 0) = some table ∧
      Answered { seeds := ["a:1"] } surveyed 2 table := by
  have hr : Reaches _ _ (after { seeds := ["a:1"] } surveyed) _ :=
    Reaches.start.run surveyed (by decide +kernel)
  have hi : ((after { seeds := ["a:1"] } surveyed).installs? (.step 2 0)).isSome = true := by
    decide +kernel
  obtain ⟨table, hi⟩ := Option.isSome_iff_exists.mp hi
  obtain ⟨id, choice, he, ha⟩ := (tables_replaced_whole hr).2.1 _ table hi
  cases he
  exact ⟨table, hi, ha⟩

end Router

end RespClient.Cluster
