import RespClient.Proofs.Cluster.Router.Liveness
import RespClient.Proofs.Cluster.Router.Pool

namespace RespClient.Cluster

def RefreshStage.compared : RefreshStage → Bool
  | filling _ _ | installing _ | evicting _ | closing _ | done (.ok _) => true
  | _ => false

namespace Router

variable {s : ClusterSettings} {is js : List Input} {i : Input} {r r' core : Router}
  {log acts : List Action} {e : String × ConnId} {id : TaskId} {table : SlotTable}
  {dials : List (String × TaskId)} {stage stage' : RefreshStage} {fresh : List Job} {choice : Nat}

/-- Refresh `id` returns well with an input. -/
def Returns (r : Router) (id : TaskId) (i : Input) : Prop :=
  r.refreshResult? id = none ∧ (r.step i).1.refreshResult? id = some (.ok ())

instance : Decidable (Returns r id i) := inferInstanceAs (Decidable (_ ∧ _))

/-- What the table lists that a refresh is about to compare with the pool. -/
def listing? (r : Router) (id : TaskId) : Option (List String) :=
  match r.job? id with
  | some (.refresh (.comparing table)) => some table.addresses
  | _ => none

/-- The pool had an entry at some time of a run. -/
def Once (r : Router) (js : List Input) (e : String × ConnId) : Prop :=
  ∃ ks ls, js = ks ++ ls ∧ e ∈ (r.run ks).1.pool

/-- A dial that refresh `id` started to reach `a` has come to an error. -/
def Missed (r : Router) (id : TaskId) (js : List Input) (a : String) : Prop :=
  ∃ ks ls table dials d fault, js = ks ++ ls ∧
    (r.run ks).1.job? id = some (.refresh (.filling table dials)) ∧ (a, d) ∈ dials ∧
    (r.run ks).1.dialResult? d = some (.error fault)

/-- A dial has pooled a connection while refresh `id` was closing what it had taken out. -/
def Intruded (r : Router) (id : TaskId) (js : List Input) (e : String × ConnId) : Prop :=
  ∃ ks d choice ls evicted, js = ks ++ .step d choice :: ls ∧
    (r.run ks).1.job? d = some (.dial e.1 (.join e.2)) ∧
    (r.run ks).1.job? id = some (.refresh (.closing evicted))

theorem exists_of_listing? {addresses : List String} (h : r.listing? id = some addresses) :
    ∃ table, r.job? id = some (.refresh (.comparing table)) ∧ table.addresses = addresses := by
  unfold listing? at h
  split at h
  next table hj => exact ⟨table, hj, Option.some.inj h⟩
  · cases h

theorem exists_of_refreshResult? {result : Except ClientError Unit}
    (h : r.refreshResult? id = some result) :
    ∃ t ∈ r.tasks, t.id = id ∧ t.job = .refresh (.done result) := by
  unfold refreshResult? at h
  split at h
  next hj =>
    cases h
    exact exists_of_job? hj
  · cases h

section Past

theorem Once.now (h : e ∈ (r.run js).1.pool) : Once r js e := ⟨js, [], by simp, h⟩

theorem Once.concat (h : Once r js e) (i : Input) : Once r (js ++ [i]) e := by
  obtain ⟨ks, ls, rfl, he⟩ := h
  exact ⟨ks, ls ++ [i], by simp, he⟩

theorem Once.cases_concat (h : Once r (js ++ [i]) e) :
    Once r js e ∨ e ∈ ((r.run js).1.step i).1.pool := by
  obtain ⟨ks, ls, hk, he⟩ := h
  rcases List.eq_nil_or_concat ls with rfl | ⟨ls, j, rfl⟩
  · rw [List.append_nil] at hk
    rw [← hk, run_concat] at he
    exact .inr he
  · rw [List.concat_eq_append, ← List.append_assoc] at hk
    exact .inl ⟨ks, ls, (List.append_inj' hk rfl).1, he⟩

theorem Missed.concat {a : String} (h : Missed r id js a) (i : Input) : Missed r id (js ++ [i]) a := by
  obtain ⟨ks, ls, table, dials, d, fault, rfl, h⟩ := h
  exact ⟨ks, ls ++ [i], table, dials, d, fault, by simp, h⟩

theorem Intruded.concat (h : Intruded r id js e) (i : Input) : Intruded r id (js ++ [i]) e := by
  obtain ⟨ks, d, choice, ls, evicted, rfl, h⟩ := h
  exact ⟨ks, d, choice, ls ++ [i], evicted, by simp, h⟩

end Past

/-- Each listed node was pooled at some time, or was not to be reached. -/
def Met (r : Router) (id : TaskId) (table : SlotTable) (js : List Input) : Prop :=
  ∀ a ∈ table.addresses, (∃ c, Once r js (a, c)) ∨ Missed r id js a

/-- Each listed node was pooled at some time, or is dialed; and what a dial has reached was pooled. -/
structure Sought (r : Router) (table : SlotTable) (js : List Input) (r' : Router)
    (dials : List (String × TaskId)) : Prop where
  covered : ∀ a ∈ table.addresses, (∃ c, Once r js (a, c)) ∨ ∃ d, (a, d) ∈ dials
  dialed : ∀ p ∈ dials, Dials r' p.2 p.1
  reached : ∀ p ∈ dials, ∀ u ∈ r'.tasks, u.id = p.2 → ∀ e, u.job.reached? = some e → Once r js e

/-- Where refresh `id` stands at `r'`. It has had `table` since `r`, and `js` came in since then. -/
def Course (r : Router) (id : TaskId) (table : SlotTable) (js : List Input) (r' : Router) :
    RefreshStage → Prop
  | .comparing t => t = table
  | .filling t dials => t = table ∧ Sought r table js r' dials
  | .installing t => t = table ∧ Met r id table js
  | .evicting t => t = table ∧ r'.table = table ∧ table.addresses ≠ [] ∧ Met r id table js
  | .closing _ => r'.table = table ∧ table.addresses ≠ [] ∧ Met r id table js ∧
      ∀ e ∈ r'.pool, e.1 ∈ table.addresses ∨ Intruded r id js e
  | .done _ => True
  | _ => False

theorem Met.concat (h : Met r id table js) (i : Input) : Met r id table (js ++ [i]) := by
  intro a ha
  rcases h a ha with ⟨c, hc⟩ | hm
  · exact .inl ⟨c, hc.concat i⟩
  · exact .inr (hm.concat i)

/-- A dial's connection was pooled when the dial came to it. -/
theorem Sought.keep (hs : Sought r table js (r.run js).1 dials) (hf : Forest (r.run js).1)
    (hx : Handover (r.run js).1 ((r.run js).1.step i).1 acts)
    (hd : ∀ p ∈ dials, ∃ u ∈ ((r.run js).1.step i).1.tasks, u.id = p.2) :
    Sought r table (js ++ [i]) ((r.run js).1.step i).1 dials where
  covered a ha := (hs.covered a ha).imp_left fun ⟨c, hc⟩ => ⟨c, hc.concat i⟩
  dialed p hp := (hs.dialed p hp).event hf (step_event _ _) (hd p hp)
  reached p hp u hu hid e he := by
    rcases hx.reached u hu e he with ⟨t, ht, htid, he⟩ | hl
    · exact (hs.reached p hp t ht (htid.trans hid) e he).concat i
    · refine Once.now ?_
      rw [run_concat]
      exact mem_of_live? hl

/-- What others do leaves a refresh where it stands. What they pool is listed, or has intruded. -/
theorem Course.keep (hc : Course r id table js (r.run js).1 stage)
    (h : Reaches s is (r.run js).1 log) (hi : (r.run js).1.Admits i) {u : Task}
    (hu : u ∈ (r.run js).1.tasks) (hid : u.id = id) (hj : u.job = .refresh stage)
    (hu' : u ∈ ((r.run js).1.step i).1.tasks)
    (hn : stage.loading = true → (r.run js).1.installs? i = none) :
    Course r id table (js ++ [i]) ((r.run js).1.step i).1 stage := by
  have htable (hl : stage.loading = true) : ((r.run js).1.step i).1.table = (r.run js).1.table := by
    rw [step_table h.forest, hn hl]
    rfl
  cases stage with
  | comparing => exact hc
  | filling t dials =>
    refine ⟨hc.1, hc.2.keep h.forest (h.custody.handover h.forest hi (step_event _ _)) ?_⟩
    intro p hp
    have hmem : p.2 ∈ u.job.helpers := by
      rw [hj]
      exact List.mem_map_of_mem hp
    obtain ⟨v, hv, hvid, -⟩ := (h.step hi).forest.helped u hu' p.2 hmem
    exact ⟨v, hv, hvid⟩
  | installing => exact ⟨hc.1, hc.2.concat i⟩
  | evicting t =>
    obtain ⟨ht, hr, hne, hm⟩ := hc
    exact ⟨ht, (htable rfl).trans hr, hne, hm.concat i⟩
  | closing evicted =>
    obtain ⟨hr, hne, hm, hp⟩ := hc
    refine ⟨(htable rfl).trans hr, hne, hm.concat i, fun e he => ?_⟩
    rcases (step_event _ i).joins h.forest h.custody.keys he with he | ⟨t, ht, ⟨k, rfl⟩, htj, -⟩
    · exact (hp e he).imp_right fun hx => hx.concat i
    · refine .inr ⟨js, t.id, k, [], evicted, rfl, ?_, ?_⟩
      · rw [h.forest.job?_eq ht, htj]
      · rw [← hid, h.forest.job?_eq hu, hj]
  | done => trivial
  | enter | waiting | choosing | asking | awaiting => exact hc

/-- The dials that a refresh starts are new tasks, one for each node that the pool does not reach. -/
theorem mem_recruits_dials {root n : TaskId} {addresses : List String} {p : String × TaskId}
    (hp : p ∈ addresses.zip (List.range' n addresses.length)) :
    ⟨p.2, root, .dial p.1 .seek⟩ ∈ recruits root (addresses.map fun a => .dial a .seek) n := by
  have hz : p ∈ addresses.zipIdx n := by rwa [List.zipIdx_eq_zip_range']
  refine List.mem_map.mpr ⟨(.dial p.1 .seek, p.2), ?_, rfl⟩
  rw [List.zipIdx_map]
  exact List.mem_map.mpr ⟨p, hz, rfl⟩

/-- A refresh compares its table with the pool: it dials what the pool does not reach. -/
theorem Sought.compare {root : TaskId} (hf : Forest (r.run js).1)
    (hf' : Forest ((r.run js).1.step i).1) (ht : ⟨id, root, .refresh (.comparing table)⟩ ∈ (r.run js).1.tasks)
    (hx : RefreshTurn (r.run js).1 id choice (.comparing table) (.filling table dials) fresh core acts)
    (hr : ((r.run js).1.step i).1 =
      core.turn ⟨id, root, .refresh (.comparing table)⟩ (some (.refresh (.filling table dials))) fresh) :
    Sought r table (js ++ [i]) ((r.run js).1.step i).1 dials := by
  have hg : Grows _ ⟨id, root, .refresh (.comparing table)⟩ _ _ _ := hx.grows
  cases hx
  have started {p : String × TaskId} (hp : p ∈ ((r.run js).1.missing table).zip
      (List.range' (r.run js).1.next ((r.run js).1.missing table).length)) :
      ⟨p.2, root, .dial p.1 .seek⟩ ∈ ((r.run js).1.step i).1.tasks := by
    rw [hr]
    exact (hf.mem_turn ht hg).mpr (.inr (.inr (mem_recruits_dials hp)))
  refine ⟨fun a ha => ?_, fun p hp => ⟨_, started hp, rfl, .seek, rfl⟩, fun p hp u hu hid e he => ?_⟩
  · cases hl : (r.run js).1.live? a with
    | some c => exact .inl ⟨c, (Once.now (mem_of_live? hl)).concat i⟩
    | none =>
      have hmem : a ∈ (r.run js).1.missing table := List.mem_filter.mpr ⟨ha, by rw [hl]; rfl⟩
      obtain ⟨n, hn, rfl⟩ := List.getElem_of_mem hmem
      exact .inr ⟨_, List.mem_iff_getElem.mpr ⟨n, by simpa using hn, by rw [List.getElem_zip]⟩⟩
  · rw [hf'.eq_of_id hu (started hp) hid] at he
    cases he

/-- When all its dials are over, each of them has pooled a connection or come to an error. -/
theorem Sought.met (hs : Sought r table js (r.run js).1 dials) (hf : Forest (r.run js).1)
    (hj : (r.run js).1.job? id = some (.refresh (.filling table dials)))
    (hd : ∀ d ∈ dials, ((r.run js).1.dialResult? d.2).isSome) : Met r id table js := by
  intro a ha
  rcases hs.covered a ha with hc | ⟨d, hmem⟩
  · exact .inl hc
  · obtain ⟨result, hres⟩ := Option.isSome_iff_exists.mp (hd _ hmem)
    obtain ⟨u, hu, huj, hjob⟩ := (hs.dialed _ hmem).exists_done hf hres
    cases result with
    | ok c =>
      obtain ⟨v, hv, hvid, hvj⟩ := exists_of_job? hjob
      refine .inl ⟨c, hs.reached _ hmem v hv hvid (a, c) ?_⟩
      rw [hvj, huj]
      rfl
    | error fault => exact .inr ⟨js, [], table, dials, d, fault, by simp, hj, hmem, hres⟩

theorem Course.turn {root : TaskId} (hc : Course r id table js (r.run js).1 stage)
    (h : Reaches s is (r.run js).1 log) (hi : (r.run js).1.Admits i)
    (ht : ⟨id, root, .refresh stage⟩ ∈ (r.run js).1.tasks)
    (hx : RefreshTurn (r.run js).1 id choice stage stage' fresh core acts)
    (hr : ((r.run js).1.step i).1 = core.turn ⟨id, root, .refresh stage⟩ (some (.refresh stage')) fresh) :
    Course r id table (js ++ [i]) ((r.run js).1.step i).1 stage' := by
  have hjob : (r.run js).1.job? id = some (.refresh stage) := h.forest.job?_eq ht
  have hturn := hx
  cases hx with
  | @compare t' =>
    obtain rfl : t' = table := hc
    exact ⟨rfl, .compare h.forest (h.step hi).forest ht hturn hr⟩
  | fill hd =>
    obtain ⟨rfl, hs⟩ := hc
    exact ⟨rfl, (hs.met h.forest hjob hd).concat i⟩
  | install hne =>
    obtain ⟨rfl, hm⟩ := hc
    refine ⟨rfl, ?_, hne, hm.concat i⟩
    rw [hr, turn_table]
  | evict =>
    obtain ⟨rfl, htable, hne, hm⟩ := hc
    refine ⟨?_, hne, hm.concat i, fun e he => .inl ?_⟩
    · rw [hr, turn_table]
      exact htable
    · rw [hr, turn_eq] at he
      simpa using (List.mem_filter.mp he).2
  | close =>
    obtain ⟨htable, hne, hm, hp⟩ := hc
    refine ⟨?_, hne, hm.concat i, fun e he => ?_⟩
    · rw [hr, turn_table]
      exact htable
    · rw [hr, turn_eq] at he
      exact (hp e he).imp_right fun hx => hx.concat i
  | installEmpty | finish => trivial
  | enter | lock | choose | giveUp | mute | ask | rebuffed | load => exact hc.elim

/-- While a refresh has the lock, what is pooled stays, but for what has ended and what the refresh takes
out itself. -/
theorem Reaches.stays (h : Reaches s is r log) (hi : r.Admits i) {t : Task} (ht : t ∈ r.tasks)
    (hl : t.job.loading = true) (he : e ∈ r.pool) : e ∈ (r.step i).1.pool ∨ e.2 ∈ r.down ∨
      (∃ choice, i = .step t.id choice) ∧ t.job = .refresh (.evicting r.table) ∧
        e.1 ∉ r.table.addresses := by
  by_cases hp : e ∈ (r.step i).1.pool
  · exact .inl hp
  by_cases hd : e.2 ∈ r.down
  · exact .inr (.inl hd)
  obtain ⟨u, hu, choice, hi', huj, -, hn, -⟩ := h.leaves hi he hd hp
  obtain rfl := h.lock.unique h.forest ht hu hl (by rw [huj]; rfl)
  exact .inr (.inr ⟨⟨choice, hi'⟩, huj, hn⟩)

section Run

variable (h : Reaches s is r log) (hj : r.job? id = some (.refresh (.comparing table)))
  (hl : r.AdmitsAll js)

include h hj hl

theorem Reaches.on_course : ∀ u ∈ (r.run js).1.tasks, u.id = id → ∀ stage, u.job = .refresh stage →
    Course r id table js (r.run js).1 stage := by
  obtain ⟨t, ht, htid, htj⟩ := exists_of_job? hj
  have key := h.induct_run (P := fun js r' _ => id < r'.next ∧ ∀ u ∈ r'.tasks, u.id = id →
      ∀ stage, u.job = .refresh stage → Course r id table js r' stage) hl ?start ?step
  case start =>
    refine ⟨htid ▸ h.forest.bound t ht, fun u hu hid stage huj => ?_⟩
    rw [h.forest.eq_of_id hu ht (hid.trans htid.symm), htj] at huj
    cases huj
    exact rfl
  case step =>
    intro js i _ hm ⟨hb, ih⟩ hi
    refine ⟨Nat.lt_of_lt_of_le hb (step_event _ i).next_le, fun u hu hid stage' huj => ?_⟩
    rcases step_refresh hm.forest hm.lock i hu huj with ⟨hu', hn⟩ |
      ⟨⟨vid, root, job⟩, hv, stage, choice, fresh, core, -, hvid, hvj, hx, hr⟩ | ⟨-, hnew⟩
    · exact (ih u hu' hid stage' huj).keep hm hi hu' hid huj hu hn
    · obtain rfl : vid = id := hvid.trans hid
      cases hvj
      rw [huj] at hr
      rw [hid] at hx
      exact (ih _ hv rfl stage rfl).turn hm hi hv hx hr
    · exact absurd (hid ▸ hb) (Nat.not_lt_of_ge hnew)
  exact key.2

/-- As long as the refresh has the lock, a connection to a listed node stays in the pool until it ends, and
so does every connection if nothing is listed. -/
theorem Reaches.listed_stays (hc : (r.run js).1.job? id = some (.refresh stage))
    (hs : stage.loading = true) (he : table.addresses ≠ [] → e.1 ∈ table.addresses)
    (ho : Once r js e) :
    e ∈ (r.run js).1.pool ∨ e.2 ∈ (r.run js).1.down := by
  have key := h.induct_run (P := fun js r' _ => ∀ stage, r'.job? id = some (.refresh stage) →
      stage.loading = true → Once r js e → e ∈ r'.pool ∨ e.2 ∈ r'.down) hl ?start ?step
  case start =>
    rintro stage - - ⟨ks, ls, hk, he⟩
    rw [(List.append_eq_nil_iff.mp hk.symm).1] at he
    exact .inl he
  case step =>
    intro js i hjs hm ih hi stage' hc hs ho
    obtain ⟨u, hu, rfl, huj⟩ := exists_of_job? hc
    -- The refresh had the lock before this step.
    obtain ⟨t, ht, htid, stage, htj, hts⟩ : ∃ t ∈ (r.run js).1.tasks, t.id = u.id ∧
        ∃ stage, t.job = .refresh stage ∧ stage.loading = true := by
      rcases step_refresh hm.forest hm.lock i hu huj with ⟨hu', -⟩ |
        ⟨t, ht, stage, choice, fresh, core, -, htid, htj, hx, -⟩ | ⟨rfl, -⟩
      · exact ⟨u, hu', rfl, stage', huj, hs⟩
      · have hcourse := h.on_course hj hjs t ht htid stage htj
        refine ⟨t, ht, htid, stage, htj, ?_⟩
        generalize ((r.run js).1.step i).2 = acts at hx
        cases hx with
        | enter | lock => exact hcourse.elim
        | _ => rfl
      · cases hs
    have hstep := hm.stays hi ht (by rw [htj]; exact hts) (e := e)
    rcases ho.cases_concat with ho | hnow
    · have hjob : (r.run js).1.job? u.id = some (.refresh stage) := by
        rw [← htid, hm.forest.job?_eq ht, htj]
      rcases ih stage hjob hts ho with hp | hd
      · rcases hstep hp with hp | hd | ⟨-, hev, hn⟩
        · exact .inl hp
        · exact .inr ((hm.custody.handover hm.forest hi (step_event _ i)).down _ hd)
        · -- It takes out what its own table does not list.
          have hcourse := h.on_course hj hjs t ht htid _ hev
          rw [hcourse.2.1] at hn
          exact absurd (he hcourse.2.2.1) hn
      · exact .inr ((hm.custody.handover hm.forest hi (step_event _ i)).down _ hd)
    · exact .inl hnow
  exact key stage hc hs ho

theorem Reaches.is_refresh {u : Task} (hu : u ∈ (r.run js).1.tasks) (hid : u.id = id) :
    ∃ stage, u.job = .refresh stage := by
  obtain ⟨t, ht, rfl, htj⟩ := exists_of_job? hj
  obtain ⟨v, hv, hvid, hk, -⟩ := h.refresh_run (P := fun _ => True) (fun _ _ => trivial) hl hu
    (hid ▸ h.forest.bound t ht)
  cases h.forest.eq_of_id hv ht (hvid.trans hid)
  rw [htj] at hk
  exact Job.exists_of_kind hk.symm

/-- A refresh returns with nothing left to install, or with nothing left to close. -/
theorem Reaches.returned (hret : Returns (r.run js).1 id i) :
    ((r.run js).1.step i).1.pool = (r.run js).1.pool ∧
    ((r.run js).1.step i).1.down = (r.run js).1.down ∧
    ((r.run js).1.step i).1.table = table ∧
    ((r.run js).1.job? id = some (.refresh (.installing table)) ∧ table.addresses = [] ∨
      (r.run js).1.job? id = some (.refresh (.closing [])) ∧ table.addresses ≠ []) := by
  obtain ⟨hnone, hdone⟩ := hret
  have hm := h.run js hl
  obtain ⟨u, hu, hid, huj⟩ := exists_of_refreshResult? hdone
  rcases step_refresh hm.forest hm.lock i hu huj with ⟨hu', -⟩ |
    ⟨⟨vid, root, job⟩, hv, stage, choice, fresh, core, -, hvid, hvj, hx, hr⟩ | ⟨hs, -⟩
  · rw [← hid, hm.forest.refreshResult?_eq hu' huj] at hnone
    cases hnone
  · obtain rfl : vid = id := hvid.trans hid
    cases hvj
    have hcourse := h.on_course hj hl _ hv rfl stage rfl
    have hjob : (r.run js).1.job? vid = some (.refresh stage) := hm.forest.job?_eq hv
    rw [hr]
    generalize ((r.run js).1.step i).2 = acts at hx
    cases hx with
    | installEmpty he =>
      obtain ⟨rfl, -⟩ := hcourse
      exact ⟨by rw [turn_eq]; rfl, by rw [turn_eq]; rfl, turn_table _ _ _ _, .inl ⟨hjob, he⟩⟩
    | finish =>
      refine ⟨by rw [turn_eq]; rfl, by rw [turn_eq]; rfl, ?_, .inr ⟨hjob, hcourse.2.1⟩⟩
      rw [turn_table]
      exact hcourse.1
  · cases hs

end Run

theorem RefreshTurn.takes_out (h : RefreshTurn r id choice stage stage' fresh core acts)
    (he : e ∈ r.pool) (hn : e ∉ core.pool) : ∃ table cs, stage = .evicting table ∧
      e.1 ∉ table.addresses ∧ stage' = .closing cs ∧ e.2 ∈ cs := by
  cases h with
  | @evict table =>
    have hl : e.1 ∉ table.addresses := fun hl => hn (List.mem_filter.mpr ⟨he, by simpa using hl⟩)
    refine ⟨table, _, rfl, hl, rfl, List.mem_map_of_mem (List.mem_filter.mpr ⟨he, by simpa using hl⟩)⟩
  | _ => exact absurd he hn

theorem step_absent (hn : ∀ u ∈ r.tasks, u.id ≠ id) (choice : Nat) :
    r.step (.step id choice) = (r, []) := by
  have hnone : (r.tasks.find? fun u => u.id == id) = none := by simpa using hn
  simp only [step, hnone]

/-- What a refresh takes out of the pool itself is not listed, and is asked to close before it returns. -/
theorem Reaches.taken_out (h : Reaches s is r log) (hj : r.job? id = some (.refresh (.comparing table)))
    {ks ls : List Input} (hl : r.AdmitsAll (ks ++ .step id choice :: ls))
    (hret : (r.run (ks ++ .step id choice :: ls)).1.refreshResult? id = some (.ok ()))
    (he : e ∈ (r.run ks).1.pool) (hn : e ∉ ((r.run ks).1.step (.step id choice)).1.pool) :
    e.1 ∉ table.addresses ∧ .close e.2 ∈ log ++ (r.run (ks ++ .step id choice :: ls)).2 := by
  obtain ⟨hk, hi, hls⟩ := admitsAll_append.mp hl
  have hm := h.run ks hk
  by_cases hex : ∃ u ∈ (r.run ks).1.tasks, u.id = id
  · obtain ⟨⟨uid, root, job⟩, hu, rfl⟩ := hex
    obtain ⟨stage, rfl⟩ := h.is_refresh hj hk hu rfl
    have hcourse := h.on_course hj hk _ hu rfl stage rfl
    rcases step_own hm.forest hu choice with ⟨-, hstep⟩ | ⟨job?, fresh, core, acts, hx, hstep⟩
    · rw [hstep] at hn
      exact absurd he hn
    · have hg := hx.grows
      cases hx with
      | refresh hx =>
        rw [hstep, turn_eq] at hn
        obtain ⟨t, cs, rfl, hnl, rfl, hc⟩ := hx.takes_out he hn
        obtain rfl : t = table := hcourse.1
        refine ⟨hnl, ?_⟩
        -- From here on it closes what it took out, one connection after the other.
        have hself : ⟨uid, root, .refresh (.closing cs)⟩ ∈ ((r.run ks).1.step (.step uid choice)).1.tasks := by
          rw [hstep]
          exact (hm.forest.mem_turn hu hg).mpr (.inr (.inl ⟨_, rfl, rfl⟩))
        rcases (hm.step hi).evicted_closed hls hself hc with hclose | ⟨v, hv, hvid, hvc⟩
        · rw [run_append]
          simpa [Router.run, List.append_assoc] using hclose
        · have hv' : v ∈ (r.run (ks ++ .step uid choice :: ls)).1.tasks := by
            rw [run_append]
            exact hv
          obtain ⟨w, hw, hwid, hwj⟩ := exists_of_refreshResult? hret
          rw [(h.run _ hl).forest.eq_of_id hw hv' (hwid.trans hvid.symm)] at hwj
          rw [hwj] at hvc
          cases hvc
  · rw [step_absent (fun u hu hid => hex ⟨u, hu, hid⟩)] at hn
    exact absurd he hn

/-- A dial puts its connection in the place of one that has ended. -/
theorem Reaches.replaced (h : Reaches s is r log) {d : TaskId} (hi : r.Admits (.step d choice))
    (hj : r.job? id = some (.refresh (.filling table dials))) (hd : d ∈ dials.map (·.2))
    (he : e ∈ r.pool) (hn : e ∉ (r.step (.step d choice)).1.pool) : e.2 ∈ r.down := by
  by_contra hdown
  obtain ⟨u, hu, k, hi', huj, -⟩ := h.leaves hi he hdown hn
  obtain ⟨t, ht, -, htj⟩ := exists_of_job? hj
  obtain ⟨v, hv, hvid, hk⟩ := h.forest.helped t ht d (by rw [htj]; exact hd)
  cases hi'
  rw [h.forest.eq_of_id hv hu hvid, huj, htj] at hk
  cases hk

/-- The input leaves the pool alone, closes no connection and starts no task. -/
def Harmless (r : Router) (i : Input) : Prop :=
  (r.step i).1.pool = r.pool ∧ (∀ c, .close c ∉ (r.step i).2) ∧ ∀ u ∈ (r.step i).1.tasks, u.id < r.next

theorem Quiet.harmless (h : Quiet r i) : Harmless r i := h.2

theorem Harmless.of_idle (hf : Forest r) (h : r.step i = (r, [])) : Harmless r i := by
  unfold Harmless
  rw [h]
  exact ⟨rfl, by simp, hf.bound⟩

/-- A refresh that has not got a table yet does no harm. -/
theorem harmless_of_refresh (hf : Forest r)
    (hs : ∀ u ∈ r.tasks, u.id = id → ∃ stage, u.job = .refresh stage ∧ stage.loaded = false)
    (choice : Nat) : Harmless r (.step id choice) := by
  by_cases hex : ∃ u ∈ r.tasks, u.id = id
  · obtain ⟨u, hu, rfl⟩ := hex
    obtain ⟨stage, huj, hstage⟩ := hs u hu rfl
    exact (quiet_of_refresh hf hu huj hstage choice).harmless
  · exact .of_idle hf (step_absent (fun u hu hid => hex ⟨u, hu, hid⟩) choice)

/-- With nothing listed there is nothing to dial and nothing to take out. -/
theorem RefreshTurn.harmless (h : RefreshTurn r id choice stage stage' fresh core acts)
    (hc : Course r₀ id table js r stage) (he : table.addresses = []) :
    core.pool = r.pool ∧ (∀ c, .close c ∉ acts) ∧ fresh = [] := by
  cases h with
  | @compare t =>
    obtain rfl : t = table := hc
    exact ⟨rfl, by simp, by simp [missing, he]⟩
  | fill =>
    refine ⟨rfl, fun c hc => ?_, rfl⟩
    obtain ⟨text, hx⟩ := dialWarnings_warn r _ _ hc
    cases hx
  | installEmpty => exact ⟨rfl, by simp, rfl⟩
  | @install t hne =>
    obtain rfl : t = table := hc.1
    exact absurd he hne
  | evict => exact absurd he hc.2.2.1
  | finish | close => exact absurd he hc.2.1
  | enter | lock | choose | giveUp | mute | ask | rebuffed | load => exact hc.elim

theorem Reaches.harmless_since (h : Reaches s is r log)
    (hj : r.job? id = some (.refresh (.comparing table))) (hl : r.AdmitsAll js)
    (he : table.addresses = []) (choice : Nat) : Harmless (r.run js).1 (.step id choice) := by
  have hf := (h.run js hl).forest
  by_cases hex : ∃ u ∈ (r.run js).1.tasks, u.id = id
  · obtain ⟨⟨uid, root, job⟩, hu, rfl⟩ := hex
    obtain ⟨stage, rfl⟩ := h.is_refresh hj hl hu rfl
    have hcourse := h.on_course hj hl _ hu rfl stage rfl
    rcases step_own hf hu choice with ⟨-, hstep⟩ | ⟨job?, fresh, core, acts, hx, hstep⟩
    · exact .of_idle hf hstep
    · have hg := hx.grows
      cases hx with
      | refresh hx =>
        obtain ⟨hp, hclose, rfl⟩ := hx.harmless hcourse he
        unfold Harmless
        rw [hstep]
        refine ⟨by rw [turn_eq]; exact hp, hclose, fun u hu' => ?_⟩
        rcases (hf.mem_turn hu hg).mp hu' with ⟨hu', -, -⟩ | ⟨job, -, rfl⟩ | hu'
        · exact hf.bound u hu'
        · exact hf.bound ⟨uid, root, .refresh stage⟩ hu
        · cases hu'
  · exact .of_idle hf (step_absent (fun u hu hid => hex ⟨u, hu, hid⟩) choice)

theorem RefreshTurn.compared (h : RefreshTurn r id choice stage stage' fresh core acts)
    (hs : stage.compared = true) : stage'.compared = true := by
  cases h <;> first | rfl | cases hs

/-- Once a refresh has compared its table, it does not do so again. -/
theorem Reaches.not_compared (h : Reaches s is r log) (hl : r.AdmitsAll js)
    (hj : (r.run js).1.job? id = some (.refresh (.comparing table))) {t : Task} (ht : t ∈ r.tasks)
    (hid : t.id = id) : ∃ stage, t.job = .refresh stage ∧ stage.compared = false := by
  obtain ⟨u, hu, huid, huj⟩ := exists_of_job? hj
  obtain ⟨v, hv, hvid, hk, himp⟩ := h.refresh_run (P := fun stage => stage.compared = true)
    RefreshTurn.compared hl hu (huid.trans hid.symm ▸ h.forest.bound t ht)
  cases h.forest.eq_of_id hv ht (hvid.trans (huid.trans hid.symm))
  rw [huj] at hk
  obtain ⟨stage, htj⟩ := Job.exists_of_kind hk
  refine ⟨stage, htj, ?_⟩
  by_contra hs
  cases himp stage _ htj huj ((Bool.not_eq_false _).mp hs)

/-- A refresh that has just got its table had none before. -/
theorem Reaches.harmless_before (h : Reaches s is r log)
    (hj : r.job? id = some (.refresh (.comparing table))) {before rest : List Input}
    (his : is = before ++ .step id choice :: rest) : Harmless (after s before) (.step id choice) := by
  subst his
  obtain ⟨log', hb, hl, rfl⟩ := h.cut
  refine harmless_of_refresh hb.forest (fun ⟨tid, root, job⟩ ht htid => ?_) choice
  obtain rfl : tid = id := htid
  obtain ⟨stage, rfl, hs⟩ := hb.not_compared hl hj ht rfl
  refine ⟨stage, rfl, ?_⟩
  cases stage with
  | comparing t' =>
    -- Its next step compares it.
    exfalso
    rcases step_own hb.forest ht choice with ⟨hno, -⟩ | ⟨job?, fresh, core, acts, hx, hstep⟩
    · cases hno
    · have hg := hx.grows
      cases hx with
      | refresh hx =>
        obtain ⟨hi, hrest⟩ := hl
        obtain ⟨stage', hj', hs'⟩ := (hb.step hi).not_compared hrest hj
          (t := ⟨tid, root, .refresh _⟩) (by
            rw [hstep]
            exact (hb.forest.mem_turn ht hg).mpr (.inr (.inl ⟨_, rfl, rfl⟩))) rfl
        cases hj'
        cases hx
        cases hs'
  | done result => cases result <;> first | rfl | cases hs
  | filling | installing | evicting | closing => cases hs
  | enter | waiting | choosing | asking | awaiting => rfl

/-- A refresh that returns well has brought the pool in line with its table. Let it have the table at `r`,
and return with input `i`. If nodes are listed, then what is pooled is listed, or was pooled by another
dial while the refresh was closing what it had taken out. A connection to a listed node that was in the
pool at `r` and lives is still there. Each listed node has a connection in the pool, or had one that
ended, or was dialed by the refresh in vain. What the refresh took out is not listed and was asked to
close; its dials took out only what had ended. If nothing is listed, no step of the refresh has changed
the pool, closed a connection or started a dial. -/
theorem refresh_aligns_pool (h : Reaches s is r log)
    (hj : r.job? id = some (.refresh (.comparing table))) (hl : r.AdmitsAll (js ++ [i]))
    (hret : Returns (r.run js).1 id i) :
    let r' := (r.run (js ++ [i])).1
    let acts := (r.run (js ++ [i])).2
    r'.table = table ∧
    (table.addresses ≠ [] →
      (∀ e ∈ r'.pool, e.1 ∈ table.addresses ∨ Intruded r id js e) ∧
      (∀ e ∈ r.pool, e.1 ∈ table.addresses → e.2 ∉ r'.down → e ∈ r'.pool) ∧
      (∀ a ∈ table.addresses, (∃ c, (a, c) ∈ r'.pool) ∨ (∃ c ∈ r'.down, Once r js (a, c)) ∨
        Missed r id js a) ∧
      (∀ ks choice ls, js ++ [i] = ks ++ .step id choice :: ls → ∀ e ∈ (r.run ks).1.pool,
        e ∉ ((r.run ks).1.step (.step id choice)).1.pool →
        e.1 ∉ table.addresses ∧ .close e.2 ∈ log ++ acts) ∧
      ∀ ks d choice ls dials, js ++ [i] = ks ++ .step d choice :: ls →
        (r.run ks).1.job? id = some (.refresh (.filling table dials)) → d ∈ dials.map (·.2) →
        ∀ e ∈ (r.run ks).1.pool, e ∉ ((r.run ks).1.step (.step d choice)).1.pool →
        e.2 ∈ (r.run ks).1.down) ∧
    (table.addresses = [] → ∀ before choice rest,
      is ++ (js ++ [i]) = before ++ .step id choice :: rest →
      Harmless (after s before) (.step id choice)) := by
  intro r' acts
  obtain ⟨hjs, hi⟩ := admitsAll_concat.mp hl
  have hrun : r' = ((r.run js).1.step i).1 := by
    change (r.run (js ++ [i])).1 = _
    rw [run_concat]
  obtain ⟨hpool, hdown, htable, hlast⟩ := h.returned hj hjs hret
  rw [← hrun] at hpool hdown htable
  refine ⟨htable, fun hne => ?_, fun he before choice rest his => ?_⟩
  · -- It was closing what it had taken out.
    obtain ⟨hjob, -⟩ := hlast.resolve_left fun hx => hne hx.2
    obtain ⟨u, hu, hid, huj⟩ := exists_of_job? hjob
    obtain ⟨-, -, hmet, hlisted⟩ := h.on_course hj hjs u hu hid _ huj
    have stays (e : String × ConnId) (he : e.1 ∈ table.addresses) (ho : Once r js e) :
        e ∈ r'.pool ∨ e.2 ∈ r'.down := by
      rw [hpool, hdown]
      exact h.listed_stays hj hjs hjob rfl (fun _ => he) ho
    refine ⟨hpool ▸ hlisted, fun e he hel hed => ?_, fun a ha => ?_, ?_, ?_⟩
    · exact (stays e hel ⟨[], js, rfl, he⟩).resolve_right hed
    · rcases hmet a ha with ⟨c, ho⟩ | hm
      · rcases stays (a, c) ha ho with hp | hd
        · exact .inl ⟨c, hp⟩
        · exact .inr (.inl ⟨c, hd, ho⟩)
      · exact .inr (.inr hm)
    · intro ks choice ls hk e he hn
      have hdone : r'.refreshResult? id = some (.ok ()) := hrun ▸ hret.2
      rw [hk] at hl
      have hout := h.taken_out hj hl (by rw [← hk]; exact hdone) he hn
      rwa [← hk] at hout
    · intro ks d choice ls dials hk hfill hd e he hn
      rw [hk] at hl
      obtain ⟨hks, hd', -⟩ := admitsAll_append.mp hl
      exact (h.run ks hks).replaced hd' hfill hd he hn
  · -- The step came before the table or after it.
    rcases List.append_eq_append_iff.mp his with ⟨ks, rfl, hk⟩ | ⟨ls, rfl, hk⟩
    · rw [hk] at hl
      have hharm := h.harmless_since hj (admitsAll_append.mp hl).1 he choice
      rwa [h.eq_after, ← after_append] at hharm
    · cases ls with
      | nil =>
        have hnil : r.AdmitsAll [] := trivial
        have hharm := h.harmless_since hj hnil he choice
        rw [List.append_nil] at h
        rwa [Router.run, h.eq_after] at hharm
      | cons l ls =>
        obtain ⟨rfl, -⟩ := List.cons.inj hk
        exact h.harmless_before hj rfl

/-- The answer of a node that has all the slots to itself, on port 1. -/
def alone (host : String) : Outcome :=
  .ok (.multi (some [.multi (some [.integer 0, .integer 9,
    .multi (some [.status host, .integer 1])])]))

/-- Two nodes, the first of which has taken over the slots of the second one. -/
def resharded : List Input :=
  [.opening, .step 0 0, .step 1 0, .step 2 0, .dialed 1 (.ok 0), .dialed 2 (.ok 1), .step 1 0,
    .step 1 0, .step 1 0, .step 2 0, .step 2 0, .step 2 0, .step 0 0, .step 3 0, .step 3 0, .step 3 0,
    .step 3 0, .reply 4 (alone "a"), .step 3 0]

def realigning : List Input := List.replicate 5 (.step 3 0)

theorem refresh_aligns_pool_resharded :
    let r := after { seeds := ["a:1", "b:1"] } resharded
    ("a:1", 0) ∈ (r.run (realigning ++ [.step 3 0])).1.pool ∧
      .close 1 ∈ (run { settings := { seeds := ["a:1", "b:1"] } } resharded).2 ++
        (r.run (realigning ++ [.step 3 0])).2 := by
  intro r
  have hr : Reaches _ resharded r _ := Reaches.start.run resharded (by decide +kernel)
  have hl : r.AdmitsAll (realigning ++ [.step 3 0]) := by decide +kernel
  obtain ⟨table, hj, haddr⟩ : ∃ table, r.job? 3 = some (.refresh (.comparing table)) ∧
      table.addresses = ["a:1"] := exists_of_listing? (by decide +kernel)
  have hret : Returns (r.run realigning).1 3 (.step 3 0) := by decide +kernel
  have hpool : r.pool = [("a:1", 0), ("b:1", 1)] := by decide +kernel
  have hdown : (r.run (realigning ++ [.step 3 0])).1.down = [] := by decide +kernel
  have hevict : ("b:1", 1) ∈ (r.run (realigning.take 3)).1.pool ∧
      ("b:1", 1) ∉ ((r.run (realigning.take 3)).1.step (.step 3 0)).1.pool := by decide +kernel
  obtain ⟨-, haligned, -⟩ := refresh_aligns_pool hr hj hl hret
  obtain ⟨-, hstays, -, hout, -⟩ := haligned (by rw [haddr]; simp)
  refine ⟨hstays ("a:1", 0) ?_ (by rw [haddr]; simp) (by rw [hdown]; simp), ?_⟩
  · rw [hpool]
    simp
  · exact (hout (realigning.take 3) 0 [.step 3 0, .step 3 0] rfl _ hevict.1 hevict.2).2

/-- A client of one node. A command is sent on to another node, and the connection there is open and about
to be pooled; meanwhile a refresh gets a table that lists the first node alone. -/
def crossed : List Input :=
  [.opening, .step 0 0, .step 1 0, .dialed 1 (.ok 0), .step 1 0, .step 1 0, .step 1 0, .step 0 0,
    .step 2 0, .step 2 0, .step 2 0, .step 2 0, .reply 3 (alone "a"), .step 2 0, .step 2 0, .step 2 0,
    .step 2 0, .step 2 0, .step 2 0, .step 0 0,
    .send (Command.ofName "PING"), .step 4 0, .step 4 0, .reply 5 (.error (.reply "ASK 5 b:2")),
    .step 4 0, .step 6 0, .dialed 6 (.ok 1), .step 6 0, .step 6 0,
    .reload, .step 7 0, .step 8 0, .step 8 0, .step 8 0, .step 8 0, .reply 9 (alone "a"), .step 8 0]

/-- The refresh has nothing to take out, and then the other connection is pooled. -/
def intruding : List Input := [.step 8 0, .step 8 0, .step 8 0, .step 8 0, .step 6 0]

/-- When a refresh returns well, the pool may have a live connection to a node that its table does not
list. -/
theorem unlisted_pooled_at_return :
    let r := after { seeds := ["a:1"] } crossed
    let r' := (r.run (intruding ++ [.step 8 0])).1
    (∃ log, Reaches { seeds := ["a:1"] } crossed r log) ∧ r.AdmitsAll (intruding ++ [.step 8 0]) ∧
      (∃ table, r.job? 8 = some (.refresh (.comparing table)) ∧ table.addresses = ["a:1"]) ∧
      Returns (r.run intruding).1 8 (.step 8 0) ∧ r'.table.addresses = ["a:1"] ∧
      r'.pool = [("a:1", 0), ("b:2", 1)] ∧ r'.down = [] := by
  intro r r'
  have hr : Reaches _ crossed r _ := Reaches.start.run crossed (by decide +kernel)
  exact ⟨⟨_, hr⟩, by decide +kernel, exists_of_listing? (by decide +kernel), by decide +kernel,
    by decide +kernel, by decide +kernel, by decide +kernel⟩

end Router

end RespClient.Cluster
