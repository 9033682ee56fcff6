import RespClient.Proofs.Cluster.Router.Stranding
import RespClient.Proofs.Cluster.Router.Submissions

namespace RespClient.Cluster

namespace RefreshStage

def failed : RefreshStage → List String
  | choosing failed | asking failed _ _ | awaiting failed _ _ _ => failed
  | _ => []

/-- The refresh looks for a node that gives it a table. -/
def surveys : RefreshStage → Bool
  | choosing _ | asking _ _ _ | awaiting _ _ _ _ => true
  | _ => false

def begun : RefreshStage → Bool
  | enter | waiting => false
  | _ => true

def settled : RefreshStage → Bool
  | enter | waiting | choosing _ | asking _ _ _ | awaiting _ _ _ _ => false
  | _ => true

/-- How many turns at most a refresh has left to look for a table, with `n` addresses. -/
def due (n : Nat) : RefreshStage → Nat
  | choosing failed => 3 * (n - failed.length) + 1
  | asking failed _ _ => 3 * (n - failed.length)
  | awaiting failed _ _ _ => 3 * (n - failed.length) - 1
  | _ => 0

end RefreshStage

/-- Only a refresh submits the question for the slots. -/
theorem Job.Submits.exists_asking {job job' : Job} {d : Draft} {k : Claim} (h : job.Submits k d job')
    (hp : d.purpose = .slots) : ∃ failed a, job = .refresh (.asking failed a d.conn) := by
  cases h with
  | survey => exact ⟨_, _, rfl⟩
  | _ => cases hp

theorem Job.Submits.ne {job job' : Job} {d : Draft} {k : Claim} (h : job.Submits k d job') :
    job' ≠ job := by
  cases h with
  | greet | survey => nofun
  | submit h | ask h | follow h =>
    intro he
    have hstage := congrArg Sending.stage (Job.send.inj he)
    cases hstage.trans h

namespace Router

variable {s : ClusterSettings} {is js : List Input} {i : Input} {r r' core : Router}
  {log acts : List Action} {a : String} {c : ConnId} {id : TaskId} {k : Claim} {choice : Nat}
  {stage stage' : RefreshStage} {fresh : List Job}

/-- The node that refresh `id` asks for the slots with an input. -/
def question? (r : Router) (id : TaskId) (i : Input) : Option String :=
  ((r.submits? i).filter fun x => x.task == id && x.purpose == .slots).map fun x => r.origin x.conn

def questions (r : Router) (id : TaskId) : List Input → List String :=
  r.collect fun r i => (r.question? id i).toList

theorem questions_concat (r : Router) (id : TaskId) (js : List Input) (i : Input) :
    r.questions id (js ++ [i]) = r.questions id js ++ ((r.run js).1.question? id i).toList :=
  collect_concat ..

/-- The nodes that refresh `id` has asked since a router with settings `s` was new. -/
def asked (s : ClusterSettings) (is : List Input) (id : TaskId) : List String :=
  (after s []).questions id is

/-- Refresh `id` asked the node at `a`, with claim `k`, and `js` came in since then. -/
def Asks (s : ClusterSettings) (is : List Input) (id : TaskId) (a : String) (k : Claim)
    (js : List Input) : Prop :=
  ∃ before choice, is = before ++ .step id choice :: js ∧
    (after s before).question? id (.step id choice) = some a ∧ k = (after s before).next

/-- The node at `a` has failed refresh `id`: what it replied is a fault or no table, or its connection had
ended when it was to be asked. -/
inductive Fails (s : ClusterSettings) (is : List Input) (id : TaskId) (a : String) : Prop
  | answered {k js o} (hk : Asks s is id a k js) (ho : .reply k o ∈ js)
      (hn : ∀ reply table, o = .ok reply → SlotTable.load (Address.hostOf a) reply ≠ .ok table)
  | mute {before choice js failed c} (his : is = before ++ .step id choice :: js)
      (hj : (after s before).job? id = some (.refresh (.asking failed a c)))
      (hd : c ∈ (after s before).down)

theorem question?_eq_some (h : Reaches s is r log) : r.question? id i = some a ↔
    ∃ t ∈ r.tasks, t.id = id ∧ ∃ failed c choice, t.job = .refresh (.asking failed a c) ∧
      i = .step id choice ∧ c ∉ r.down := by
  constructor
  · intro hq
    obtain ⟨x, hx, rfl⟩ := Option.map_eq_some_iff.mp hq
    obtain ⟨hx, hp⟩ := Option.filter_eq_some_iff.mp hx
    obtain ⟨hid, hp⟩ : x.task = id ∧ x.purpose = .slots := by simpa using hp
    obtain ⟨t, ht, choice, rfl, htid, hdraft, hlive, -⟩ := (submits?_eq_some h.forest).mp hx
    obtain ⟨job', hs⟩ := Job.exists_submits hdraft 0
    obtain ⟨failed, a, hj⟩ := hs.exists_asking hp
    have ho : (x.conn, a) ∈ r.opened := h.past t ht _ hj
    refine ⟨t, ht, htid.trans hid, failed, x.conn, choice, ?_, by rw [htid, hid], hlive⟩
    rw [hj, h.custody.origin_eq ho]
  · rintro ⟨t, ht, rfl, failed, c, choice, hj, rfl, hlive⟩
    have ho : (c, a) ∈ r.opened := h.past t ht _ hj
    have hx : r.submits? (.step t.id choice) = some ⟨⟨c, .slots, slotsFrame⟩, t.id, r.next⟩ :=
      (submits?_eq_some h.forest).mpr ⟨t, ht, choice, rfl, rfl, by rw [hj]; rfl, hlive, rfl⟩
    simp [question?, hx, Option.filter, h.custody.origin_eq ho]

/-- A refresh that an input leaves alone asks nobody with it. -/
theorem question?_of_untouched (h : Reaches s is r log) {u : Task} (hu : u ∈ r.tasks)
    (hu' : u ∈ (r.step i).1.tasks) : r.question? u.id i = none := by
  refine Option.eq_none_iff_forall_ne_some.mpr fun a hq => ?_
  obtain ⟨x, hx, -⟩ := Option.map_eq_some_iff.mp hq
  obtain ⟨hx, hp⟩ := Option.filter_eq_some_iff.mp hx
  obtain ⟨hid, -⟩ : x.task = u.id ∧ x.purpose = .slots := by simpa using hp
  rcases submits_cases h.forest hx hu' with ⟨t, ht, htid, -, hs⟩ | ⟨-, hne⟩
  · exact hs.ne (congrArg Task.job (h.forest.eq_of_id hu ht htid.symm))
  · exact hne hid.symm

theorem question?_of_new (h : Reaches s is r log) (hid : r.next ≤ id) (i : Input) :
    r.question? id i = none := by
  refine Option.eq_none_iff_forall_ne_some.mpr fun a hq => ?_
  obtain ⟨t, ht, rfl, -⟩ := (question?_eq_some h).mp hq
  exact Nat.not_lt_of_ge hid (h.forest.bound t ht)

theorem Reaches.asked_concat (h : Reaches s is r log) (id : TaskId) (i : Input) :
    asked s (is ++ [i]) id = asked s is id ++ (r.question? id i).toList := by
  have hr : ((after s []).run is).1 = r := h.eq_after.symm
  rw [asked, questions_concat, hr]
  rfl

theorem Reaches.asked_of_none (h : Reaches s is r log) (hi : r.question? id i = none) :
    asked s (is ++ [i]) id = asked s is id := by
  rw [h.asked_concat, hi, Option.toList_none, List.append_nil]

/-- A refresh that is not there yet has asked nobody. -/
theorem Reaches.asked_new (h : Reaches s is r log) : ∀ id, r.next ≤ id → asked s is id = [] := by
  induction h with
  | start => exact fun _ _ => rfl
  | @step is r log i h hi ih =>
    intro id hid
    have hold : r.next ≤ id := Nat.le_trans (step_event r i).next_le hid
    rw [h.asked_of_none (question?_of_new h hold i), ih id hold]

theorem Asks.concat (h : Asks s is id a k js) (i : Input) : Asks s (is ++ [i]) id a k (js ++ [i]) := by
  obtain ⟨before, choice, rfl, hq, hk⟩ := h
  exact ⟨before, choice, by simp, hq, hk⟩

theorem Fails.concat (h : Fails s is id a) (i : Input) : Fails s (is ++ [i]) id a := by
  cases h with
  | answered hk ho hn => exact .answered (hk.concat i) (List.mem_append_left _ ho) hn
  | @mute before choice js failed c his hj hd =>
    have his' : is ++ [i] = before ++ .step id choice :: (js ++ [i]) := by simp [his]
    exact .mute his' hj hd

/-- What a node replies has come in since it was asked. -/
theorem Asks.reply_mem (h : Reaches s is r log) (hk : Asks s is id a k js) {o : Outcome}
    (hm : r.mail? k = some o) : .reply k o ∈ js := by
  have hin := h.mail (mem_of_mail? hm)
  obtain ⟨before, choice, rfl, -, rfl⟩ := hk
  obtain ⟨_, hb, -, -⟩ := h.cut
  rcases List.mem_append.mp hin with hin | hin
  · exact absurd (hb.claim_lt hin) (Nat.lt_irrefl _)
  · exact (List.mem_cons.mp hin).resolve_left nofun

/-- What a refresh has behind it at a stage of its survey. -/
structure Surveyed (s : ClusterSettings) (is : List Input) (id : TaskId) (stage : RefreshStage) :
    Prop where
  nodup : stage.failed.Nodup
  fails : ∀ a ∈ stage.failed, Fails s is id a
  fresh : ∀ e, stage.asks? = some e → e.1 ∉ stage.failed
  covers : stage.settled = false → ∀ a ∈ asked s is id,
    a ∈ stage.failed ∨ ∃ failed c k, stage = .awaiting failed a c k
  waits : ∀ failed a c k, stage = .awaiting failed a c k → ∃ js, Asks s is id a k js

theorem Surveyed.keep (h : Reaches s is r log) (hs : Surveyed s is id stage)
    (hi : r.question? id i = none) : Surveyed s (is ++ [i]) id stage where
  nodup := hs.nodup
  fails a ha := (hs.fails a ha).concat i
  fresh := hs.fresh
  covers := by
    rw [h.asked_of_none hi]
    exact hs.covers
  waits failed a c k hstage := by
    obtain ⟨js, hk⟩ := hs.waits failed a c k hstage
    exact ⟨js ++ [i], hk.concat i⟩

/-- A stage without failures and questions, after which nobody has been asked. -/
theorem Surveyed.of_none (hf : stage.failed = []) (ha : stage.asks? = none)
    (hn : stage.settled = false → asked s is id = []) : Surveyed s is id stage where
  nodup := hf ▸ List.nodup_nil
  fails := by
    rw [hf]
    nofun
  fresh e he := by cases ha.symm.trans he
  covers hs := by
    rw [hn hs]
    nofun
  waits failed a c k hstage := by
    rw [hstage] at ha
    cases ha

theorem Surveyed.skip {failed : List String} (hs : Surveyed s is id stage)
    (hstage : stage.failed = failed) (he : stage.asks? = some (a, c)) (hn : stage.settled = false)
    (hf : Fails s is id a) : Surveyed s is id (.choosing (failed ++ [a])) where
  nodup := by
    subst hstage
    refine List.nodup_append.mpr ⟨hs.nodup, List.nodup_singleton _, ?_⟩
    rintro b hb _ hb' rfl
    obtain rfl := List.mem_singleton.mp hb'
    exact hs.fresh _ he hb
  fails b hb := by
    subst hstage
    rcases List.mem_append.mp hb with hb | hb
    · exact hs.fails b hb
    · obtain rfl := List.mem_singleton.mp hb
      exact hf
  fresh e he := by cases he
  covers _ b hb := by
    subst hstage
    refine .inl (List.mem_append.mpr ((hs.covers hn b hb).imp_right ?_))
    rintro ⟨failed, c', k, rfl⟩
    cases he
    exact List.mem_singleton_self _
  waits failed a c k hstage := by cases hstage

/-- What a refresh has behind it after a turn of its own. -/
theorem Surveyed.turn (h : Reaches s is r log) {t : Task} (ht : t ∈ r.tasks)
    (hj : t.job = .refresh stage) (hs : Surveyed s is t.id stage)
    (hx : RefreshTurn r t.id choice stage stage' fresh core acts) :
    Surveyed s (is ++ [.step t.id choice]) t.id stage' := by
  have hjob : (after s is).job? t.id = some (.refresh stage) := by
    rw [← h.eq_after, h.forest.job?_eq ht, hj]
  -- Only a turn that sends a question asks anybody.
  have idle (hn : ∀ failed a c, stage = .asking failed a c → c ∈ r.down) :
      Surveyed s (is ++ [.step t.id choice]) t.id stage := by
    refine hs.keep h (Option.eq_none_iff_forall_ne_some.mpr fun a hq => ?_)
    obtain ⟨u, hu, hid, failed, c, _, hj', -, hlive⟩ := (question?_eq_some h).mp hq
    obtain rfl := h.forest.eq_of_id hu ht hid
    exact hlive (hn failed a c (Job.refresh.inj (hj.symm.trans hj')))
  cases hx with
  | enter | lock =>
    refine .of_none rfl rfl fun _ => List.eq_nil_iff_forall_not_mem.mpr fun a ha => ?_
    rcases (idle nofun).covers rfl a ha with hm | ⟨_, _, _, hm⟩ <;> cases hm
  | @choose failed a c hpick =>
    have hs' := idle nofun
    refine ⟨hs'.nodup, hs'.fails, ?_, fun _ b hb => ?_, nofun⟩
    · rintro e ⟨⟩
      exact (of_pick hpick).2.1
    · exact (hs'.covers rfl b hb).imp_right nofun
  | @mute failed a c text hd =>
    have hdown : c ∈ r.down := isDown_iff.mp hd
    have his : is ++ [.step t.id choice] = is ++ .step t.id choice :: [] := rfl
    refine (idle ?_).skip rfl rfl rfl (.mute his hjob ?_)
    · rintro _ _ _ ⟨⟩
      exact hdown
    · rwa [← h.eq_after]
  | @ask failed a c hlive =>
    have hq : r.question? t.id (.step t.id choice) = some a := by
      refine (question?_eq_some h).mpr ⟨t, ht, rfl, failed, c, choice, hj, rfl, ?_⟩
      simpa [← isDown_iff] using hlive
    refine ⟨hs.nodup, fun b hb => (hs.fails b hb).concat _, ?_, fun _ b hb => ?_, ?_⟩
    · rintro e ⟨⟩
      exact hs.fresh _ rfl
    · rw [h.asked_concat, hq] at hb
      rcases List.mem_append.mp hb with hb | hb
      · exact .inl ((hs.covers rfl b hb).resolve_right nofun)
      · obtain rfl := List.mem_singleton.mp hb
        exact .inr ⟨failed, c, r.next, rfl⟩
    · rintro _ _ _ _ ⟨⟩
      exact ⟨[], is, choice, rfl, by rw [← h.eq_after]; exact hq, by rw [← h.eq_after]⟩
  | @rebuffed failed a c k o text hm ho =>
    obtain ⟨js, hk⟩ := hs.waits _ _ _ _ rfl
    have hf : Fails s is t.id a := .answered hk (hk.reply_mem h hm) ho
    exact (idle nofun).skip rfl rfl rfl (hf.concat _)
  | giveUp | load | compare | fill | installEmpty | install | evict | finish | close =>
    exact .of_none rfl rfl nofun

theorem Reaches.surveyed (h : Reaches s is r log) : ∀ t ∈ r.tasks, ∀ stage, t.job = .refresh stage →
    Surveyed s is t.id stage := by
  induction h with
  | start => nofun
  | @step is r log i h hi ih =>
    intro u hu stage' hj
    rcases step_refresh h.forest h.lock i hu hj with ⟨hu', -⟩ |
      ⟨t, ht, stage, choice, fresh, core, rfl, hid, hjob, hx, -⟩ | ⟨rfl, hnew⟩
    · exact (ih u hu' stage' hj).keep h (question?_of_untouched h hu' hu)
    · rw [← hid] at hx ⊢
      exact (ih t ht stage hjob).turn h ht hjob hx
    · refine .of_none rfl rfl fun _ => ?_
      rw [h.asked_of_none (question?_of_new h hnew i), h.asked_new _ hnew]

/-- A refresh asks no node twice, and the next one only when the last one has failed. -/
theorem Reaches.asked_once (h : Reaches s is r log) (id : TaskId) :
    (asked s is id).Nodup ∧ ∀ a ∈ (asked s is id).dropLast, Fails s is id a := by
  induction h with
  | start => exact ⟨List.nodup_nil, nofun⟩
  | @step is r log i h hi ih =>
    obtain ⟨hnodup, hfails⟩ := ih
    cases hq : r.question? id i with
    | none =>
      rw [h.asked_of_none hq]
      exact ⟨hnodup, fun a ha => (hfails a ha).concat i⟩
    | some a =>
      obtain ⟨t, ht, rfl, failed, c, choice, hj, -⟩ := (question?_eq_some h).mp hq
      have hs := h.surveyed t ht _ hj
      have hall : ∀ b ∈ asked s is t.id, b ∈ failed := fun b hb =>
        (hs.covers rfl b hb).resolve_right nofun
      rw [h.asked_concat, hq, Option.toList_some, List.dropLast_concat]
      refine ⟨List.nodup_append.mpr ⟨hnodup, List.nodup_singleton _, ?_⟩, fun b hb => ?_⟩
      · rintro b hb _ hb' rfl
        obtain rfl := List.mem_singleton.mp hb'
        exact hs.fresh _ rfl (hall b hb)
      · exact (hs.fails b (hall b hb)).concat i

/-- The answer to its question is the next thing that a refresh takes up. -/
theorem Reaches.takes_table (h : Reaches s is r log) {failed : List String} {reply : Reply}
    {table : SlotTable} (hj : r.job? id = some (.refresh (.awaiting failed a c k)))
    (hm : r.mail? k = some (.ok reply)) (ht : SlotTable.load (Address.hostOf a) reply = .ok table)
    (choice : Nat) : Hears r id choice (a, c) table := by
  refine ⟨⟨failed, k, hj⟩, ?_⟩
  obtain ⟨t, htask, rfl, htj⟩ := exists_of_job? hj
  have hf := (h.step (i := .step t.id choice) trivial).forest
  rcases step_own h.forest htask choice with ⟨hno, -⟩ | ⟨job?, fresh, core, acts, hx, hstep⟩
  · have hfree : r.isFree t = true := by simp only [isFree, htj, hm, Option.isSome_some]
    cases hno.symm.trans hfree
  · have hg := hx.grows
    rw [hstep] at hf ⊢
    obtain ⟨tid, root, job⟩ := t
    cases htj
    cases hx with
    | refresh hx =>
      cases hx with
      | load hm' ht' =>
        cases hm.symm.trans hm'
        cases ht.symm.trans ht'
        exact hf.job?_eq ((h.forest.mem_turn htask hg).mpr (.inr (.inl ⟨_, rfl, rfl⟩)))
      | rebuffed hm' ho =>
        cases hm.symm.trans hm'
        exact absurd ht (ho _ _ rfl)

theorem RefreshTurn.settled (h : RefreshTurn r id choice stage stage' fresh core acts)
    (hs : stage.settled = true) : stage'.settled = true := by
  cases h <;> first | rfl | cases hs

/-- A refresh that has a table or is over asks nobody any more. -/
theorem Reaches.asks_no_more (h : Reaches s is r log) (hl : r.AdmitsAll js)
    (hj : r.job? id = some (.refresh stage)) (hs : stage.settled = true) :
    r.questions id js = [] := by
  obtain ⟨t, ht, rfl, htj⟩ := exists_of_job? hj
  induction js using List.reverseRecOn with
  | nil => rfl
  | append_singleton js i ih =>
    obtain ⟨hjs, hi⟩ := admitsAll_concat.mp hl
    rw [questions_concat, ih hjs, List.nil_append, Option.toList_eq_nil_iff]
    refine Option.eq_none_iff_forall_ne_some.mpr fun a hq => ?_
    obtain ⟨u, hu, hid, failed, c, choice, huj, -⟩ := (question?_eq_some (h.run js hjs)).mp hq
    obtain ⟨v, hv, hvid, -, himp⟩ := h.refresh_run (P := fun stage => stage.settled = true)
      RefreshTurn.settled hjs hu (hid ▸ h.forest.bound t ht)
    obtain rfl := h.forest.eq_of_id hv ht (hvid.trans hid)
    cases himp _ _ htj huj hs

/-- A refresh gives up when every live connection of the pool is one to a node that has failed it. -/
theorem Reaches.gives_up (h : Reaches s is r log) {e : ClientError}
    (hn : r.refreshResult? id = none) (he : (r.step i).1.refreshResult? id = some (.error e)) :
    e = .noConnection ∧ ∀ x ∈ r.pool, x.2 ∉ r.down → Fails s is id x.1 := by
  obtain ⟨u, hu, rfl, huj⟩ := exists_of_refreshResult? he
  rcases step_refresh h.forest h.lock i hu huj with ⟨hu', -⟩ |
    ⟨t, ht, stage, choice, fresh, core, rfl, hid, hjob, hx, -⟩ | ⟨hs, -⟩
  · cases hn.symm.trans (h.forest.refreshResult?_eq hu' huj)
  · have hs := h.surveyed t ht stage hjob
    rw [hid] at hs
    generalize (r.step (.step u.id choice)).2 = acts at hx
    cases hx with
    | giveUp hpick =>
      refine ⟨rfl, fun x hx hlive => hs.fails _ ?_⟩
      exact (excluded_or_down_of_pick hpick x hx).resolve_right hlive
  · cases hs

section Bound

variable {nodes : List String}

theorem Reaches.asked_append (h : Reaches s is r log) (id : TaskId) (js : List Input) :
    asked s (is ++ js) id = asked s is id ++ r.questions id js := by
  have hr : ((after s []).run is).1 = r := h.eq_after.symm
  rw [asked, questions, collect_append, hr]
  rfl

/-- While the pool has entries of some nodes only, a refresh that chose none of them before asks no
others. -/
theorem Reaches.asks_among (h : Reaches s is r log) (hl : r.AdmitsAll js)
    (hj : ∀ stage, r.job? id = some (.refresh stage) → stage.asks? = none)
    (hn : ∀ x, Once r js x → x.1 ∈ nodes) : (∀ a ∈ r.questions id js, a ∈ nodes) ∧
      ∀ t ∈ (r.run js).1.tasks, t.id = id → ∀ stage, t.job = .refresh stage →
        ∀ x, stage.asks? = some x → x.1 ∈ nodes := by
  induction js using List.reverseRecOn with
  | nil =>
    refine ⟨nofun, ?_⟩
    rintro t ht rfl stage htj x hx
    cases hx.symm.trans (hj stage (by rw [h.forest.job?_eq ht, htj]))
  | append_singleton js i ih =>
    obtain ⟨hjs, hi⟩ := admitsAll_concat.mp hl
    obtain ⟨hasked, hasks⟩ := ih hjs fun x hx => hn x (hx.concat i)
    have hm := h.run js hjs
    refine ⟨fun a ha => ?_, fun u hu hid stage' huj x hx => ?_⟩
    · rw [questions_concat] at ha
      rcases List.mem_append.mp ha with ha | ha
      · exact hasked a ha
      · obtain ⟨t, ht, hid, failed, c, choice, htj, -⟩ :=
          (question?_eq_some hm).mp (Option.mem_toList.mp ha)
        exact hasks t ht hid _ htj (a, c) rfl
    · rw [run_concat] at hu
      rcases step_refresh hm.forest hm.lock i hu huj with ⟨hu', -⟩ |
        ⟨t, ht, stage, choice, fresh, core, -, htid, htj, hturn, -⟩ | ⟨rfl, -⟩
      · exact hasks u hu' hid stage' huj x hx
      · generalize ((r.run js).1.step i).2 = acts at hturn
        cases hturn with
        | choose hpick =>
          cases hx
          have hpool := (of_pick hpick).1
          exact hn _ (Once.concat (Once.now hpool) i)
        | ask => exact hasks t ht (htid.trans hid) _ htj x hx
        | _ => cases hx
      · cases hx

/-- A refresh asks no more nodes than the pool has addresses in the time that it takes. -/
theorem Reaches.questions_le (h : Reaches s is r log) (hl : r.AdmitsAll js)
    (hj : ∀ stage, r.job? id = some (.refresh stage) → stage.asks? = none)
    (hn : ∀ x, Once r js x → x.1 ∈ nodes) : (r.questions id js).length ≤ nodes.length := by
  have hnodup := ((h.run js hl).asked_once id).1
  rw [h.asked_append] at hnodup
  have hsub : r.questions id js ⊆ nodes := (h.asks_among hl hj hn).1
  exact (List.subperm_of_subset (List.nodup_append.mp hnodup).2.1 hsub).length_le

theorem RefreshTurn.begun (h : RefreshTurn r id choice stage stage' fresh core acts)
    (hs : stage.begun = true) : stage'.begun = true := by
  cases h <;> first | rfl | cases hs

/-- A survey goes on from a stage of it, and only the node that was being asked may have failed. -/
theorem RefreshTurn.survey (h : RefreshTurn r id choice stage stage' fresh core acts)
    (hb : stage.begun = true) (hs' : stage'.surveys = true) : stage.surveys = true ∧
      ∀ a ∈ stage'.failed, a ∈ stage.failed ∨ ∃ c, stage.asks? = some (a, c) := by
  cases h with
  | choose | ask => exact ⟨rfl, fun b hb => .inl hb⟩
  | mute | rebuffed =>
    refine ⟨rfl, fun b hb => (List.mem_append.mp hb).imp_right fun hb => ?_⟩
    obtain rfl := List.mem_singleton.mp hb
    exact ⟨_, rfl⟩
  | enter | lock => cases hb
  | _ => cases hs'

/-- A turn of a survey has fewer of them left. A node that is being asked did not fail yet. -/
theorem RefreshTurn.due_lt {n : Nat} (h : RefreshTurn r id choice stage stage' fresh core acts)
    (hs' : stage'.surveys = true) (hs : stage.surveys = true)
    (hn : ∀ x, stage.asks? = some x → stage.failed.length < n) : stage'.due n < stage.due n := by
  cases h with
  | choose =>
    simp only [RefreshStage.due]
    omega
  | ask | mute | rebuffed =>
    have hlt := hn _ rfl
    simp only [RefreshStage.failed] at hlt
    simp only [RefreshStage.due, List.length_append, List.length_singleton]
    omega
  | giveUp | load => cases hs'
  | _ => cases hs

/-- An input that leaves a survey alone is no turn of it. -/
theorem hasTurn_of_untouched (h : Reaches s is r log) {u : Task} (hu : u ∈ r.tasks)
    (hu' : u ∈ (r.step i).1.tasks) (huj : u.job = .refresh stage) (hs : stage.surveys = true) :
    r.hasTurn u.id i = false := by
  by_contra hturn
  obtain ⟨choice, rfl, hfree⟩ : ∃ choice, i = .step u.id choice ∧ r.isFree u = true := by
    simp only [hasTurn, h.forest.find?_eq hu, huj] at hturn
    split at hturn
    · obtain ⟨hid, hfree⟩ := by simpa using hturn
      exact ⟨_, by rw [hid], hfree⟩
    · exact absurd rfl hturn
    · exact absurd rfl hturn
  rcases step_own h.forest hu choice with ⟨hno, -⟩ | ⟨job?, fresh, core, acts, hx, hstep⟩
  · cases hno.symm.trans hfree
  · rw [hstep] at hu'
    have hjob := h.forest.job_of_mem_turn hu hx.grows hu' rfl
    obtain ⟨tid, root, job⟩ := u
    cases huj
    cases hx with
    | refresh hx =>
      cases hjob
      cases hx

/-- A survey has as many turns left as it did not take yet. -/
theorem Reaches.survey_turns (h : Reaches s is r log) (hl : r.AdmitsAll js)
    (hj : r.job? id = some (.refresh (.choosing []))) (hn : ∀ x, Once r js x → x.1 ∈ nodes) :
    ∀ t ∈ (r.run js).1.tasks, t.id = id → ∀ stage, t.job = .refresh stage → stage.surveys = true →
      (∀ a ∈ stage.failed, a ∈ nodes) ∧
        r.turns id js + stage.due nodes.length ≤ 3 * nodes.length + 1 := by
  induction js using List.reverseRecOn with
  | nil =>
    rintro t ht rfl stage htj -
    have hstage := (h.forest.job?_eq ht).symm.trans hj
    rw [htj] at hstage
    cases hstage
    exact ⟨nofun, by simp [turns, RefreshStage.due]⟩
  | append_singleton js i ih =>
    obtain ⟨hjs, hi⟩ := admitsAll_concat.mp hl
    have hn' : ∀ x, Once r js x → x.1 ∈ nodes := fun x hx => hn x (hx.concat i)
    have hm := h.run js hjs
    have hasks := (h.asks_among hjs (by rw [hj]; rintro _ ⟨⟩; rfl) hn').2
    have hlt : id < r.next := by
      obtain ⟨t, ht, rfl, -⟩ := exists_of_job? hj
      exact h.forest.bound t ht
    rintro u hu rfl stage' huj hs'
    rw [run_concat] at hu
    rw [turns_concat]
    rcases step_refresh hm.forest hm.lock i hu huj with ⟨hu', -⟩ |
      ⟨t, ht, stage, choice, fresh, core, -, htid, htj, hturn, -⟩ | ⟨rfl, -⟩
    · rw [hasTurn_of_untouched hm hu' hu huj hs']
      exact ih hjs hn' u hu' rfl stage' huj hs'
    · generalize ((r.run js).1.step i).2 = acts at hturn
      have hb : stage.begun = true := by
        obtain ⟨v, hv, hvid, -, himp⟩ := h.refresh_run (P := fun stage => stage.begun = true)
          RefreshTurn.begun hjs ht (htid ▸ hlt)
        have hvj := h.forest.job?_eq hv
        rw [hvid, htid, hj] at hvj
        exact himp _ _ (Option.some.inj hvj).symm htj rfl
      obtain ⟨hs, hmore⟩ := hturn.survey hb hs'
      obtain ⟨hfailed, hle⟩ := ih hjs hn' t ht htid stage htj hs
      have hsurvey := hm.surveyed t ht stage htj
      have hroom : ∀ x, stage.asks? = some x → stage.failed.length < nodes.length := by
        intro x hx
        have hnodup : (x.1 :: stage.failed).Nodup :=
          List.nodup_cons.mpr ⟨hsurvey.fresh x hx, hsurvey.nodup⟩
        have hsub : x.1 :: stage.failed ⊆ nodes :=
          List.cons_subset.mpr ⟨hasks t ht htid stage htj x hx, hfailed⟩
        exact (List.subperm_of_subset hnodup hsub).length_le
      have hless := hturn.due_lt hs' hs hroom
      have hone : ((r.run js).1.hasTurn u.id i).toNat ≤ 1 := Bool.toNat_le _
      refine ⟨fun a ha => ?_, by omega⟩
      rcases hmore a ha with ha | ⟨c, ha⟩
      · exact hfailed a ha
      · exact hasks t ht htid stage htj _ ha
    · cases hs'

/-- A survey waits for nothing but the answer to its question. -/
theorem isFree_of_surveys {t : Task} (hj : t.job = .refresh stage) (hs : stage.surveys = true)
    (hm : ∀ failed a c k, stage = .awaiting failed a c k → (r.mail? k).isSome = true) :
    r.isFree t = true := by
  cases stage with
  | choosing | asking => simp only [isFree, hj]
  | awaiting failed a c k => simpa only [isFree, hj] using hm failed a c k rfl
  | _ => cases hs

end Bound

/-- A refresh asks each node at most once, and another one only when the last one has failed. It takes up
the first answer that is a table, and then asks nobody any more. It fails only when no node is left, and
each live connection of the pool is one to a node that has failed it. So it asks no more nodes than the
pool has addresses in the time that it takes, and looks for a table for three turns a node and one more at
most; and meanwhile it waits for nothing but the answer to its question. -/
theorem refresh_asks_each_node_once (h : Reaches s is r log) (id : TaskId) :
    (asked s is id).Nodup ∧
    (∀ a ∈ (asked s is id).dropLast, Fails s is id a) ∧
    (∀ failed a c k reply table, r.job? id = some (.refresh (.awaiting failed a c k)) →
      r.mail? k = some (.ok reply) → SlotTable.load (Address.hostOf a) reply = .ok table →
      ∀ choice, Hears r id choice (a, c) table) ∧
    (∀ stage, r.job? id = some (.refresh stage) → stage.settled = true →
      ∀ js, r.AdmitsAll js → r.questions id js = []) ∧
    (∀ i e, r.refreshResult? id = none → (r.step i).1.refreshResult? id = some (.error e) →
      e = .noConnection ∧ ∀ x ∈ r.pool, x.2 ∉ r.down → Fails s is id x.1) ∧
    ∀ js (nodes : List String), r.AdmitsAll js → (∀ x, Once r js x → x.1 ∈ nodes) →
      ((∀ stage, r.job? id = some (.refresh stage) → stage.asks? = none) →
        (r.questions id js).length ≤ nodes.length) ∧
      (r.job? id = some (.refresh (.choosing [])) →
        ∀ t ∈ (r.run js).1.tasks, t.id = id → ∀ stage, t.job = .refresh stage →
          stage.surveys = true → r.turns id js ≤ 3 * nodes.length + 1 ∧
            ((∀ failed a c k, stage = .awaiting failed a c k → ((r.run js).1.mail? k).isSome = true) →
              (r.run js).1.isFree t = true)) := by
  obtain ⟨hnodup, hfails⟩ := h.asked_once id
  refine ⟨hnodup, hfails, ?_, ?_, ?_, ?_⟩
  · intro failed a c k reply table hj hm ht choice
    exact h.takes_table hj hm ht choice
  · intro stage hj hs js hl
    exact h.asks_no_more hl hj hs
  · intro i e hn he
    exact h.gives_up hn he
  · intro js nodes hl hn
    refine ⟨fun hj => h.questions_le hl hj hn, fun hj t ht hid stage htj hs => ⟨?_, ?_⟩⟩
    · obtain ⟨-, hturns⟩ := h.survey_turns hl hj hn t ht hid stage htj hs
      omega
    · exact isFree_of_surveys htj hs

/-- Two nodes are pooled. The first one refuses the question, the other one's answer is no table. -/
def fruitless : List Input :=
  [.opening, .step 0 0, .step 1 0, .dialed 1 (.ok 0), .step 1 0, .step 1 0, .step 1 0,
    .step 2 0, .dialed 2 (.ok 1), .step 2 0, .step 2 0, .step 2 0, .step 0 0,
    .step 3 0, .step 3 0, .step 3 0, .step 3 0, .reply 4 (.error (.reply "LOADING")), .step 3 0,
    .step 3 0, .step 3 0, .reply 5 (.ok (.integer 1)), .step 3 0]

/-- Both have failed when the refresh gives up, and each was asked once. -/
theorem refresh_asks_each_node_once_fruitless :
    let s : ClusterSettings := { seeds := ["a:1", "b:2"] }
    asked s fruitless 3 = ["a:1", "b:2"] ∧ Fails s fruitless 3 "a:1" ∧ Fails s fruitless 3 "b:2" ∧
      ((after s fruitless).step (.step 3 0)).1.refreshResult? 3 = some (.error .noConnection) := by
  intro s
  have hr : Reaches s fruitless (after s fruitless) _ :=
    Reaches.start.run fruitless (by decide +kernel)
  have hpool : (after s fruitless).pool = [("a:1", 0), ("b:2", 1)] := by decide +kernel
  have hdown : (after s fruitless).down = [] := by decide +kernel
  have hout : ((after s fruitless).step (.step 3 0)).1.refreshResult? 3 =
      some (.error .noConnection) := by decide +kernel
  obtain ⟨-, -, -, -, hgives, -⟩ := refresh_asks_each_node_once hr 3
  obtain ⟨-, hfails⟩ := hgives (.step 3 0) _ (by decide +kernel) hout
  rw [hpool, hdown] at hfails
  exact ⟨by decide +kernel, hfails ("a:1", 0) (by simp) (by simp),
    hfails ("b:2", 1) (by simp) (by simp), hout⟩

end Router

end RespClient.Cluster
