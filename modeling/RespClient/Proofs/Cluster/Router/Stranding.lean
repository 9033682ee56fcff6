import RespClient.Proofs.Cluster.Router.Alignment
import RespClient.Proofs.Cluster.Router.Routing

namespace RespClient.Cluster

/-- The pooled connection that a refresh asks for the slots. -/
def RefreshStage.asks? : RefreshStage → Option (String × ConnId)
  | asking _ a c | awaiting _ a c _ => some (a, c)
  | _ => none

theorem RefreshStage.loading_of_asks {stage : RefreshStage} {e : String × ConnId}
    (h : stage.asks? = some e) : stage.loading = true := by
  cases stage <;> first | rfl | cases h

namespace Router

variable {s : ClusterSettings} {is js : List Input} {i : Input} {r r' core : Router}
  {log acts : List Action} {e : String × ConnId} {id : TaskId} {table : SlotTable}
  {stage : RefreshStage} {choice : Nat} {t : Task}

/-- With its next step refresh `id` takes up the table that the node of `e` has answered. -/
def Hears (r : Router) (id : TaskId) (choice : Nat) (e : String × ConnId) (table : SlotTable) : Prop :=
  (∃ failed k, r.job? id = some (.refresh (.awaiting failed e.1 e.2 k))) ∧
    (r.step (.step id choice)).1.job? id = some (.refresh (.comparing table))

/-- Refresh `id` takes up the answer of the node of `e` after `before`. Then `js` comes in, and with `i` the
refresh returns well. -/
def Refreshes (s : ClusterSettings) (before : List Input) (id : TaskId) (choice : Nat)
    (e : String × ConnId) (table : SlotTable) (js : List Input) (i : Input) : Prop :=
  Hears (after s before) id choice e table ∧
    Returns (after s (before ++ .step id choice :: js)) id i

/-- The input is the step of a refresh that takes an entry out of the pool, as the table does not list it. -/
def Evicts (r : Router) (i : Input) (e : String × ConnId) : Prop :=
  ∃ id choice, i = .step id choice ∧ r.job? id = some (.refresh (.evicting r.table)) ∧
    e.1 ∉ r.table.addresses

/-- A refresh has taken an entry out of the pool. -/
def Evicted (r : Router) (js : List Input) (e : String × ConnId) : Prop :=
  ∃ ks i ls, js = ks ++ i :: ls ∧ Evicts (r.run ks).1 i e

theorem Evicted.concat (h : Evicted r js e) (i : Input) : Evicted r (js ++ [i]) e := by
  obtain ⟨ks, j, ls, rfl, hj⟩ := h
  exact ⟨ks, j, ls ++ [i], by simp, hj⟩

/-- What is pooled stays until it ends or a refresh takes it out. -/
theorem Reaches.stays_or_evicted (h : Reaches s is r log) (hl : r.AdmitsAll js) (he : e ∈ r.pool) :
    e ∈ (r.run js).1.pool ∨ e.2 ∈ (r.run js).1.down ∨ Evicted r js e := by
  refine h.induct_run (P := fun js r' _ => e ∈ r'.pool ∨ e.2 ∈ r'.down ∨ Evicted r js e) hl (.inl he) ?_
  intro js i _ hm ih hi
  have hdown := (hm.custody.handover hm.forest hi (step_event _ i)).down e.2
  rcases ih with hp | hd | hx
  · by_cases hp' : e ∈ ((r.run js).1.step i).1.pool
    · exact .inl hp'
    by_cases hd : e.2 ∈ (r.run js).1.down
    · exact .inr (.inl (hdown hd))
    obtain ⟨t, ht, choice, rfl, htj, -, hn, -⟩ := hm.leaves hi hp hd hp'
    refine .inr (.inr ⟨js, _, [], rfl, t.id, choice, rfl, ?_, hn⟩)
    rw [hm.forest.job?_eq ht, htj]
  · exact .inr (.inl (hdown hd))
  · exact .inr (.inr (hx.concat i))

/-- While a refresh waits for the answer of a node, the connection stays in the pool until it ends. -/
theorem Reaches.asked_pooled (h : Reaches s is r log) (ht : t ∈ r.tasks) (hj : t.job = .refresh stage)
    (ha : stage.asks? = some e) : e ∈ r.pool ∨ e.2 ∈ r.down := by
  induction h generalizing t stage with
  | start => cases ht
  | @step is r log i h hi ih =>
    have hdown := (h.custody.handover h.forest hi (step_event _ i)).down e.2
    rcases step_refresh h.forest h.lock i ht hj with ⟨hu, -⟩ |
      ⟨u, hu, stage₀, choice, fresh, core, -, -, huj, hx, hr⟩ | ⟨rfl, -⟩
    · rcases ih hu hj ha with hp | hd
      · have hloading : t.job.loading = true := by
          rw [hj]
          exact RefreshStage.loading_of_asks ha
        rcases h.stays hi hu hloading hp with hp | hd | ⟨-, hev, -⟩
        · exact .inl hp
        · exact .inr (hdown hd)
        · rw [hj] at hev
          cases hev
          cases ha
      · exact .inr (hdown hd)
    · rw [hr, turn_eq]
      generalize ((r.step i).2) = acts at hx
      cases hx with
      | choose hpick =>
        cases ha
        exact .inl (mem_of_pick hpick)
      | ask =>
        exact ih hu huj ha
      | _ => cases ha
    · cases ha

/-- When a refresh has a table, the connection that gave it is pooled or has ended. -/
theorem Reaches.heard_pooled (h : Reaches s is r log) (hh : Hears r id choice e table) :
    e ∈ (r.step (.step id choice)).1.pool ∨ e.2 ∈ (r.step (.step id choice)).1.down := by
  obtain ⟨failed, k, hjob⟩ := hh.1
  obtain ⟨t, ht, rfl, htj⟩ := exists_of_job? hjob
  obtain ⟨-, hpool, -⟩ := quiet_of_refresh h.forest ht htj rfl choice
  have hi : r.Admits (.step t.id choice) := trivial
  rcases h.asked_pooled ht htj rfl with hp | hd
  · exact .inl (hpool ▸ hp)
  · exact .inr ((h.custody.handover h.forest hi (step_event _ _)).down _ hd)

/-- A refresh that has a table has taken up the answer of a node. -/
theorem Reaches.heard (h : Reaches s is r log) (ht : t ∈ r.tasks) (hj : t.job = .refresh stage)
    (hs : stage.loaded = true) : ∃ before choice e table js,
      is = before ++ .step t.id choice :: js ∧ Hears (after s before) t.id choice e table := by
  induction h generalizing t stage with
  | start => cases ht
  | @step is r log i h hi ih =>
    have later {t : Task} {stage : RefreshStage} (ht : t ∈ r.tasks) (hj : t.job = .refresh stage)
        (hs : stage.loaded = true) : ∃ before choice e table js,
          is ++ [i] = before ++ .step t.id choice :: js ∧
            Hears (after s before) t.id choice e table := by
      obtain ⟨before, choice, e, table, js, rfl, hh⟩ := ih ht hj hs
      exact ⟨before, choice, e, table, js ++ [i], by simp, hh⟩
    have hnext := (h.step hi).forest.job?_eq ht
    rcases step_refresh h.forest h.lock i ht hj with ⟨hu, -⟩ |
      ⟨u, hu, stage₀, choice, fresh, core, rfl, hid, huj, hx, -⟩ | ⟨rfl, -⟩
    · exact later hu hj hs
    · by_cases hs₀ : stage₀.loaded = true
      · have hlater := later hu huj hs₀
        rwa [hid] at hlater
      · have hjob := h.forest.job?_eq hu
        rw [hid, huj] at hjob
        rw [hj] at hnext
        generalize ((r.step (.step t.id choice)).2) = acts at hx
        cases hx with
        | @load failed a c k reply table =>
          refine ⟨is, choice, (a, c), table, [], rfl, ?_⟩
          rw [← h.eq_after]
          exact ⟨⟨failed, k, hjob⟩, hnext⟩
        | enter | lock | choose | giveUp | mute | ask | rebuffed => cases hs
        | _ => exact absurd rfl hs₀
    · cases hs

/-- A refresh that has returned well took up the answer of a node before. -/
theorem Reaches.refreshed (h : Reaches s is r log) (ht : t ∈ r.tasks)
    (hj : t.job = .refresh (.done (.ok ()))) : ∃ before choice e table js i ks,
      is = before ++ .step t.id choice :: (js ++ i :: ks) ∧
        Refreshes s before t.id choice e table js i := by
  induction h generalizing t with
  | start => cases ht
  | @step is r log i h hi ih =>
    have hdone := (h.step hi).forest.refreshResult?_eq ht hj
    rcases step_refresh h.forest h.lock i ht hj with ⟨hu, -⟩ |
      ⟨u, hu, stage₀, choice, fresh, core, rfl, hid, huj, hx, -⟩ | ⟨hs, -⟩
    · obtain ⟨before, choice, e, table, js, j, ks, rfl, hr⟩ := ih hu hj
      exact ⟨before, choice, e, table, js, j, ks ++ [i], by simp, hr⟩
    · -- It returns with this step.
      have hbefore : stage₀.loaded = true ∧ ∀ result, stage₀ ≠ .done result := by
        generalize ((r.step (.step t.id choice)).2) = acts at hx
        cases hx with
        | installEmpty | finish => exact ⟨rfl, nofun⟩
      obtain ⟨before, choice', e, table, js, rfl, hh⟩ := h.heard hu huj hbefore.1
      rw [hid] at hh ⊢
      refine ⟨before, choice', e, table, js, .step t.id choice, [], by simp, hh, ?_⟩
      rw [← hid, ← h.eq_after]
      refine ⟨?_, hid ▸ hdone⟩
      unfold refreshResult?
      rw [h.forest.job?_eq hu, huj]
      split
      next heq =>
        cases heq
        exact absurd rfl (hbefore.2 _)
      · rfl
    · cases hs

/-- An opening ends well when its refresh has returned well. -/
theorem Event.opened (h : Event r i r' acts) (ha : .finish id (.opened (.ok ())) ∈ acts) :
    r'.pool = r.pool ∧ r'.down = r.down ∧ ∃ t ∈ r.tasks, t.id = id ∧
      ∃ d, t.job = .opening (.loading d) ∧ r.refreshResult? d = some (.ok ()) := by
  cases h with
  | turn ht h =>
    cases h with
    | dial h => cases h <;> simp at ha
    | refresh h =>
      cases h with
      | fill => exact absurd ha (not_finish_of_warn (dialWarnings_warn r _))
      | _ => simp at ha
    | send h =>
      cases h with
      | refreshed _ _ hw => exact absurd ha (not_finish_of_warn hw)
      | _ => simp at ha
    | opening h =>
      cases h with
      | loaded hd =>
        obtain rfl := by simpa using ha
        exact ⟨by rw [turn_eq], by rw [turn_eq], _, ht, rfl, _, rfl, hd⟩
      | _ => simp at ha
    | recovered _ hw => exact absurd ha (not_finish_of_warn hw)
    | _ => simp at ha
  | call h => cases h <;> simp at ha
  | news h => cases h <;> simp at ha

section Live

variable (he : e ∈ r.pool) (hd : e.2 ∉ r.down)

include he hd

theorem exists_pick (choice : Nat) : ∃ x ∈ r.pool, x.2 ∉ r.down ∧ r.pick [] choice = some x := by
  cases hpick : r.pick [] choice with
  | none => exact absurd (down_of_pick_nil hpick e he) hd
  | some x =>
    obtain ⟨hp, hlive⟩ := mem_of_pick_nil hpick
    exact ⟨x, hp, hlive, rfl⟩

theorem Reaches.chooses_live (h : Reaches s is r log) (ht : t ∈ r.tasks)
    (hj : t.job = .refresh (.choosing [])) (choice : Nat) : ∃ x ∈ r.pool, x.2 ∉ r.down ∧
      (r.step (.step t.id choice)).1.job? t.id = some (.refresh (.asking [] x.1 x.2)) := by
  obtain ⟨⟨a, c⟩, hp, hlive, hpick⟩ := exists_pick he hd choice
  have hi : r.Admits (.step t.id choice) := trivial
  have hf := (h.step hi).forest
  obtain ⟨tid, root, job⟩ := t
  cases hj
  refine ⟨(a, c), hp, hlive, ?_⟩
  rcases step_own h.forest ht choice with ⟨hno, -⟩ | ⟨job?, fresh, core, acts, hx, hstep⟩
  · cases hno
  · have hg := hx.grows
    cases hx with
    | refresh hx =>
      cases hx with
      | choose hpick' =>
        cases hpick.symm.trans hpick'
        rw [hstep] at hf ⊢
        exact hf.job?_eq ((h.forest.mem_turn ht hg).mpr (.inr (.inl ⟨_, rfl, rfl⟩)))
      | giveUp hnone => cases hpick.symm.trans hnone

/-- A command without a key goes to a live connection. -/
theorem Reaches.routes_live (h : Reaches s is r log) {command : Command} (hslot : command.slot = none)
    (choice : Nat) : ∃ x ∈ r.pool, x.2 ∉ r.down ∧ ∃ sending : Sending, sending.command = command ∧
      sending.stage = .submit x.2 ∧
      ((r.started command).step (.step r.next choice)).1.job? r.next = some (.send sending) := by
  have hm := h.started command
  have hi : (r.started command).Admits (.step r.next choice) := trivial
  have hf := (hm.step hi).forest
  have ht : ⟨r.next, r.next, r.sending command⟩ ∈ (r.started command).tasks :=
    List.mem_append_right _ (List.mem_singleton_self _)
  obtain ⟨⟨a, c⟩, hp, hlive, hpick⟩ := exists_pick (r := r.started command) he hd choice
  obtain ⟨s', fresh, acts, hx, hg, hstep⟩ := step_route hm.forest ht rfl choice
  have htarget : (r.started command).target? command choice = none := by
    unfold target?
    rw [hslot]
    rfl
  refine ⟨(a, c), hp, hlive, ?_⟩
  cases hx with
  | route ha => cases htarget.symm.trans ha
  | anywhere _ hpick' =>
    cases hpick.symm.trans hpick'
    rw [hstep] at hf ⊢
    exact ⟨_, rfl, rfl, hf.job?_eq ((hm.forest.mem_turn ht hg).mpr (.inr (.inl ⟨_, rfl, rfl⟩)))⟩
  | nowhere _ hnone => cases hpick.symm.trans hnone

end Live

/-- A refresh that returned well has met each listed node, and what it had in the pool then is there until
it ends or a later refresh takes it out. -/
theorem Reaches.left_by_refresh (h : Reaches s is r log) {before ks : List Input}
    (his : is = before ++ .step id choice :: (js ++ i :: ks))
    (hr : Refreshes s before id choice e table js i) :
    let heard := after s (before ++ [.step id choice])
    (e ∈ heard.pool ∨ e.2 ∈ r.down) ∧
    (table.addresses ≠ [] → Met heard id table js) ∧
    ∀ x, (table.addresses ≠ [] → x.1 ∈ table.addresses) → Once heard js x →
      x ∈ r.pool ∨ x.2 ∈ r.down ∨ Evicted (heard.run (js ++ [i])).1 ks x := by
  intro heard
  obtain ⟨hhears, hret⟩ := hr
  have hsplit : is = (before ++ [.step id choice]) ++ (js ++ i :: ks) := by simp [his]
  rw [hsplit] at h
  obtain ⟨_, hm, hl, hrun⟩ := h.cut
  have hretained : Returns (heard.run js).1 id i := by
    rw [← after_append]
    simpa using hret
  obtain ⟨hjs, hi, hks⟩ := admitsAll_append.mp hl
  have hjob : heard.job? id = some (.refresh (.comparing table)) := by
    rw [show heard = _ from after_concat _ _ _]
    exact hhears.2
  have hback := (hm.run js hjs).step hi
  have hrback : r = ((heard.run (js ++ [i])).1.run ks).1 := by
    rw [hrun, run_concat, run_append]
    rfl
  obtain ⟨hpool, hdown, -, hlast⟩ := hm.returned hjob hjs hretained
  refine ⟨?_, fun hne => ?_, fun x hx ho => ?_⟩
  · obtain ⟨_, hb, -, -⟩ := hm.cut
    have hpooled := hb.heard_pooled hhears
    rw [← after_concat] at hpooled
    exact hpooled.imp_right fun hd => hrun ▸ hm.down_run hl hd
  · obtain ⟨hclosing, -⟩ := hlast.resolve_left fun hx => hne hx.2
    obtain ⟨u, hu, hid, huj⟩ := exists_of_job? hclosing
    exact (hm.on_course hjob hjs u hu hid _ huj).2.2.1
  · obtain ⟨stage, hstage, hloading⟩ : ∃ stage, (heard.run js).1.job? id = some (.refresh stage) ∧
        stage.loading = true := by
      rcases hlast with ⟨hj, -⟩ | ⟨hj, -⟩
      · exact ⟨_, hj, rfl⟩
      · exact ⟨_, hj, rfl⟩
    have hstays := hm.listed_stays hjob hjs hstage hloading hx ho
    rw [← hpool, ← hdown] at hstays
    rw [hrback, run_concat]
    rcases hstays with hp | hd
    · exact hback.stays_or_evicted hks hp
    · exact .inr (.inl (hback.down_run hks hd))

/-- What a refresh that returned well leaves in the pool. Let it have taken up the answer of the node of
`e`. As long as that connection lives, it is pooled if its node is listed or nothing is, unless a later
refresh has taken it out. If nothing in the pool lives, then it has ended, or only other nodes were listed;
and no listed node could be reached, or its connection has ended. An opening that ends well has such a
refresh behind it. And with a live connection in the pool, a refresh has a node to ask and a command
without a key has one to go to. -/
theorem refresh_leaves_live_connection (h : Reaches s is r log) :
    (∀ before id choice e table js i ks, is = before ++ .step id choice :: (js ++ i :: ks) →
      Refreshes s before id choice e table js i →
      let heard := after s (before ++ [.step id choice])
      let back := (heard.run (js ++ [i])).1
      (e.2 ∉ r.down → (table.addresses ≠ [] → e.1 ∈ table.addresses) →
        e ∈ r.pool ∨ Evicted back ks e) ∧
      ((∀ x ∈ r.pool, x.2 ∈ r.down) →
        (e.2 ∈ r.down ∨ (table.addresses ≠ [] ∧ e.1 ∉ table.addresses) ∨ Evicted back ks e) ∧
        ∀ a ∈ table.addresses, Missed heard id js a ∨
          ∃ c, Once heard js (a, c) ∧ (c ∈ r.down ∨ Evicted back ks (a, c)))) ∧
    (∀ id i, .finish id (.opened (.ok ())) ∈ (r.step i).2 →
      (r.step i).1.pool = r.pool ∧ (r.step i).1.down = r.down ∧
      ∃ t ∈ r.tasks, t.id = id ∧ ∃ d, t.job = .opening (.loading d) ∧
        ∃ before choice e table js j ks, is = before ++ .step d choice :: (js ++ j :: ks) ∧
          Refreshes s before d choice e table js j) ∧
    ∀ x ∈ r.pool, x.2 ∉ r.down →
      (∀ t ∈ r.tasks, t.job = .refresh (.choosing []) → ∀ choice, ∃ y ∈ r.pool, y.2 ∉ r.down ∧
        (r.step (.step t.id choice)).1.job? t.id = some (.refresh (.asking [] y.1 y.2))) ∧
      ∀ command : Command, command.slot = none → ∀ choice, ∃ y ∈ r.pool, y.2 ∉ r.down ∧
        ∃ sending : Sending, sending.command = command ∧ sending.stage = .submit y.2 ∧
          ((r.started command).step (.step r.next choice)).1.job? r.next = some (.send sending) := by
  refine ⟨?_, ?_, fun x hx hlive => ⟨?_, ?_⟩⟩
  · intro before id choice e table js i ks his hr heard back
    obtain ⟨hpooled, hmet, hstays⟩ := h.left_by_refresh his hr
    have hanswered (hl : table.addresses ≠ [] → e.1 ∈ table.addresses) :
        e ∈ r.pool ∨ e.2 ∈ r.down ∨ Evicted back ks e := by
      rcases hpooled with hp | hd
      · exact hstays e hl ⟨[], js, rfl, hp⟩
      · exact .inr (.inl hd)
    refine ⟨fun hlive hl => ?_, fun hdown => ⟨?_, fun a ha => ?_⟩⟩
    · rcases hanswered hl with hp | hd | hx
      · exact .inl hp
      · exact absurd hd hlive
      · exact .inr hx
    · by_cases hl : table.addresses ≠ [] → e.1 ∈ table.addresses
      · rcases hanswered hl with hp | hd | hx
        · exact .inl (hdown e hp)
        · exact .inl hd
        · exact .inr (.inr hx)
      · exact .inr (.inl (Classical.not_imp.mp hl))
    · rcases hmet (List.ne_nil_of_mem ha) a ha with ⟨c, ho⟩ | hm
      · refine .inr ⟨c, ho, ?_⟩
        rcases hstays (a, c) (fun _ => ha) ho with hp | hd | hx
        · exact .inl (hdown _ hp)
        · exact .inl hd
        · exact .inr hx
      · exact .inl hm
  · intro id i hfinish
    obtain ⟨hpool, hdown, t, ht, hid, d, hj, hres⟩ := (step_event r i).opened hfinish
    refine ⟨hpool, hdown, t, ht, hid, d, hj, ?_⟩
    obtain ⟨u, hu, rfl, huj⟩ := exists_of_refreshResult? hres
    exact h.refreshed hu huj
  · intro t ht hj choice
    exact h.chooses_live hx hlive ht hj choice
  · intro command hslot choice
    exact h.routes_live hx hlive hslot choice

/-- The connection whose answer a refresh waits for. -/
def awaited? (r : Router) (id : TaskId) : Option (String × ConnId) :=
  match r.job? id with
  | some (.refresh (.awaiting _ a c _)) => some (a, c)
  | _ => none

theorem exists_hears {addresses : List String} (he : r.awaited? id = some e)
    (hl : (r.step (.step id choice)).1.listing? id = some addresses) :
    ∃ table, table.addresses = addresses ∧ Hears r id choice e table := by
  obtain ⟨table, hj, haddr⟩ := exists_of_listing? hl
  refine ⟨table, haddr, ?_, hj⟩
  unfold awaited? at he
  split at he
  next failed a c k hj =>
    cases he
    exact ⟨failed, k, hj⟩
  · cases he

def endings (id : TaskId) (acts : List Action) : List (Option ClientError) :=
  acts.filterMap fun
    | .finish t result =>
      if t = id then
        match result with
        | .opened (.error e) | .refreshed (.error e) | .sent (.error e) => some (some e)
        | _ => some none
      else none
    | _ => none

/-- A client of one node opens, and the node answers that all the slots are at one host. -/
def handed (host : String) : List Input :=
  [.opening, .step 0 0, .step 1 0, .dialed 1 (.ok 0), .step 1 0, .step 1 0, .step 1 0, .step 0 0,
    .step 2 0, .step 2 0, .step 2 0, .step 2 0, .reply 3 (alone host)]

/-- The host is the node itself, and nothing has to be done. -/
def agreeing : List Input := List.replicate 4 (.step 2 0)

/-- The connection stays, and a command goes there. -/
theorem refresh_leaves_live_connection_listed :
    let r := after { seeds := ["a:1"] } (handed "a" ++ .step 2 0 :: (agreeing ++ [.step 2 0]))
    ("a:1", 0) ∈ r.pool ∧ ∃ sending : Sending, sending.stage = .submit 0 ∧
      ((r.started (Command.ofName "PING")).step (.step r.next 0)).1.job? r.next =
        some (.send sending) := by
  intro r
  have hr : Reaches _ _ r _ := Reaches.start.run
    (handed "a" ++ .step 2 0 :: (agreeing ++ [.step 2 0])) (by decide +kernel)
  have hpool : r.pool = [("a:1", 0)] := by decide +kernel
  have hdown : r.down = [] := by decide +kernel
  have hslot : (Command.ofName "PING").slot = none := by decide +kernel
  obtain ⟨table, haddr, hhears⟩ :
      ∃ table, table.addresses = ["a:1"] ∧ Hears (after _ (handed "a")) 2 0 ("a:1", 0) table :=
    exists_hears (r := after { seeds := ["a:1"] } (handed "a")) (by decide +kernel) (by decide +kernel)
  have hret : Returns (after { seeds := ["a:1"] } (handed "a" ++ .step 2 0 :: agreeing)) 2
      (.step 2 0) := by decide +kernel
  obtain ⟨hkept, -, hlive⟩ := refresh_leaves_live_connection hr
  obtain ⟨hstays, -⟩ := hkept _ 2 0 _ table agreeing (.step 2 0) [] rfl ⟨hhears, hret⟩
  have hmem : ("a:1", 0) ∈ r.pool := by
    rcases hstays (by rw [hdown]; simp) (by rw [haddr]; simp) with hp | ⟨ks, i, ls, hk, -⟩
    · exact hp
    · simp at hk
  obtain ⟨y, hy, -, sending, -, hstage, hjob⟩ :=
    (hlive _ hmem (by rw [hdown]; simp)).2 (Command.ofName "PING") hslot 0
  rw [hpool, List.mem_singleton] at hy
  rw [hy] at hstage
  exact ⟨hmem, sending, hstage, hjob⟩

/-- The host is another one, and it refuses the connection. -/
def deserting : List Input :=
  [.step 2 0, .step 4 0, .dialed 4 (.error .connectionClosed), .step 2 0, .step 2 0, .step 2 0,
    .step 2 0]

/-- An opening may end well with an empty pool, while the connection that gave the table lives. Then no
command and no refresh has a node to go to. -/
theorem stranded_by_unreachable_node :
    let s : ClusterSettings := { seeds := ["a:1"] }
    let is := handed "b" ++ .step 2 0 :: (deserting ++ [.step 2 0])
    let r := after s is
    (∃ log, Reaches s is r log) ∧
    (∃ table, table.addresses = ["b:1"] ∧
      Refreshes s (handed "b") 2 0 ("a:1", 0) table deserting (.step 2 0)) ∧
    r.pool = [] ∧ r.opened = [(0, "a:1")] ∧ r.down = [] ∧
    endings 0 (r.step (.step 0 0)).2 = [none] ∧
    endings 5 ((r.step (.step 0 0)).1.run [.send (Command.ofName "PING"), .step 5 0]).2 =
      [some .noConnection] ∧
    endings 5 ((r.step (.step 0 0)).1.run
      [.reload, .step 5 0, .step 6 0, .step 6 0, .step 6 0, .step 5 0]).2 = [some .noConnection] := by
  intro s is r
  have hr : Reaches s is r _ := Reaches.start.run is (by decide +kernel)
  obtain ⟨table, haddr, hhears⟩ :
      ∃ table, table.addresses = ["b:1"] ∧ Hears (after s (handed "b")) 2 0 ("a:1", 0) table :=
    exists_hears (by decide +kernel) (by decide +kernel)
  have hret : Returns (after s (handed "b" ++ .step 2 0 :: deserting)) 2 (.step 2 0) := by
    decide +kernel
  exact ⟨⟨_, hr⟩, ⟨table, haddr, hhears, hret⟩, by decide +kernel, by decide +kernel,
    by decide +kernel, by decide +kernel, by decide +kernel, by decide +kernel⟩

end Router

end RespClient.Cluster
