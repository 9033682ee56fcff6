import RespClient.Proofs.Cluster.Router.Liveness
import RespClient.Proofs.Cluster.Router.Pool

namespace RespClient.Cluster

def Input.isCall : Input → Bool
  | opening | send _ | reload => true
  | _ => false

namespace Router

variable {s : ClusterSettings} {is later js : List Input} {i : Input} {r r' core : Router}
  {log acts : List Action} {c : ConnId} {e : String × ConnId}

theorem root_of_mem_recruits {root n : TaskId} {fresh : List Job} {u : Task}
    (h : u ∈ recruits root fresh n) : u.root = root := by
  obtain ⟨_, -, rfl⟩ := List.mem_map.mp h
  rfl

theorem Turn.closed {t : Task} {job? : Option Job} {fresh : List Job}
    (h : Turn r i t job? fresh core acts) (hc : r.closed = true) : core.closed = true := by
  cases h with
  | dial h => cases h <;> exact hc
  | refresh h => cases h <;> exact hc
  | send h => cases h <;> exact hc
  | opening h =>
    cases h with
    | miss | stuck => rfl
    | _ => exact hc
  | reload | reloaded | recover | recovered | dialed | refused | rested => exact hc

theorem Event.closed (h : Event r i r' acts) (hc : r.closed = true) : r'.closed = true := by
  cases h with
  | turn _ h => rw [turn_eq]; exact h.closed hc
  | call h =>
    cases h with
    | recovery => rw [forget_eq]; exact hc
    | _ => exact hc
  | news h =>
    cases h with
    | failed | ended => rw [forget_eq]; exact hc
    | close => rfl
    | _ => exact hc

/-- Without a call from outside, all tasks of a closed router work for somebody who was there. -/
theorem Event.root_mem (h : Event r i r' acts) (hf : Forest r) (hc : r.closed = true)
    (hi : i.isCall = false) {u : Task} (hu : u ∈ r'.tasks) : ∃ t ∈ r.tasks, t.root = u.root := by
  cases h with
  | turn ht h =>
    rcases (hf.mem_turn ht h.grows).mp hu with ⟨hu, -, -⟩ | ⟨job, -, rfl⟩ | hu
    · exact ⟨u, hu, rfl⟩
    · exact ⟨_, ht, rfl⟩
    · exact ⟨_, ht, (root_of_mem_recruits hu).symm⟩
  | call h =>
    cases h with
    | recovery h => cases hc.symm.trans h
    | opening | send | reload => cases hi
  | news h => exact ⟨u, h.spares.tasks ▸ hu, rfl⟩

/-- Since `r` was closed, a dial for somebody who was there has pooled a connection. -/
def Joined (r : Router) (later : List Input) (e : String × ConnId) : Prop :=
  ∃ js choice ks t, later = js ++ .step t.id choice :: ks ∧ t ∈ (r.close.1.run js).1.tasks ∧
    t.job = .dial e.1 (.join e.2) ∧ ∃ u ∈ r.tasks, u.root = t.root

/-- Since `r` was closed, the end of a connection that is down was handled. -/
def Handled (r : Router) (later : List Input) (c : ConnId) : Prop :=
  ∃ js ks, later = js ++ .ended c :: ks ∧ c ∈ (r.close.1.run js).1.down

theorem Joined.concat (h : Joined r later e) (i : Input) : Joined r (later ++ [i]) e := by
  obtain ⟨js, choice, ks, t, rfl, h⟩ := h
  exact ⟨js, choice, ks ++ [i], t, by simp, h⟩

/-- What is the case after some inputs that followed the close. -/
structure Winding (r : Router) (later : List Input) (r' : Router) : Prop where
  closed : r'.closed = true
  roots : ∀ u ∈ r'.tasks, ∃ t ∈ r.tasks, t.root = u.root
  pool : ∀ e ∈ r'.pool, e ∈ r.pool ∨ Joined r later e

theorem Reaches.close (h : Reaches s is r log) :
    Reaches s (is ++ [.close]) r.close.1 (log ++ r.close.2) := h.step (i := .close) trivial

theorem Reaches.winding (h : Reaches s is r log) (hl : r.close.1.AdmitsAll later)
    (hq : ∀ i ∈ later, i.isCall = false) : Winding r later (r.close.1.run later).1 := by
  refine h.close.induct_run (P := fun js r' _ => (∀ i ∈ js, i.isCall = false) → Winding r js r') hl
    (fun _ => ⟨rfl, fun u hu => ⟨u, hu, rfl⟩, fun e he => .inl he⟩) (fun {js i} _ hm ih _ hq => ?_) hq
  obtain ⟨hjs, hi⟩ := List.forall_mem_append.mp hq
  have hw := ih hjs
  have hx := step_event (r.close.1.run js).1 i
  refine ⟨hx.closed hw.closed, fun u hu => ?_, fun e he => ?_⟩
  · obtain ⟨t, ht, hroot⟩ := hx.root_mem hm.forest hw.closed (hi i (List.mem_singleton_self i)) hu
    rw [← hroot]
    exact hw.roots t ht
  · rcases hx.joins hm.forest hm.custody.keys he with he | ⟨t, ht, ⟨choice, rfl⟩, hj, -⟩
    · exact (hw.pool e he).imp_right fun hj => hj.concat i
    · exact .inr ⟨js, choice, [], t, rfl, ht, hj, hw.roots t ht⟩

/-- Closing a router asks each connection that is pooled to close, and no failure starts a recovery from
then on. So with no more calls all work belongs to somebody who was under way. What is in the pool later
was there, was asked to close, and did not have its end handled; or it was pooled since by a dial that
works for one of those. The latter connections apart, each one that the router opened is down, was
asked to close or is about to be asked, has a dial under way, or is held by nobody. If nobody was under
way, nobody ever is, and nothing is left in the pool when the ends of all that were there are handled. -/
theorem closes_all_but_joined (h : Reaches s is r log) (hl : r.close.1.AdmitsAll later)
    (hq : ∀ i ∈ later, i.isCall = false) :
    let r' := (r.close.1.run later).1
    let acts := r.close.2 ++ (r.close.1.run later).2
    r'.closed = true ∧ (∀ u ∈ r'.tasks, ∃ t ∈ r.tasks, t.root = u.root) ∧
    (∀ e ∈ r'.pool, e ∈ r.pool ∧ .close e.2 ∈ acts ∧ ¬ Handled r later e.2 ∨ Joined r later e) ∧
    (∀ e ∈ r'.opened, e.1 ∈ r'.down ∨ .close e.1 ∈ log ++ acts ∨
      (∃ t ∈ r'.tasks, e.1 ∈ t.job.evicts ∨ t.job.own? = some (e.2, e.1)) ∨ e.1 ∉ r'.holds ∨
      (e.2, e.1) ∈ r'.pool ∧ Joined r later (e.2, e.1)) ∧
    (r.tasks = [] → r'.tasks = [] ∧ ((∀ e ∈ r.pool, Handled r later e.2) → r'.nodes = [])) := by
  intro r' acts
  have hw : Winding r later r' := h.winding hl hq
  have hr : Reaches s (is ++ [.close] ++ later) r' (log ++ r.close.2 ++ _) := h.close.run later hl
  have asked (e : String × ConnId) (he : e ∈ r.pool) : .close e.2 ∈ acts :=
    List.mem_append_left _ (List.mem_map_of_mem he)
  have unhandled (e : String × ConnId) (he : e ∈ r'.pool) : ¬ Handled r later e.2 := by
    rintro ⟨js, ks, rfl, hd⟩
    exact h.close.unpooled_of_handled hl hd (List.mem_map_of_mem he)
  refine ⟨hw.closed, hw.roots, fun e he => ?_, fun ⟨c, a⟩ he => ?_,
    fun hnone => ⟨?_, fun hall => ?_⟩⟩
  · exact (hw.pool e he).imp_left fun hp => ⟨hp, asked e hp, unhandled e he⟩
  · have hc := hr.custody
    by_cases hh : c ∈ r'.holds
    · rcases hc.of_holds hh with hp | ⟨t, ht, a', ho⟩ | hd | hclose | ⟨t, ht, hv⟩
      · obtain ⟨e, hpool, rfl⟩ := List.mem_map.mp hp
        cases List.inj_on_of_nodup_map hc.opened (hc.stored e hpool) he rfl
        rcases hw.pool e hpool with hp | hj
        · exact .inr (.inl (List.mem_append_right _ (asked e hp)))
        · exact .inr (.inr (.inr (.inr ⟨hpool, hj⟩)))
      · cases List.inj_on_of_nodup_map hc.opened (hc.owned t ht _ ho) he rfl
        exact .inr (.inr (.inl ⟨t, ht, .inr ho⟩))
      · exact .inl hd
      · exact .inr (.inl (by rwa [List.append_assoc] at hclose))
      · exact .inr (.inr (.inl ⟨t, ht, .inl hv⟩))
    · exact .inr (.inr (.inr (.inl hh)))
  · refine List.eq_nil_iff_forall_not_mem.mpr fun u hu => ?_
    obtain ⟨t, ht, -⟩ := hw.roots u hu
    rw [hnone] at ht
    cases ht
  · have hpool : r'.pool = [] := by
      refine List.eq_nil_iff_forall_not_mem.mpr fun e he => ?_
      rcases hw.pool e he with hp | ⟨_, _, _, _, -, -, -, u, hu, -⟩
      · exact unhandled e he (hall e hp)
      · rw [hnone] at hu
        cases hu
    simp [nodes, hpool]

/-- A router with one node, and a command that the node sends to another one: the connection there is
open, and the next step of its dial pools it. -/
def diverted : List Input :=
  [.opening, .step 0 0, .step 1 0, .dialed 1 (.ok 0), .step 1 0, .step 1 0, .step 1 0, .step 0 0,
    .step 2 0, .step 2 0, .step 2 0, .step 2 0,
    .reply 3 (.ok (.multi (some [.multi (some [.integer 0, .integer 9,
      .multi (some [.status "a", .integer 1])])]))),
    .step 2 0, .step 2 0, .step 2 0, .step 2 0, .step 2 0, .step 2 0, .step 0 0,
    .send (Command.ofName "PING"), .step 4 0, .step 4 0, .reply 5 (.error (.reply "ASK 5 b:2")),
    .step 4 0, .step 6 0, .dialed 6 (.ok 1), .step 6 0, .step 6 0]

/-- The command comes to its end, and so does the connection that was asked. -/
def unwinding : List Input :=
  [.step 6 0, .step 4 0, .step 4 0, .step 4 0, .reply 7 (.ok (.status "OK")), .step 4 0,
    .reply 8 (.ok (.status "PONG")), .step 4 0, .down 0, .ended 0]

/-- The one connection that was pooled at the close is asked, and gone when its end is handled. -/
theorem closes_all_but_joined_diverted :
    let r := after { seeds := ["a:1"] } diverted
    r.close.1.AdmitsAll unwinding ∧ (∀ i ∈ unwinding, i.isCall = false) ∧
      ∀ e ∈ (r.close.1.run unwinding).1.pool, e.2 = 0 → Joined r unwinding e := by
  intro r
  have hr : Reaches _ diverted r _ := Reaches.start.run diverted (by decide +kernel)
  have hl : r.close.1.AdmitsAll unwinding := by decide +kernel
  have hq : ∀ i ∈ unwinding, i.isCall = false := by decide +kernel
  refine ⟨hl, hq, fun e he h0 => ?_⟩
  have hhandled : Handled r unwinding 0 := ⟨unwinding.take 9, [], rfl, by decide +kernel⟩
  rcases (closes_all_but_joined hr hl hq).2.2.1 e he with ⟨-, -, hn⟩ | hj
  · exact absurd (h0 ▸ hhandled) hn
  · exact hj

def asked? : Action → Option ConnId
  | .close c => some c
  | _ => none

/-- A connection may be pooled after the close, alive, and never be asked to close: all work is over, no
call came in since, and a node is left. -/
theorem joined_after_close :
    let r := after { seeds := ["a:1"] } diverted
    let r' := (r.close.1.run unwinding).1
    (∃ log, Reaches { seeds := ["a:1"] } (diverted ++ [.close] ++ unwinding) r' log ∧
      .close 1 ∉ log) ∧
    (∀ i ∈ unwinding, i.isCall = false) ∧ r.pool = [("a:1", 0)] ∧ r'.tasks = [] ∧
      r'.pool = [("b:2", 1)] ∧ 1 ∉ r'.down ∧ r'.nodes = ["b:2"] := by
  intro r r'
  have hr : Reaches _ diverted r _ := Reaches.start.run diverted (by decide +kernel)
  have hl : r.close.1.AdmitsAll unwinding := by decide +kernel
  have hpool : r'.pool = [("b:2", 1)] := by decide +kernel
  have hdown : r'.down = [0] := by decide +kernel
  have htasks : r'.tasks.length = 0 := by decide +kernel
  refine ⟨⟨_, hr.close.run unwinding hl, fun hm => ?_⟩, by decide +kernel, by decide +kernel,
    List.length_eq_zero_iff.mp htasks, hpool, by rw [hdown]; decide, by simp [nodes, hpool]⟩
  have hasked : ([] ++ (run { settings := { seeds := ["a:1"] } } diverted).2 ++ r.close.2 ++
      (r.close.1.run unwinding).2).filterMap asked? = [0] := by decide +kernel
  have hone : 1 ∈ List.filterMap asked? _ := List.mem_filterMap.mpr ⟨_, hm, rfl⟩
  rw [hasked] at hone
  simp at hone

end Router

end RespClient.Cluster
