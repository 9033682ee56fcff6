import Mathlib.Data.List.Infix
import RespClient.Proofs.Sentinel.Resolver.Custody
import RespClient.Proofs.Sentinel.Resolver.Helpers

namespace RespClient.Sentinel

/-- How many turns at most a resolve has left, when `n` endpoints are listed. -/
def ResolveStage.due (n : Nat) : ResolveStage → Nat
  | start => 6 * n + 2
  | probing rest => 6 * rest.length + 1
  | calling _ rest => 6 * rest.length + 6
  | asking _ rest _ => 6 * rest.length + 5
  | awaiting _ rest _ _ => 6 * rest.length + 4
  | hangingUp _ rest _ _ => 6 * rest.length + 3
  | judging _ rest _ => 6 * rest.length + 2
  | done _ => 0

def ResolveStage.result? : ResolveStage → Option (Except ClientError String)
  | done result => some result
  | _ => none

def Job.resolving : Job → Bool
  | .resolve _ _ (.done _) => false
  | .resolve _ _ _ => true
  | _ => false

def Job.calls : Job → Bool
  | .resolve _ _ (.calling _ _) | .notify .calling | .opening _ _ .calling => true
  | _ => false

/-- The addresses that task `id` dials. -/
def dials (id : TaskId) (acts : List Action) : List String :=
  acts.filterMap fun
    | .dial id' address => if id' = id then some address else none
    | _ => none

theorem dials_append (id : TaskId) (acts acts' : List Action) :
    dials id (acts ++ acts') = dials id acts ++ dials id acts' := List.filterMap_append

namespace Resolver

/-- Task `id` takes a turn: it could go on, or its attempt to connect is over. -/
def hasTurn (r : Resolver) (id : TaskId) (i : Input) : Bool :=
  match r.tasks.find? fun t => t.id == id with
  | none => false
  | some t =>
    match i with
    | .step id' _ => id' == id && r.isFree t
    | .dialed id' _ => id' == id && t.job.calls
    | _ => false

/-- How many turns task `id` takes. -/
def turns (r : Resolver) (id : TaskId) : List Input → Nat
  | [] => 0
  | i :: is => (r.hasTurn id i).toNat + (r.step i).1.turns id is

/-- No other resolve is under way from `r` on, as long as `js` come in. -/
def Alone (r : Resolver) (id : TaskId) (js : List Input) : Prop :=
  ∀ ks ∈ js.inits, ∀ t ∈ (r.run ks).1.tasks, t.job.resolving = true → t.id = id

instance (r : Resolver) (id : TaskId) (js : List Input) : Decidable (Alone r id js) :=
  inferInstanceAs (Decidable (∀ ks ∈ js.inits, ∀ t ∈ (r.run ks).1.tasks, _ → _))

section

variable (r : Resolver) (id : TaskId) (master : String) (role : Role) (endpoints : List String)
  (js : List Input)

/-- The attempt to connect to `e`, with `rest` behind it, has come to `result`. -/
def Met (e : String) (rest : List String) (result : Except ClientError ConnId) : Prop :=
  ∃ ks ls, js = ks ++ .dialed id result :: ls ∧
    (r.run ks).1.job? id = some (.resolve master role (.calling e rest))

/-- What asking `e`, with `rest` behind it, has come to. -/
inductive Told (e : String) (rest : List String) : Except ClientError String → Prop
  /-- It was not to be reached. -/
  | refused {x} (h : Met r id master role js e rest (.error x)) : Told e rest (.error x)
  /-- The connection ended before the question. -/
  | gone {ks ls choice c} (hj : js = ks ++ .step id choice :: ls)
      (h : Met r id master role ks e rest (.ok c)) (hd : (r.run ks).1.isDown c = true)
      (hs : (r.run ks).1.job? id = some (.resolve master role (.asking e rest c))) :
      Told e rest (.error .connectionClosed)
  /-- The question has an outcome. -/
  | answered {ks ls choice c k o} (hj : js = ks ++ .step id choice :: ls)
      (h : Met r id master role ks e rest (.ok c))
      (hq : .submit c k (questionFrame master role) ∈ (r.run ks).2)
      (hk : .reply k o ∈ ks) (hm : (r.run ks).1.mail? k = some o)
      (hs : (r.run ks).1.job? id = some (.resolve master role (.awaiting e rest c k)))
      {answer} (hv : Verdict e choice role o answer) : Told e rest answer

/-- The first `n` endpoints have not named an address. -/
def Failed (n : Nat) : Prop :=
  ∀ before e rest, endpoints = before ++ e :: rest → before.length < n →
    ∃ x, Told r id master role js e rest (.error x)

/-- The endpoints were dialed in order up to `e`, and those before it have not named an address. -/
def Dialed (e : String) (rest : List String) : Prop :=
  ∃ before, endpoints = before ++ e :: rest ∧ dials id (r.run js).2 = before ++ [e] ∧
    Failed r id master role endpoints js before.length

/-- A resolve waits for an answer that it has asked for. -/
inductive Waits : ResolveStage → Prop
  | connection {before e rest} (h : dials id (r.run js).2 = before ++ [e]) : Waits (.calling e rest)
  | reply {e rest c k}
      (h : .submit c k (questionFrame master role) ∈ (r.run js).2) :
      Waits (.awaiting e rest c k)

/-- Where a resolve stands that began to ask `endpoints` at `r`, when `js` have come in. -/
def Course : ResolveStage → Prop
  | .start => False
  | .probing rest => dials id (r.run js).2 ++ rest = endpoints ∧
      Failed r id master role endpoints js (dials id (r.run js).2).length
  | .calling e rest => Dialed r id master role endpoints js e rest
  | .asking e rest c => Dialed r id master role endpoints js e rest ∧
      Met r id master role js e rest (.ok c)
  | .awaiting e rest c k => Dialed r id master role endpoints js e rest ∧
      Met r id master role js e rest (.ok c) ∧ r.next ≤ k ∧
      .submit c k (questionFrame master role) ∈ (r.run js).2
  | .hangingUp e rest _ answer | .judging e rest answer =>
      Dialed r id master role endpoints js e rest ∧ Told r id master role js e rest answer
  | .done (.ok a) => ∃ e rest, Dialed r id master role endpoints js e rest ∧
      Told r id master role js e rest (.ok a)
  | .done (.error x) => x = .noEndpoints ∧ dials id (r.run js).2 = endpoints ∧
      Failed r id master role endpoints js endpoints.length

end

variable {s : SentinelSettings} {is js : List Input} {i : Input} {r r' core : Resolver}
  {log acts : List Action} {t u : Task} {job? fresh? : Option Job} {c : ConnId} {id : TaskId}
  {master e : String} {role : Role} {endpoints rest : List String} {stage stage' : ResolveStage}
  {answer : Except ClientError String}

theorem turns_concat (r : Resolver) (id : TaskId) (js : List Input) (i : Input) :
    r.turns id (js ++ [i]) = r.turns id js + ((r.run js).1.hasTurn id i).toNat := by
  induction js generalizing r with
  | nil => simp [turns, run]
  | cons j js ih => simp [turns, run, ih, Nat.add_assoc]

theorem hasTurn_eq_false (hi : ∀ choice, i ≠ .step id choice) (hi' : ∀ result, i ≠ .dialed id result) :
    r.hasTurn id i = false := by
  unfold hasTurn
  split
  · rfl
  · split
    · rw [beq_false_of_ne fun h => hi _ (by rw [h]), Bool.false_and]
    · rw [beq_false_of_ne fun h => hi' _ (by rw [h]), Bool.false_and]
    · rfl

theorem Turn.input (h : Turn r i t job? fresh? core acts) :
    (∃ choice, i = .step t.id choice) ∨ ∃ result, i = .dialed t.id result := by
  cases h <;> first | exact .inl ⟨_, rfl⟩ | exact .inr ⟨_, rfl⟩

theorem dials_eq_nil (h : ∀ address, .dial id address ∉ acts) : dials id acts = [] := by
  refine List.filterMap_eq_nil_iff.mpr ?_
  intro x hx
  split
  next id' address =>
    refine if_neg ?_
    rintro rfl
    exact h address hx
  · rfl

/-- The end of an attempt to connect is a turn of the resolve that waits for it, and of no other. -/
theorem dialed_resolve (hn : Numbered r) {root : TaskId}
    (ht : ⟨id, root, .resolve master role stage⟩ ∈ r.tasks) (result : Except ClientError ConnId) :
    (∃ stage', Turn r (.dialed id result) ⟨id, root, .resolve master role stage⟩
        (some (.resolve master role stage')) none r [] ∧
      r.dialed id result = (r.setJob id (.resolve master role stage'), [])) ∨
    (Job.resolve master role stage).calls = false ∧ r.dialed id result = (r, []) := by
  have hjob := hn.job?_eq ht
  simp only [dialed, hjob]
  cases stage with
  | calling e rest =>
    cases result with
    | ok c => exact .inl ⟨_, .reached, rfl⟩
    | error x => exact .inl ⟨_, .missed, rfl⟩
  | _ => exact .inr ⟨rfl, rfl⟩

/-- A resolve takes its turn, or its task stays or was over. -/
theorem step_resolve (hn : Numbered r) (ht : t ∈ r.tasks) (hj : t.job = .resolve master role stage)
    (i : Input) :
    (∃ stage' core acts, Turn r i t (some (.resolve master role stage')) none core acts ∧
      r.step i = (core.turn t (some (.resolve master role stage')) none, acts)) ∨
    r.hasTurn t.id i = false ∧ dials t.id (r.step i).2 = [] ∧
      (t ∈ (r.step i).1.tasks ∨ t.job.over = true ∧ ∀ u ∈ (r.step i).1.tasks, u.id ≠ t.id) := by
  obtain ⟨id, root, job⟩ := t
  cases hj
  by_cases hi : ∃ choice, i = .step id choice
  · obtain ⟨choice, rfl⟩ := hi
    rcases step_own hn ht choice with ⟨hfree, hstep⟩ | ⟨job?, fresh?, core, acts, hx, hstep⟩
    · refine .inr ⟨?_, by rw [hstep]; rfl, .inl (by rw [hstep]; exact ht)⟩
      simp only [hasTurn, hn.find?_eq ht, hfree, Bool.and_false]
    · have hturn := hx
      cases hx with
      | resolve hx => exact .inl ⟨_, _, _, hturn, hstep⟩
  by_cases hi' : ∃ result, i = .dialed id result
  · obtain ⟨result, rfl⟩ := hi'
    rcases dialed_resolve hn ht result with ⟨stage', hx, hstep⟩ | ⟨hc, hstep⟩
    · exact .inl ⟨stage', r, [], hx, by rw [turn_setJob rfl]; exact hstep⟩
    · change r.step (.dialed id result) = _ at hstep
      refine .inr ⟨?_, by rw [hstep]; rfl, .inl (by rw [hstep]; exact ht)⟩
      simp only [hasTurn, hn.find?_eq ht, hc, Bool.and_false]
  · have hstep : ∀ choice, i ≠ .step id choice := fun choice h => hi ⟨choice, h⟩
    have hdialed : ∀ result, i ≠ .dialed id result := fun result h => hi' ⟨result, h⟩
    have he := step_event r i
    refine .inr ⟨hasTurn_eq_false hstep hdialed, dials_eq_nil fun address ha => ?_, ?_⟩
    · obtain ⟨t, -, rfl, _, _, _, hx⟩ := he.dial_mem ha
      exact hx.input.elim hi hi'
    · rcases he.task_fate hn ht with hmem | ⟨job?, fresh?, core, hx, -⟩ | ho
      · exact .inl hmem
      · exact absurd hx.input (not_or.mpr ⟨hi, hi'⟩)
      · exact .inr ho

theorem Met.concat {result : Except ClientError ConnId} (h : Met r id master role js e rest result)
    (i : Input) : Met r id master role (js ++ [i]) e rest result := by
  obtain ⟨ks, ls, rfl, h⟩ := h
  exact ⟨ks, ls ++ [i], by simp, h⟩

theorem Told.concat (h : Told r id master role js e rest answer) (i : Input) :
    Told r id master role (js ++ [i]) e rest answer := by
  cases h with
  | refused h => exact .refused (h.concat i)
  | @gone ks ls choice c hj h hd hs =>
    have hj' : js ++ [i] = ks ++ .step id choice :: (ls ++ [i]) := by simp [hj]
    exact .gone hj' h hd hs
  | @answered ks ls choice c k o hj h hq hk hm hs answer hv =>
    have hj' : js ++ [i] = ks ++ .step id choice :: (ls ++ [i]) := by simp [hj]
    exact .answered hj' h hq hk hm hs hv

theorem Failed.concat {n : Nat} (h : Failed r id master role endpoints js n) (i : Input) :
    Failed r id master role endpoints (js ++ [i]) n := by
  intro before e rest he hl
  obtain ⟨x, hx⟩ := h before e rest he hl
  exact ⟨x, hx.concat i⟩

theorem Failed.succ {before : List String} {x : ClientError}
    (h : Failed r id master role (before ++ e :: rest) js before.length)
    (ht : Told r id master role js e rest (.error x)) :
    Failed r id master role (before ++ e :: rest) js (before.length + 1) := by
  intro before' e' rest' he hl
  rcases Nat.lt_succ_iff_lt_or_eq.mp hl with hl | hl
  · exact h before' e' rest' he hl
  · obtain ⟨-, heq⟩ := List.append_inj he hl.symm
    cases heq
    exact ⟨x, ht⟩

theorem Dialed.concat (h : Dialed r id master role endpoints js e rest)
    (hd : dials id ((r.run js).1.step i).2 = []) :
    Dialed r id master role endpoints (js ++ [i]) e rest := by
  obtain ⟨before, he, hb, hf⟩ := h
  refine ⟨before, he, ?_, hf.concat i⟩
  rw [run_concat, dials_append, hd, List.append_nil, hb]

theorem Course.keep (h : Course r id master role endpoints js stage)
    (hd : dials id ((r.run js).1.step i).2 = []) :
    Course r id master role endpoints (js ++ [i]) stage := by
  have hdials : dials id (r.run (js ++ [i])).2 = dials id (r.run js).2 := by
    rw [run_concat, dials_append, hd, List.append_nil]
  cases stage with
  | start => exact h
  | probing rest => exact ⟨by rw [hdials]; exact h.1, by rw [hdials]; exact h.2.concat i⟩
  | calling e rest => exact Dialed.concat h hd
  | asking e rest c => exact ⟨h.1.concat hd, h.2.concat i⟩
  | awaiting e rest c k =>
    obtain ⟨hdial, hm, hk, hq⟩ := h
    exact ⟨hdial.concat hd, hm.concat i, hk, by rw [run_concat]; exact List.mem_append_left _ hq⟩
  | hangingUp | judging => exact ⟨h.1.concat hd, h.2.concat i⟩
  | done result =>
    cases result with
    | ok a =>
      obtain ⟨e, rest, hdial, ht⟩ := h
      exact ⟨e, rest, hdial.concat hd, ht.concat i⟩
    | error x => exact ⟨h.1, hdials.trans h.2.1, h.2.2.concat i⟩

theorem Course.turn {root : TaskId} (hc : Course r id master role endpoints js stage)
    (h : Reaches s is r log) (hjs : AdmitsAll is r js)
    (ht : ⟨id, root, .resolve master role stage⟩ ∈ (r.run js).1.tasks)
    (hx : Turn (r.run js).1 i ⟨id, root, .resolve master role stage⟩
      (some (.resolve master role stage')) none core acts) (ha : ((r.run js).1.step i).2 = acts) :
    Course r id master role endpoints (js ++ [i]) stage' := by
  have hm := h.run js hjs
  have hjob : (r.run js).1.job? id = some (.resolve master role stage) := hm.numbered.job?_eq ht
  have hkeep (hd : dials id acts = []) : Course r id master role endpoints (js ++ [i]) stage :=
    hc.keep (ha ▸ hd)
  cases hx with
  | resolve hx =>
    cases hx with
    | start => exact hc.elim
    | exhausted =>
      obtain ⟨hd, hf⟩ := hkeep rfl
      rw [List.append_nil] at hd
      exact ⟨rfl, hd, hd ▸ hf⟩
    | @call e rest =>
      obtain ⟨hd, hf⟩ := hc
      refine ⟨_, hd.symm, ?_, hf.concat _⟩
      rw [run_concat, dials_append, ha]
      simp [dials]
    | mute hd =>
      obtain ⟨hdial, hm⟩ := hc
      exact ⟨hdial.concat (by rw [ha]; rfl), .gone rfl hm hd hjob⟩
    | ask =>
      obtain ⟨hdial, hmet⟩ := hkeep rfl
      refine ⟨hdial, hmet, run_next_le r js, ?_⟩
      rw [run_concat, ha]
      exact List.mem_append_right _ (List.mem_singleton_self _)
    | @answered e rest c k o hk =>
      obtain ⟨hdial, hmet, hle, hq⟩ := hc
      refine ⟨hdial.concat (by rw [ha]; rfl), .answered rfl hmet hq ?_ hk hjob (verdict_spec ..)⟩
      -- The claim was made after the resolve began, and so was the reply.
      rcases List.mem_append.mp (hm.mail (mem_of_mail? hk)) with hr | hr
      · exact absurd (h.claim_lt hr) (Nat.not_lt_of_ge hle)
      · exact hr
    | hangUp => exact hkeep rfl
    | accept =>
      obtain ⟨hdial, ht⟩ := hkeep rfl
      exact ⟨_, _, hdial, ht⟩
    | reject =>
      obtain ⟨⟨before, rfl, hd, hf⟩, ht⟩ := hkeep rfl
      refine ⟨by rw [hd]; simp, ?_⟩
      rw [hd, List.length_append]
      exact hf.succ ht
  | reached =>
    exact ⟨Dialed.concat hc (by rw [ha]; rfl), js, [], rfl, hjob⟩
  | missed =>
    exact ⟨Dialed.concat hc (by rw [ha]; rfl), .refused ⟨js, [], rfl, hjob⟩⟩

theorem promote_perm (r : Resolver) (e : String) : (r.promote e).endpoints.Perm r.endpoints := by
  unfold promote
  split
  next h => exact (List.perm_cons_erase (by simpa using h)).symm
  · exact .refl _

theorem promote_endpoints (h : e ∈ r.endpoints) :
    (r.promote e).endpoints = e :: r.endpoints.erase e := by
  rw [promote, if_pos (by simpa using h)]

/-- The order is another one when a resolve has found an address. -/
theorem Turn.order (h : Turn r i t job? fresh? core acts) : core.endpoints = r.endpoints ∨
    ∃ choice master role e rest a, i = .step t.id choice ∧
      t.job = .resolve master role (.judging e rest (.ok a)) ∧
      core.endpoints = (r.promote e).endpoints := by
  cases h with
  | resolve h =>
    cases h with
    | accept => exact .inr ⟨_, _, _, _, _, _, rfl, rfl, rfl⟩
    | _ => exact .inl rfl
  | notify h => cases h <;> exact .inl rfl
  | _ => exact .inl rfl

theorem Event.order (h : Event r i r' acts) : r'.endpoints = r.endpoints ∨
    ∃ t ∈ r.tasks, ∃ choice master role e rest a, i = .step t.id choice ∧
      t.job = .resolve master role (.judging e rest (.ok a)) ∧
      r'.endpoints = (r.promote e).endpoints := by
  cases h with
  | turn ht h =>
    rw [turn_eq]
    rcases h.order with he | he
    · exact .inl he
    · exact .inr ⟨_, ht, he⟩
  | call => exact .inl rfl
  | news h => cases h <;> exact .inl rfl

/-- No endpoint is lost, and none comes in twice. -/
theorem Reaches.endpoints_perm (h : Reaches s is r log) : r.endpoints.Perm s.endpoints := by
  refine h.induct (P := fun _ r _ => r.endpoints.Perm s.endpoints) (.refl _) ?_
  intro is r log i r' acts _ hp _ he
  rcases he.order with heq | ⟨t, -, choice, master, role, e, rest, a, -, -, heq⟩
  · rw [heq]
    exact hp
  · rw [heq]
    exact (r.promote_perm e).trans hp

/-- What a resolve that nobody interferes with has made of the order. -/
def Arranged (r : Resolver) (id : TaskId) (endpoints : List String) (js : List Input) :
    ResolveStage → Prop
  | .done (.ok _) => ∃ before e, dials id (r.run js).2 = before ++ [e] ∧
      (r.run js).1.endpoints = e :: endpoints.erase e
  | _ => (r.run js).1.endpoints = endpoints

theorem Alone.of_concat (h : Alone r id (js ++ [i])) : Alone r id js := by
  intro ks hks
  refine h ks ?_
  rw [List.mem_inits] at hks ⊢
  exact hks.trans (List.prefix_append _ _)

theorem Alone.now (h : Alone r id js) (ht : t ∈ (r.run js).1.tasks) (hj : t.job.resolving = true) :
    t.id = id := h js (by simp) t ht hj

theorem Arranged.keep (h : Arranged r id endpoints js stage)
    (hd : dials id ((r.run js).1.step i).2 = [])
    (he : ((r.run js).1.step i).1.endpoints = (r.run js).1.endpoints) :
    Arranged r id endpoints (js ++ [i]) stage := by
  have hdials : dials id (r.run (js ++ [i])).2 = dials id (r.run js).2 := by
    rw [run_concat, dials_append, hd, List.append_nil]
  have hsame : (r.run (js ++ [i])).1.endpoints = (r.run js).1.endpoints := by rw [run_concat, he]
  cases stage with
  | done result =>
    cases result with
    | ok a =>
      obtain ⟨before, e, hb, hr⟩ := h
      exact ⟨before, e, hdials.trans hb, hsame.trans hr⟩
    | error x => exact hsame.trans h
  | _ => exact hsame.trans h

theorem Arranged.turn {root : TaskId} (h : Arranged r id endpoints js stage)
    (hc : Course r id master role endpoints js stage)
    (hx : Turn (r.run js).1 i ⟨id, root, .resolve master role stage⟩
      (some (.resolve master role stage')) none core acts)
    (hr : (r.run js).1.step i = (core.turn ⟨id, root, .resolve master role stage⟩
      (some (.resolve master role stage')) none, acts)) :
    Arranged r id endpoints (js ++ [i]) stage' := by
  have hnew : (r.run (js ++ [i])).1.endpoints = core.endpoints := by
    rw [run_concat, hr, turn_eq]
  cases hx with
  | resolve hx =>
    cases hx with
    | @accept e rest a =>
      obtain ⟨⟨before, rfl, hd, -⟩, -⟩ := hc
      have hmem : e ∈ (r.run js).1.endpoints := by rw [h]; simp
      refine ⟨before, e, ?_, ?_⟩
      · rw [run_concat, dials_append, hd, hr]
        exact List.append_nil _
      · rw [hnew, promote_endpoints hmem, h]
    | start | exhausted | call | mute | ask | answered | hangUp | reject => exact hnew.trans h
  | reached | missed => exact hnew.trans h

def Had (r : Resolver) (id : TaskId) (js : List Input) : Prop :=
  ∃ ks ∈ js.inits, ((r.run ks).1.resolveResult? id).isSome

theorem Turn.due_lt {n : Nat} {root : TaskId} (hn : r.endpoints.length ≤ n)
    (h : Turn r i ⟨id, root, .resolve master role stage⟩ (some (.resolve master role stage')) none
      core acts) : stage'.due n < stage.due n := by
  cases h with
  | resolve h =>
    cases h <;> simp only [ResolveStage.due, List.length_cons, List.length_nil] <;> omega
  | reached | missed => simp only [ResolveStage.due]; omega

/-- A resolve that began at `r` is at `stage`, after so many turns. -/
structure Stands (r : Resolver) (id : TaskId) (master : String) (role : Role)
    (endpoints : List String) (js : List Input) (stage : ResolveStage) : Prop where
  due : r.turns id js + stage.due endpoints.length ≤ 6 * endpoints.length + 1
  course : Course r id master role endpoints js stage
  arranged : Alone r id js → Arranged r id endpoints js stage

/-- A resolve has come to a result, which was taken up. -/
structure Gone (r : Resolver) (id : TaskId) (master : String) (role : Role) (endpoints : List String)
    (js : List Input) (r' : Resolver) : Prop where
  none : ∀ t ∈ r'.tasks, t.id ≠ id
  bound : id < r'.next
  had : Had r id js
  stands : ∃ result, Stands r id master role endpoints js (.done result)

theorem Had.concat (h : Had r id js) (i : Input) : Had r id (js ++ [i]) := by
  obtain ⟨ks, hks, h⟩ := h
  refine ⟨ks, ?_, h⟩
  rw [List.mem_inits] at hks ⊢
  exact hks.trans (List.prefix_append _ _)

theorem resolveResult?_eq (hn : Numbered r) (ht : t ∈ r.tasks) {result : Except ClientError String}
    (hj : t.job = .resolve master role (.done result)) : r.resolveResult? t.id = some result := by
  rw [resolveResult?, hn.job?_eq ht, hj]

theorem Stands.turn {root : TaskId} (hs : Stands r id master role endpoints js stage)
    (h : Reaches s is r log) (hjs : AdmitsAll is r js)
    (hlen : (r.run js).1.endpoints.length ≤ endpoints.length)
    (ht : ⟨id, root, .resolve master role stage⟩ ∈ (r.run js).1.tasks)
    (hx : Turn (r.run js).1 i ⟨id, root, .resolve master role stage⟩
      (some (.resolve master role stage')) none core acts)
    (hr : (r.run js).1.step i = (core.turn ⟨id, root, .resolve master role stage⟩
      (some (.resolve master role stage')) none, acts)) :
    Stands r id master role endpoints (js ++ [i]) stage' where
  due := by
    have hdue := hs.due
    have hlt := hx.due_lt hlen
    have hle := Bool.toNat_le ((r.run js).1.hasTurn id i)
    rw [turns_concat]
    omega
  course := hs.course.turn h hjs ht hx (by rw [hr])
  arranged hal := (hs.arranged hal.of_concat).turn hs.course hx hr

theorem Stands.keep (hs : Stands r id master role endpoints js stage)
    (hturn : (r.run js).1.hasTurn id i = false) (hd : dials id ((r.run js).1.step i).2 = [])
    (ho : Alone r id js → ((r.run js).1.step i).1.endpoints = (r.run js).1.endpoints) :
    Stands r id master role endpoints (js ++ [i]) stage where
  due := by
    rw [turns_concat, hturn]
    exact hs.due
  course := hs.course.keep hd
  arranged hal := (hs.arranged hal.of_concat).keep hd (ho hal.of_concat)

/-- Only a turn of the resolve itself changes the order, if nobody interferes. -/
theorem Alone.order (hal : Alone r id js) (hn : Numbered (r.run js).1)
    (hturn : (r.run js).1.hasTurn id i = false) :
    ((r.run js).1.step i).1.endpoints = (r.run js).1.endpoints := by
  rcases (step_event (r.run js).1 i).order with he | ⟨t, ht, choice, _, _, _, _, _, rfl, hj, -⟩
  · exact he
  · have hid : t.id = id := hal.now ht (by rw [hj]; rfl)
    have hfree : (r.run js).1.isFree t = true := by
      simp only [isFree, hj]
    simp only [hasTurn, ← hid, hn.find?_eq ht, hfree, beq_self_eq_true, Bool.and_self] at hturn
    cases hturn

theorem Gone.step (hg : Gone r id master role endpoints js (r.run js).1)
    (hn : Numbered (r.run js).1) :
    Gone r id master role endpoints (js ++ [i]) ((r.run js).1.step i).1 where
  none u hu hid := by
    rcases (step_event _ i).task_cases hn hu with ⟨hu, -⟩ | ⟨t, ht, -, -, htid, -⟩ | ⟨hle, -⟩
    · exact hg.none u hu hid
    · exact hg.none t ht (htid.trans hid)
    · exact absurd (hid ▸ hg.bound) (Nat.not_lt_of_ge hle)
  bound := Nat.lt_of_lt_of_le hg.bound (step_event _ i).next_le
  had := hg.had.concat i
  stands := by
    obtain ⟨result, hs⟩ := hg.stands
    have hfind : ((r.run js).1.tasks.find? fun u => u.id == id) = .none :=
      List.find?_eq_none.mpr fun u hu => by simpa using hg.none u hu
    have hturn : (r.run js).1.hasTurn id i = false := by simp only [hasTurn, hfind]
    refine ⟨result, hs.keep hturn (dials_eq_nil ?_) fun hal => hal.order hn hturn⟩
    intro address hmem
    obtain ⟨t, ht, hid, -⟩ := (step_event _ i).dial_mem hmem
    exact hg.none t ht hid

/-- A step of a resolve: it takes its turn, or stays where it is, or its result is taken up. -/
theorem Stands.step (hs : Stands r t.id master role endpoints js stage) (h : Reaches s is r log)
    (hjs : AdmitsAll is r js) (hp : endpoints.Perm s.endpoints) (ht : t ∈ (r.run js).1.tasks)
    (hj : t.job = .resolve master role stage) :
    (∃ u ∈ ((r.run js).1.step i).1.tasks, u.id = t.id ∧ ∃ stage', u.job = .resolve master role stage' ∧
      Stands r t.id master role endpoints (js ++ [i]) stage') ∨
    Gone r t.id master role endpoints (js ++ [i]) ((r.run js).1.step i).1 := by
  have hm := h.run js hjs
  have hn := hm.numbered
  obtain ⟨id, root, job⟩ := t
  cases hj
  rcases step_resolve hn ht rfl i with ⟨stage', core, acts, hx, hr⟩ | ⟨hturn, hd, hfate⟩
  · have hlen : (r.run js).1.endpoints.length ≤ endpoints.length :=
      Nat.le_of_eq (hm.endpoints_perm.trans hp.symm).length_eq
    refine .inl ⟨⟨id, root, .resolve master role stage'⟩, ?_, rfl, stage', rfl,
      hs.turn h hjs hlen ht hx hr⟩
    rw [hr]
    exact hn.mem_turn_self ht hx.grows
  · have hkeep := hs.keep hturn hd fun hal => hal.order hn hturn
    rcases hfate with hmem | ⟨ho, hgone⟩
    · exact .inl ⟨_, hmem, rfl, stage, rfl, hkeep⟩
    · cases stage with
      | done result =>
        refine .inr ⟨hgone, ?_, ⟨js, by simp, ?_⟩, result, hkeep⟩
        · exact Nat.lt_of_lt_of_le (hn.bound _ ht) (step_event _ i).next_le
        · rw [resolveResult?_eq hn ht rfl]
          rfl
      | _ => cases ho

/-- A resolve has all it needs, or waits for an answer, or has a result. -/
theorem Course.goes (h : Course r id master role endpoints js stage)
    (hj : t.job = .resolve master role stage) : (r.run js).1.isFree t = true ∨
      Waits r id master role js stage ∨ ∃ result, stage = .done result := by
  obtain ⟨tid, root, job⟩ := t
  cases hj
  cases stage with
  | calling e rest =>
    obtain ⟨before, -, hd, -⟩ := h
    exact .inr (.inl (.connection hd))
  | awaiting e rest c k => exact .inr (.inl (.reply h.2.2.2))
  | done result => exact .inr (.inr ⟨result, rfl⟩)
  | _ => exact .inl rfl

theorem Course.order (h : Course r id master role endpoints js stage) :
    dials id (r.run js).2 <+: endpoints ∧
      Failed r id master role endpoints js ((dials id (r.run js).2).length - 1) := by
  have dialed {e : String} {rest : List String} (h : Dialed r id master role endpoints js e rest) :
      dials id (r.run js).2 <+: endpoints ∧
        Failed r id master role endpoints js ((dials id (r.run js).2).length - 1) := by
    obtain ⟨before, rfl, hd, hf⟩ := h
    rw [hd]
    exact ⟨⟨rest, by simp⟩, by simpa using hf⟩
  have fewer {n m : Nat} (h : Failed r id master role endpoints js n) (hm : m ≤ n) :
      Failed r id master role endpoints js m :=
    fun before e rest he hl => h before e rest he (Nat.lt_of_lt_of_le hl hm)
  cases stage with
  | start => exact h.elim
  | probing rest => exact ⟨⟨rest, h.1⟩, fewer h.2 (Nat.sub_le _ _)⟩
  | calling => exact dialed h
  | asking | awaiting | hangingUp | judging => exact dialed h.1
  | done result =>
    cases result with
    | ok a =>
      obtain ⟨e, rest, hd, -⟩ := h
      exact dialed hd
    | error x =>
      obtain ⟨-, hd, hf⟩ := h
      rw [hd]
      exact ⟨List.prefix_refl _, fewer hf (Nat.sub_le _ _)⟩

/-- What a resolve has come to that began to ask `endpoints` at `r`, when `js` have come in. -/
structure Resolution (r : Resolver) (id : TaskId) (master : String) (role : Role)
    (endpoints : List String) (js : List Input) : Prop where
  /-- It dials the endpoints in order. -/
  order : dials id (r.run js).2 <+: endpoints
  /-- It goes on to the next one only when one has not named an address. -/
  failed : Failed r id master role endpoints js ((dials id (r.run js).2).length - 1)
  /-- What it finds is the answer of the last one, which comes to the front. -/
  found : ∀ a, (r.run js).1.resolveResult? id = some (.ok a) → ∃ before e rest,
    endpoints = before ++ e :: rest ∧ dials id (r.run js).2 = before ++ [e] ∧
    Told r id master role js e rest (.ok a) ∧
    (Alone r id js → (r.run js).1.endpoints = e :: endpoints.erase e)
  /-- It finds nothing when all of them have failed. -/
  lost : ∀ x, (r.run js).1.resolveResult? id = some (.error x) → x = .noEndpoints ∧
    dials id (r.run js).2 = endpoints ∧ Failed r id master role endpoints js endpoints.length ∧
    (Alone r id js → (r.run js).1.endpoints = endpoints)
  /-- It takes six turns for each endpoint at most. -/
  bound : r.turns id js ≤ 6 * endpoints.length + 1
  /-- Until it has come to a result it is not stuck. -/
  goes : Had r id js ∨ ∃ t ∈ (r.run js).1.tasks, t.id = id ∧ ∃ stage,
    t.job = .resolve master role stage ∧
      ((r.run js).1.isFree t = true ∨ Waits r id master role js stage)

section

variable (h : Reaches s is r log) (hj : r.job? id = some (.resolve master role (.probing r.endpoints)))
  (hl : AdmitsAll is r js)

include h hj hl

theorem Reaches.stands :
    (∃ t ∈ (r.run js).1.tasks, t.id = id ∧ ∃ stage, t.job = .resolve master role stage ∧
      Stands r id master role r.endpoints js stage) ∨
    Gone r id master role r.endpoints js (r.run js).1 := by
  obtain ⟨t, ht, hid, htj⟩ := exists_of_job? hj
  refine h.induct_run (P := fun js r' _ =>
    (∃ t ∈ r'.tasks, t.id = id ∧ ∃ stage, t.job = .resolve master role stage ∧
      Stands r id master role r.endpoints js stage) ∨
    Gone r id master role r.endpoints js r') hl ?_ ?_
  · refine .inl ⟨t, ht, hid, _, htj, ?_, ⟨rfl, ?_⟩, fun _ => rfl⟩
    · simp only [turns, ResolveStage.due]
      omega
    · intro before e rest _ hlt
      cases hlt
  · intro js i hjs hm hs _
    rcases hs with ⟨t, ht, rfl, stage, htj, hs⟩ | hg
    · exact hs.step h hjs h.endpoints_perm ht htj
    · exact .inr (hg.step hm.numbered)

theorem Reaches.resolution : Resolution r id master role r.endpoints js := by
  have hm := h.run js hl
  rcases h.stands hj hl with ⟨t, ht, rfl, stage, htj, hs⟩ | hg
  · have hres {result : Except ClientError String}
        (hr : (r.run js).1.resolveResult? t.id = some result) : stage = .done result := by
      obtain ⟨u, hu, hid, master', role', huj⟩ := exists_of_resolveResult? hr
      rw [hm.numbered.eq_of_id hu ht hid, htj] at huj
      exact (Job.resolve.inj huj).2.2
    have hc := hs.course
    refine ⟨hc.order.1, hc.order.2, fun a hr => ?_, fun x hr => ?_,
      Nat.le_trans (Nat.le_add_right _ _) hs.due, ?_⟩
    · obtain rfl := hres hr
      obtain ⟨e, rest, ⟨before, he, hd, -⟩, ht⟩ := hc
      refine ⟨before, e, rest, he, hd, ht, fun hal => ?_⟩
      obtain ⟨before', e', hd', horder⟩ := hs.arranged hal
      obtain ⟨-, heq⟩ := List.append_inj' (hd.symm.trans hd') rfl
      cases heq
      exact horder
    · obtain rfl := hres hr
      exact ⟨hc.1, hc.2.1, hc.2.2, hs.arranged⟩
    · rcases hc.goes htj with hf | hw | ⟨result, rfl⟩
      · exact .inr ⟨t, ht, rfl, stage, htj, .inl hf⟩
      · exact .inr ⟨t, ht, rfl, stage, htj, .inr hw⟩
      · exact .inl ⟨js, by simp, by rw [resolveResult?_eq hm.numbered ht htj]; rfl⟩
  · have gone {result : Except ClientError String}
        (hr : (r.run js).1.resolveResult? id = some result) : False := by
      obtain ⟨u, hu, hid, -⟩ := exists_of_resolveResult? hr
      exact hg.none u hu hid
    obtain ⟨result, hs⟩ := hg.stands
    exact ⟨hs.course.order.1, hs.course.order.2, fun a hr => (gone hr).elim,
      fun x hr => (gone hr).elim, hs.due, .inl hg.had⟩

end

theorem Met.cases_concat {result : Except ClientError ConnId}
    (h : Met r id master role (js ++ [i]) e rest result) : Met r id master role js e rest result ∨
      i = .dialed id result ∧ (r.run js).1.job? id = some (.resolve master role (.calling e rest)) := by
  obtain ⟨ks, ls, hk, hj⟩ := h
  rcases List.eq_nil_or_concat ls with rfl | ⟨ls, j, rfl⟩
  · obtain ⟨rfl, hi⟩ := List.append_inj' hk rfl
    cases hi
    exact .inr ⟨rfl, hj⟩
  · rw [List.concat_eq_append, ← List.cons_append, ← List.append_assoc] at hk
    exact .inl ⟨ks, ls, (List.append_inj' hk rfl).1, hj⟩

/-- A resolve lets go of a connection only by closing it. -/
theorem Turn.lets_go {root : TaskId} (h : Turn r i ⟨id, root, .resolve master role stage⟩
      (some (.resolve master role stage')) none core acts) (hc : c ∈ stage.holds) :
    c ∈ stage'.holds ∨ .close c ∈ acts := by
  cases h with
  | resolve h =>
    cases h with
    | hangUp =>
      obtain rfl := List.mem_singleton.mp hc
      exact .inr (List.mem_singleton_self _)
    | mute | ask | answered => exact .inl hc
    | start | exhausted | call | accept | reject => cases hc
  | reached | missed => cases hc

/-- A connection to a sentinel is in the hands of the resolve that opened it, until it is closed. -/
theorem Reaches.probe (h : Reaches s is r log)
    (hm : Met (ofSettings s) id master role is e rest (.ok c)) :
    .close c ∈ log ∨ ∃ t ∈ r.tasks, t.id = id ∧ ∃ stage, t.job = .resolve master role stage ∧
      c ∈ stage.holds := by
  induction h with
  | start =>
    obtain ⟨ks, ls, hk, -⟩ := hm
    simp at hk
  | @step is r log i h hi ih =>
    rcases hm.cases_concat with hm | ⟨rfl, hj⟩
    · rcases ih hm with hc | ⟨⟨tid, root, job⟩, ht, rfl, stage, rfl, hc⟩
      · exact .inl (List.mem_append_left _ hc)
      · rcases step_resolve h.numbered ht rfl i with ⟨stage', core, acts, hx, hr⟩ |
          ⟨-, -, hmem | ⟨ho, -⟩⟩
        · rw [hr]
          rcases hx.lets_go hc with hc | hc
          · refine .inr ⟨⟨tid, root, .resolve master role stage'⟩, ?_, rfl, stage', rfl, hc⟩
            exact h.numbered.mem_turn_self ht hx.grows
          · exact .inl (List.mem_append_right _ hc)
        · exact .inr ⟨_, hmem, rfl, stage, rfl, hc⟩
        · cases stage with
          | done => cases hc
          | _ => cases ho
    · change (after s is).job? id = _ at hj
      rw [← h.eq_after] at hj
      obtain ⟨⟨tid, root, job⟩, ht, rfl, rfl⟩ := exists_of_job? hj
      rcases dialed_resolve h.numbered ht (.ok c) with ⟨stage', hx, hr⟩ | ⟨ho, -⟩
      · cases hx
        refine .inr ⟨⟨tid, root, .resolve master role (.asking e rest c)⟩, ?_, rfl, _, rfl,
          List.mem_singleton_self _⟩
        change _ ∈ (r.dialed tid (.ok c)).1.tasks
        rw [hr]
        exact List.mem_map.mpr ⟨_, ht, by simp⟩
      · cases ho

/-- Whoever looked an address up is told what the resolve has come to. -/
theorem Reaches.lookup (h : Reaches s is r log) {d : TaskId}
    (hj : r.job? id = some (.lookup master role (some d))) :
    ∃ stage, r.job? d = some (.resolve master role stage) ∧ ∀ choice,
      (r.step (.step id choice)).2 =
        (stage.result?.map fun result => Action.finish id (.found result)).toList := by
  obtain ⟨⟨tid, root, job⟩, ht, rfl, rfl⟩ := exists_of_job? hj
  obtain ⟨⟨d, root', job⟩, hu, rfl, he⟩ := h.staffed.helped _ ht d rfl
  cases he with
  | @lookup _ _ _ stage =>
    have hd : r.job? d = some (.resolve master role stage) := h.numbered.job?_eq hu
    refine ⟨stage, hd, fun choice => ?_⟩
    simp only [Resolver.step, h.numbered.find?_eq ht, stepTask, stepLookup, resolveResult?, hd]
    cases stage <;> rfl

/-- A resolve asks the endpoints in order and puts the one that has named an address in front. At any time
the endpoints are those of the settings in some order, whatever else goes on; a connection to a sentinel is
closed when the question on it is over, whatever came of it; and a resolve that begins makes its way through
the endpoints as they are listed then. An address that is listed twice is one endpoint: its first entry
comes to the front. -/
theorem resolve_asks_in_order (h : Reaches s is r log) :
    r.endpoints.Perm s.endpoints ∧
    (∀ id master role e rest c, Met (ofSettings s) id master role is e rest (.ok c) →
      .close c ∈ log ∨ .close c ∉ log ∧
        ∃ stage, r.job? id = some (.resolve master role stage) ∧ c ∈ stage.holds) ∧
    (∀ id master role e rest c answer choice,
      r.job? id = some (.resolve master role (.hangingUp e rest c answer)) →
      (r.step (.step id choice)).2 = [.close c]) ∧
    (∀ id master role choice js, r.job? id = some (.resolve master role .start) →
      AdmitsAll is r (.step id choice :: js) →
      Resolution (r.step (.step id choice)).1 id master role r.endpoints js) ∧
    ∀ id master role d, r.job? id = some (.lookup master role (some d)) →
      ∃ stage, r.job? d = some (.resolve master role stage) ∧ ∀ choice,
        (r.step (.step id choice)).2 =
          (stage.result?.map fun result => Action.finish id (.found result)).toList := by
  have hn := h.numbered
  refine ⟨h.endpoints_perm, ?_, ?_, ?_, fun id master role d hj => h.lookup hj⟩
  · intro id master role e rest c hm
    rcases h.probe hm with hc | ⟨t, ht, rfl, stage, hj, hc⟩
    · exact .inl hc
    · refine .inr ⟨h.custody.spared t ht c (by rw [hj]; exact hc), stage, ?_, hc⟩
      rw [hn.job?_eq ht, hj]
  · intro id master role e rest c answer choice hj
    obtain ⟨⟨tid, root, job⟩, ht, rfl, rfl⟩ := exists_of_job? hj
    simp only [step, hn.find?_eq ht]
    rfl
  · intro id master role choice js hj hl
    obtain ⟨⟨tid, root, job⟩, ht, rfl, rfl⟩ := exists_of_job? hj
    have hstep : r.step (.step tid choice) =
        (r.setJob tid (.resolve master role (.probing r.endpoints)), []) := by
      simp only [step, hn.find?_eq ht]
      rfl
    have hs := h.step hl.1
    have hl := hl.2
    rw [hstep] at hs hl ⊢
    refine hs.resolution ?_ hl
    have hmem : ⟨tid, root, .resolve master role (.probing r.endpoints)⟩ ∈
        (r.setJob tid (.resolve master role (.probing r.endpoints))).tasks :=
      List.mem_map.mpr ⟨_, ht, by simp⟩
    exact hs.numbered.job?_eq hmem

/-- A resolve that is about to ask three endpoints. -/
def asking (role : Role) : Resolver × List Action :=
  run (ofSettings { endpoints := ["a:1", "b:2", "c:3"], masterName := "m" }) [.lookup "m" role, .step 0 0]

/-- The first endpoint is not to be reached, and the second one names an address. -/
def naming : List Input :=
  [.step 1 0, .dialed 1 (.error .connectionClosed), .step 1 0, .step 1 0, .dialed 1 (.ok 0), .step 1 0,
    .reply 2 (.ok (.multi (some [.bulk (some [104]), .integer 7]))), .step 1 0, .step 1 0, .step 1 0]

def replicaEntry (host : String) (port : Int) : Reply :=
  .multi (some [.status "ip", .status host, .status "port", .integer port])

/-- The first endpoint knows of no replicas. The second one lists two, and the choice falls on the last. -/
def listing : List Input :=
  [.step 1 0, .dialed 1 (.ok 0), .step 1 0, .reply 2 (.ok (.multi (some []))), .step 1 0, .step 1 0, .step 1 0,
    .step 1 0, .dialed 1 (.ok 1), .step 1 0,
    .reply 3 (.ok (.multi (some [replicaEntry "g" 6, replicaEntry "h" 7]))), .step 1 1, .step 1 0, .step 1 0]

/-- A master and a replica are found at the second endpoint, which is in front then. -/
theorem resolve_asks_in_order_second :
    (Told ((asking .master).1.step (.step 1 0)).1 1 "m" .master naming "b:2" ["c:3"] (.ok "h:7") ∧
      (((asking .master).1.step (.step 1 0)).1.run naming).1.endpoints = ["b:2", "a:1", "c:3"]) ∧
    Told ((asking .replica).1.step (.step 1 0)).1 1 "m" .replica listing "b:2" ["c:3"] (.ok "h:7") ∧
      (((asking .replica).1.step (.step 1 0)).1.run listing).1.endpoints = ["b:2", "a:1", "c:3"] := by
  have second (role : Role) (js : List Input)
      (h : AdmitsAll [] (ofSettings { endpoints := ["a:1", "b:2", "c:3"], masterName := "m" })
        [.lookup "m" role, .step 0 0])
      (hl : AdmitsAll [.lookup "m" role, .step 0 0] (asking role).1 (.step 1 0 :: js))
      (hfound : (((asking role).1.step (.step 1 0)).1.run js).1.resolveResult? 1 = some (.ok "h:7"))
      (hdials : dials 1 (((asking role).1.step (.step 1 0)).1.run js).2 = ["a:1"] ++ ["b:2"])
      (halone : Alone ((asking role).1.step (.step 1 0)).1 1 js) :
      Told ((asking role).1.step (.step 1 0)).1 1 "m" role js "b:2" ["c:3"] (.ok "h:7") ∧
        (((asking role).1.step (.step 1 0)).1.run js).1.endpoints = ["b:2", "a:1", "c:3"] := by
    have hr := (resolve_asks_in_order (Reaches.start.run _ h)).2.2.2.1 1 "m" role 0 js rfl hl
    obtain ⟨before, e, rest, he, hd, ht, ho⟩ := hr.found "h:7" hfound
    obtain ⟨rfl, heq⟩ := List.append_inj' (hdials.symm.trans hd) rfl
    cases heq
    cases he
    exact ⟨ht, ho halone⟩
  constructor
  · exact second .master naming (by decide +kernel) (by decide +kernel) (by decide +kernel)
      (by decide +kernel) (by decide +kernel)
  · exact second .replica listing (by decide +kernel) (by decide +kernel) (by decide +kernel)
      (by decide +kernel) (by decide +kernel)

end Resolver

end RespClient.Sentinel
