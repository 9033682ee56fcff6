import RespClient.Proofs.Cluster.Router.Custody
import RespClient.Proofs.Cluster.Router.Progress

namespace RespClient.Cluster

def SendStage.due : SendStage → Nat
  | route | refreshing _ _ _ => 6
  | reaching _ _ _ => 5
  | submitAsking _ => 4
  | submitAsked _ _ | resting _ => 3
  | submit _ | awaitingAsking _ _ _ => 2
  | awaiting _ _ => 1

def Sending.due (s : Sending) : Nat := 6 * s.budget + s.stage.due

theorem Sending.due_pos (s : Sending) : 0 < s.due := by
  have : 0 < s.stage.due := by cases s.stage <;> simp [SendStage.due]
  exact Nat.lt_add_left _ this

namespace Router

variable {s : ClusterSettings} {is later : List Input} {r r' core : Router} {log acts : List Action}

/-- Task `d` is a dial to address `a`. -/
def Dials (r : Router) (d : TaskId) (a : String) : Prop :=
  ∃ u ∈ r.tasks, u.id = d ∧ ∃ stage, u.job = .dial a stage

theorem Dials.event {d : TaskId} {a : String} (hd : Dials r d a) {i : Input} (hf : Forest r)
    (h : Event r i r' acts) (hx : ∃ u ∈ r'.tasks, u.id = d) : Dials r' d a := by
  obtain ⟨u, hu, rfl, stage, hj⟩ := hd
  obtain ⟨v, hv, hid⟩ := hx
  cases h with
  | turn ht h =>
    next t job? fresh core =>
    by_cases hut : u = t
    · subst hut
      have hj' := hf.job_of_mem_turn ht h.grows hv hid
      refine ⟨v, hv, hid, ?_⟩
      obtain ⟨id, root, job⟩ := u
      cases hj
      cases h with
      | dial | dialed | refused => exact ⟨_, (Option.some.inj hj').symm⟩
    · exact ⟨v, hv, hid, stage, by rw [hf.mem_turn_eq ht h.grows hu hut hv hid, hj]⟩
  | call h => exact ⟨u, List.mem_append_left _ (h.spares.tasks ▸ hu), rfl, stage, hj⟩
  | news h => exact ⟨u, h.spares.tasks ▸ hu, rfl, stage, hj⟩

theorem Dials.exists_done {d : TaskId} {a : String} {result : Except ClientError ConnId}
    (hd : Dials r d a) (hf : Forest r) (h : r.dialResult? d = some result) :
    ∃ u ∈ r.tasks, u.job = .dial a (.done result) ∧ r.job? d = some u.job := by
  obtain ⟨u, hu, rfl, stage, hj⟩ := hd
  refine ⟨u, hu, ?_, hf.job?_eq hu⟩
  rw [dialResult?, hf.job?_eq hu, hj] at h
  split at h
  next h' =>
    cases h
    cases h'
    exact hj
  · cases h

theorem DialTurn.error_eq {id : TaskId} {a : String} {stage stage' : DialStage} {e : ClientError}
    (h : DialTurn r id a stage stage' core acts) (hs : stage' = .done (.error e)) :
    e = .connectionClosed := by
  cases h with
  | late => cases hs; rfl
  | guard => split at hs <;> cases hs
  | _ => cases hs

/-- Where a dial stands after an event: it had no part in it, or it took a turn, or its attempt to
connect is over, or it is new. -/
theorem Event.dial_cases {i : Input} (h : Event r i r' acts) (hf : Forest r) {u : Task}
    (hu : u ∈ r'.tasks) {a : String} {stage' : DialStage} (hj : u.job = .dial a stage') :
    u ∈ r.tasks ∨
    (∃ t ∈ r.tasks, ∃ stage core, t.job = .dial a stage ∧ DialTurn r t.id a stage stage' core acts) ∨
    (∃ c, i = .dialed u.id (.ok c) ∧ stage' = .opened c) ∨
    (∃ e, i = .dialed u.id (.error e) ∧ stage' = .done (.error e) ∧
      ∃ t ∈ r.tasks, t.id = u.id ∧ t.job = .dial a .calling) ∨ stage' = .seek := by
  cases h with
  | turn ht h =>
    rcases (hf.mem_turn ht h.grows).mp hu with ⟨hu, -, -⟩ | ⟨job, hjob, rfl⟩ | hu
    · exact .inl hu
    · obtain rfl : job = _ := hj
      have hk := (h.grows.keeps _ hjob).1
      cases h with
      | dial h =>
        cases hjob
        exact .inr (.inl ⟨_, ht, _, _, rfl, h⟩)
      | dialed =>
        cases hjob
        exact .inr (.inr (.inl ⟨_, rfl, rfl⟩))
      | refused =>
        cases hjob
        exact .inr (.inr (.inr (.inl ⟨_, rfl, rfl, _, ht, rfl, rfl⟩)))
      | _ => cases hk
    · have hfresh := h.grows.recruits _ (job_of_mem_recruits hu)
      rw [hj] at hfresh
      cases hfresh
      exact .inr (.inr (.inr (.inr rfl)))
  | call h =>
    rcases List.mem_append.mp hu with hu | hu
    · exact .inl (h.spares.tasks ▸ hu)
    · obtain rfl := List.mem_singleton.mp hu
      cases (congrArg Job.kind hj).symm.trans h.kind
  | news h => exact .inl (h.spares.tasks ▸ hu)

theorem Turn.opened {i : Input} {t : Task} {job? : Option Job} {fresh : List Job}
    (h : Turn r i t job? fresh core acts) : core.opened = r.opened ∨
    ∃ c a, i = .dialed t.id (.ok c) ∧ t.job = .dial a .calling ∧
      core.opened = r.opened ++ [(c, a)] := by
  cases h with
  | dial h => cases h <;> exact .inl rfl
  | refresh h => cases h <;> exact .inl rfl
  | send h => cases h <;> exact .inl rfl
  | opening h => cases h <;> exact .inl rfl
  | dialed => exact .inr ⟨_, _, rfl, rfl, rfl⟩
  | reload | reloaded | recover | recovered | refused | rested => exact .inl rfl

/-- A connection is opened for a dial that waits for it. -/
theorem Event.opens {i : Input} (h : Event r i r' acts) : r'.opened = r.opened ∨
    ∃ t ∈ r.tasks, ∃ c a, i = .dialed t.id (.ok c) ∧ t.job = .dial a .calling ∧
      r'.opened = r.opened ++ [(c, a)] := by
  cases h with
  | turn ht h =>
    rw [turn_eq]
    exact h.opened.imp_right fun ho => ⟨_, ht, ho⟩
  | call h =>
    cases h with
    | recovery => exact .inl (by rw [forget_eq]; rfl)
    | _ => exact .inl rfl
  | news h =>
    cases h with
    | failed | ended => exact .inl (by rw [forget_eq])
    | _ => exact .inl rfl

theorem Reaches.dial_error (h : Reaches s is r log) : ∀ u ∈ r.tasks, ∀ a e,
    u.job = .dial a (.done (.error e)) → e.replyText? = none := by
  refine h.induct (P := fun r _ => ∀ u ∈ r.tasks, ∀ a e, u.job = .dial a (.done (.error e)) →
    e.replyText? = none) nofun fun h ih hi he u hu a e hj => ?_
  rcases he.dial_cases h.forest hu hj with
    hu | ⟨t, -, stage, core, -, hx⟩ | ⟨c, -, hs⟩ | ⟨e', rfl, hs, -⟩ | hs
  · exact ih u hu a e hj
  · rw [hx.error_eq rfl]
    rfl
  · cases hs
  · cases hs
    exact hi
  · cases hs

theorem Event.mem_of_ne {i : Input} (h : Event r i r' acts) (hf : Forest r) {t : Task}
    (ht : t ∈ r.tasks) (hk : t.job.kind = .call) (hi : ∀ choice, i ≠ .step t.id choice)
    (hi' : i ≠ .rested t.id) : t ∈ r'.tasks := by
  cases h with
  | turn hu h =>
    next u job? fresh core =>
    have hne : t ≠ u := by
      rintro rfl
      obtain ⟨id, root, job⟩ := t
      cases h with
      | dialed | refused => cases hk
      | rested => exact hi' rfl
      | _ => exact hi _ rfl
    refine (hf.mem_turn hu h.grows).mpr (.inl ⟨ht, hne, fun hd => ?_⟩)
    obtain ⟨v, hv, hid, hkv⟩ := hf.helped u hu _ hd
    obtain rfl := hf.eq_of_id hv ht hid
    exact Job.employs_ne_call _ (hkv.symm.trans hk)
  | call h => exact List.mem_append_left _ (h.spares.tasks ▸ ht)
  | news h => exact h.spares.tasks ▸ ht

theorem not_finish_of_warn {id : TaskId} {result : Result}
    (h : ∀ x ∈ acts, ∃ text, x = Action.warn text) : .finish id result ∉ acts := by
  intro hx
  obtain ⟨text, hx⟩ := h _ hx
  cases hx

theorem dialWarnings_warn (r : Router) (dials : List (String × TaskId)) :
    ∀ x ∈ r.dialWarnings dials, ∃ text, x = Action.warn text := by
  intro x hx
  obtain ⟨⟨a, d⟩, -, hd⟩ := List.mem_filterMap.mp hx
  simp only at hd
  split at hd
  · exact ⟨_, (Option.some.inj hd).symm⟩
  · cases hd

theorem Event.finish_mem {i : Input} (h : Event r i r' acts) {id : TaskId} {result : Result}
    (ha : .finish id result ∈ acts) : ∃ choice, i = .step id choice := by
  cases h with
  | turn ht h =>
    cases h with
    | dial h => cases h <;> simp at ha
    | refresh h =>
      cases h with
      | fill => exact absurd ha (not_finish_of_warn (dialWarnings_warn r _))
      | _ => simp at ha
    | send h =>
      cases h with
      | refreshed _ _ hw => exact absurd ha (not_finish_of_warn hw)
      | nowhere | miss | mute | answer =>
        obtain ⟨rfl, -⟩ := by simpa using ha
        exact ⟨_, rfl⟩
      | _ => simp at ha
    | opening h =>
      cases h with
      | loaded | miss | stuck =>
        obtain ⟨rfl, -⟩ := by simpa using ha
        exact ⟨_, rfl⟩
      | _ => simp at ha
    | reloaded =>
      obtain ⟨rfl, -⟩ := by simpa using ha
      exact ⟨_, rfl⟩
    | recovered _ hw => exact absurd ha (not_finish_of_warn hw)
    | _ => simp at ha
  | call h => cases h <;> simp at ha
  | news h => cases h <;> simp at ha

theorem step_own (hf : Forest r) {t : Task} (ht : t ∈ r.tasks) (choice : Nat) :
    (r.isFree t = false ∧ r.step (.step t.id choice) = (r, [])) ∨
      ∃ job? fresh core acts, Turn r (.step t.id choice) t job? fresh core acts ∧
        r.step (.step t.id choice) = (core.turn t job? fresh, acts) := by
  simp only [step, hf.find?_eq ht]
  cases h : r.stepTask choice t with
  | none => exact .inl ⟨by rw [← stepTask_isSome r choice t, h]; rfl, rfl⟩
  | some x =>
    obtain ⟨job?, fresh, core, hx, he⟩ := stepTask_turn h
    exact .inr ⟨job?, fresh, core, x.2, hx, Prod.ext he rfl⟩

/-- Where a command stands after an event: its task had no part in it, or it took a turn, or its rest is
over, or it was just called for. -/
theorem Event.send_cases {i : Input} (h : Event r i r' acts) (hf : Forest r) {u : Task}
    (hu : u ∈ r'.tasks) {s' : Sending} (hj : u.job = .send s') :
    u ∈ r.tasks ∨
    (∃ t ∈ r.tasks, t.id = u.id ∧ ∃ s choice fresh core, t.job = .send s ∧
      SendTurn r t.id choice s (some s') fresh core acts) ∨
    (∃ t ∈ r.tasks, t.id = u.id ∧ ∃ s c, t.job = .send s ∧ s.stage = .resting c ∧
      s' = { s with stage := .submit c }) ∨
    ∃ command, i = .send command ∧ u.id = r.next ∧ .send s' = r.sending command := by
  cases h with
  | turn ht h =>
    rcases (hf.mem_turn ht h.grows).mp hu with ⟨hu, -, -⟩ | ⟨job, hjob, rfl⟩ | hu
    · exact .inl hu
    · obtain rfl : job = _ := hj
      cases h with
      | send h =>
        obtain ⟨s'', rfl, he⟩ := Option.map_eq_some_iff.mp hjob
        cases he
        exact .inr (.inl ⟨_, ht, rfl, _, _, _, _, rfl, h⟩)
      | rested hs =>
        cases hjob
        exact .inr (.inr (.inl ⟨_, ht, rfl, _, _, rfl, hs, rfl⟩))
      | opening =>
        obtain ⟨_, -, he⟩ := Option.map_eq_some_iff.mp hjob
        cases he
      | _ => cases hjob
    · have hfresh := h.grows.recruits _ (job_of_mem_recruits hu)
      rw [hj] at hfresh
      cases hfresh
  | call h =>
    rcases List.mem_append.mp hu with hu | hu
    · exact .inl (h.spares.tasks ▸ hu)
    · obtain rfl := List.mem_singleton.mp hu
      cases h with
      | send => exact .inr (.inr (.inr ⟨_, rfl, rfl, hj.symm⟩))
      | _ => cases hj
  | news h => exact .inl (h.spares.tasks ▸ hu)

/-- A command is concluded with the outcome that it has waited for or with a fault of the client's own,
and its task is gone. -/
theorem Event.concludes {i : Input} (h : Event r i r' acts) (hf : Forest r)
    (he : ∀ u ∈ r.tasks, ∀ a e, u.job = .dial a (.done (.error e)) → e.replyText? = none)
    {id : TaskId} {o : Outcome} (ha : .finish id (.sent o) ∈ acts) :
    (∀ u ∈ r'.tasks, u.id ≠ id) ∧ ∃ t ∈ r.tasks, t.id = id ∧ ∃ s, t.job = .send s ∧
      ((∃ e, o = .error e ∧ e.replyText? = none) ∨
        ∃ c k, s.stage = .awaiting c k ∧ r.mail? k = some o) := by
  cases h with
  | turn ht h =>
    next t job? fresh core =>
    have gone (hjob : job? = none) (hid : t.id = id) :
        ∀ u ∈ (core.turn t job? fresh).tasks, u.id ≠ id := by
      intro u hu huid
      cases hjob.symm.trans (hf.job_of_mem_turn ht h.grows hu (huid.trans hid.symm))
    cases h with
    | send h =>
      next tid root choice s s' =>
      cases h with
      | nowhere =>
        obtain ⟨rfl, rfl⟩ := by simpa using ha
        exact ⟨gone rfl rfl, _, ht, rfl, s, rfl, .inl ⟨_, rfl, rfl⟩⟩
      | mute =>
        obtain ⟨rfl, rfl⟩ := by simpa using ha
        exact ⟨gone rfl rfl, _, ht, rfl, s, rfl, .inl ⟨_, rfl, rfl⟩⟩
      | miss _ hd =>
        obtain ⟨rfl, rfl⟩ := by simpa using ha
        refine ⟨gone rfl rfl, _, ht, rfl, s, rfl, .inl ⟨_, rfl, ?_⟩⟩
        unfold dialResult? at hd
        split at hd
        next hj =>
          cases hd
          obtain ⟨u, hu, -, hj⟩ := exists_of_job? hj
          exact he u hu _ _ hj
        · cases hd
      | answer hs ho =>
        obtain ⟨rfl, rfl⟩ := by simpa using ha
        exact ⟨gone rfl rfl, _, ht, rfl, s, rfl, .inr ⟨_, _, hs, ho⟩⟩
      | refreshed _ _ hw => exact absurd ha (not_finish_of_warn hw)
      | _ => simp at ha
    | dial h => cases h <;> simp at ha
    | refresh h =>
      cases h with
      | fill => exact absurd ha (not_finish_of_warn (dialWarnings_warn r _))
      | _ => simp at ha
    | opening h => cases h <;> simp at ha
    | recovered _ hw => exact absurd ha (not_finish_of_warn hw)
    | _ => simp at ha
  | call h => cases h <;> simp at ha
  | news h => cases h <;> simp at ha

/-- The task of a command takes a turn: it could go on, or its rest is over. -/
def hasTurn (r : Router) (id : TaskId) (i : Input) : Bool :=
  match r.tasks.find? fun t => t.id == id with
  | none => false
  | some t =>
    match i with
    | .step id' _ => id' == id && r.isFree t
    | .rested id' =>
      match t.job with
      | .send ⟨_, _, _, _, .resting _⟩ => id' == id
      | _ => false
    | _ => false

/-- How many turns task `id` takes. -/
def turns (r : Router) (id : TaskId) : List Input → Nat
  | [] => 0
  | i :: is => (r.hasTurn id i).toNat + (r.step i).1.turns id is

theorem hasTurn_eq_false {id : TaskId} {i : Input} (hi : ∀ choice, i ≠ .step id choice)
    (hi' : i ≠ .rested id) : r.hasTurn id i = false := by
  unfold hasTurn
  split
  · rfl
  · split
    · rw [beq_false_of_ne fun h => hi _ (by rw [h]), Bool.false_and]
    · split
      · exact beq_false_of_ne fun h => hi' (by rw [h])
      · rfl
    · rfl

theorem turns_concat (r : Router) (id : TaskId) (js : List Input) (i : Input) :
    r.turns id (js ++ [i]) = r.turns id js + ((r.run js).1.hasTurn id i).toNat := by
  induction js generalizing r with
  | nil => simp [turns, run]
  | cons j js ih => simp [turns, run, ih, Nat.add_assoc]

theorem SendTurn.due_lt {id : TaskId} {choice : Nat} {s s' : Sending} {fresh : List Job}
    (h : SendTurn r id choice s (some s') fresh core acts) : s'.due < s.due := by
  cases h with
  | reach h =>
    simp only [Sending.due, h]
    split <;> exact Nat.add_lt_add_left (by simp [SendStage.due]) _
  | route h | anywhere h | submit h | ask h | follow h | asked h | refreshed h =>
    simp only [Sending.due, h]
    exact Nat.add_lt_add_left (by simp [SendStage.due]) _
  | moved h _ _ hb | shift h _ _ hb | again h _ _ hb =>
    simp only [Sending.due, h, SendStage.due]
    omega

end Router

end RespClient.Cluster
