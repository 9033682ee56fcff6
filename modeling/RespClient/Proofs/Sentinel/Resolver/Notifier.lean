import RespClient.Proofs.Sentinel.Resolver.Custody
import RespClient.Proofs.Sentinel.Resolver.Helpers
import RespClient.Proofs.Sentinel.Resolver.Lock

namespace RespClient.Sentinel

/-- The connection on which a job has submitted a subscription, or has given it up. -/
def Job.subscribed? : Job → Option ConnId
  | .notify (.awaiting c _) | .notify (.giveUp c _) => some c
  | _ => none

/-- Opening has gone on to resolve what was asked for. -/
def OpenStage.resolves : OpenStage → Bool
  | resolving _ | calling => true
  | _ => false

theorem Job.over_of_subscribed? {job : Job} {c : ConnId} (h : job.subscribed? = some c) :
    job.over = false := by
  cases job with
  | notify stage => cases stage <;> first | rfl | cases h
  | _ => cases h

theorem Job.mem_holds_of_subscribed? {job : Job} {c : ConnId} (h : job.subscribed? = some c) :
    c ∈ job.holds := by
  cases job with
  | notify stage => cases stage <;> cases h <;> exact List.mem_singleton_self _
  | _ => cases h

theorem Job.locked_of_subscribed? {job : Job} {c : ConnId} (h : job.subscribed? = some c) :
    job.locked = true := by
  cases job with
  | notify stage => cases stage <;> first | rfl | cases h
  | _ => cases h

namespace Resolver

/-- The subscription was submitted on a connection. -/
def Subscribed (log : List Action) (c : ConnId) : Prop :=
  ∃ k, .submit c k subscriptionFrame ∈ log

/-- The subscription was submitted on a connection, and accepted. -/
def Confirmed (is : List Input) (log : List Action) (c : ConnId) : Prop :=
  ∃ k x, .submit c k subscriptionFrame ∈ log ∧ .reply k (.ok x) ∈ is

/-- A connection on which the subscription was submitted, that is alive and not asked to close. -/
def Live (r : Resolver) (log : List Action) (c : ConnId) : Prop :=
  Subscribed log c ∧ c ∉ r.down ∧ .close c ∉ log

/-- Task `d` is about to see that `c` listens, or to record that it does. -/
def Secures (r : Resolver) (d : TaskId) (c : ConnId) : Prop :=
  r.job? d = some (.notify .waiting) ∧ r.lock.head? = some d ∧ r.listener? = some c ∨
  ∃ k x, r.job? d = some (.notify (.awaiting c k)) ∧ r.mail? k = some (.ok x)

/-- While opening `id` waited for it, its task for that saw that a connection listens, or recorded one.
The subscription had been accepted on it, and nobody had asked it to close. -/
def Secured (s : SentinelSettings) (is : List Input) (id : TaskId) (master : String) (role : Role) : Prop :=
  ∃ ks d choice ls c, is = ks ++ .step d choice :: ls ∧
    (after s ks).job? id = some (.opening master role (.notifying d)) ∧ Secures (after s ks) d c ∧
    ((after s ks).step (.step d choice)).1.notifier = some c ∧
    Confirmed ks (run (ofSettings s) ks).2 c ∧ .close c ∉ (run (ofSettings s) ks).2

variable {s : SentinelSettings} {is : List Input} {i : Input} {r r' core : Resolver}
  {log acts : List Action} {t u : Task} {job : Job} {job? fresh? : Option Job} {c : ConnId} {k : Claim}

theorem listener?_eq_some : r.listener? = some c ↔ r.notifier = some c ∧ c ∉ r.down := by
  simp [listener?, isDown, Option.filter_eq_some_iff]

theorem listener?_eq_none : r.listener? = none ↔ ∀ c, r.notifier = some c → c ∈ r.down := by
  simp [listener?, isDown, Option.filter_eq_none_iff]

/-- Who goes on under the lock had it, or has found that nobody listens. -/
theorem Turn.locked (h : Turn r i t (some job) fresh? core acts) (hl : job.locked = true) :
    t.job.locked = true ∨ r.listener? = none := by
  generalize hjob : some job = job? at h
  cases h with
  | resolve | reached | missed | lookup | unreachable =>
    cases hjob
    cases hl
  | notify h =>
    cases hjob
    cases h with
    | resolve _ hn => exact .inr hn
    | enter | found | stuck | record | giveUp => cases hl
    | _ => exact .inl rfl
  | opening h => cases h <;> cases hjob <;> cases hl
  | connected => exact .inl rfl
  | found | opened => cases hjob

/-- A subscription is in the hands of its task until it is recorded or the connection closed. -/
theorem Turn.subscribed (h : Turn r i t job? fresh? core acts) (hc : t.job.subscribed? = some c) :
    job?.bind Job.subscribed? = some c ∨ core.notifier = some c ∨ .close c ∈ acts := by
  cases h with
  | notify h =>
    cases h with
    | rebuffed => exact .inl hc
    | record =>
      cases hc
      exact .inr (.inl rfl)
    | giveUp =>
      cases hc
      exact .inr (.inr (List.mem_singleton_self _))
    | _ => cases hc
  | _ => cases hc

/-- The subscription is submitted by a task that notifies, on the connection that it holds. -/
theorem Turn.subscribes (h : Turn r i t job? fresh? core acts)
    (hs : .submit c k subscriptionFrame ∈ acts) :
    t.job = .notify (.subscribing c) ∧ job? = some (.notify (.awaiting c k)) := by
  cases h with
  | resolve h =>
    cases h with
    | ask =>
      have hf := (Action.submit.inj (List.mem_singleton.mp hs)).2.2
      exact absurd hf.symm (question_ne_subscription _ _)
    | _ => simp at hs
  | notify h =>
    cases h with
    | subscribe =>
      obtain ⟨rfl, rfl, -⟩ := Action.submit.inj (List.mem_singleton.mp hs)
      exact ⟨rfl, rfl⟩
    | _ => simp at hs
  | opening h => cases h <;> simp at hs
  | _ => simp at hs

theorem Turn.awaits (h : Turn r i t (some (.notify (.awaiting c k))) fresh? core acts) :
    .submit c k subscriptionFrame ∈ acts := by
  generalize hjob : some (Job.notify (.awaiting c k)) = job? at h
  cases h with
  | notify h =>
    cases hjob
    cases h
    exact List.mem_singleton_self _
  | resolve | reached | missed | lookup | unreachable | connected | found | opened => cases hjob
  | opening h => cases h <;> cases hjob

/-- What is recorded stays so, but for what has ended or is closed, until a task records another one. -/
theorem Event.notifier (h : Event r i r' acts) (hn : Numbered r) : r'.notifier = r.notifier ∨
    (∃ c, r.notifier = some c ∧ r'.notifier = none ∧ (c ∈ r.down ∨ .close c ∈ acts)) ∨
    ∃ t ∈ r.tasks, ∃ choice c k x, i = .step t.id choice ∧ t.job = .notify (.awaiting c k) ∧
      r.mail? k = some (.ok x) ∧ r'.notifier = some c ∧
      ∀ u ∈ r'.tasks, u.job.locked = true → u ∈ r.tasks ∧ u ≠ t := by
  cases h with
  | @turn t job? fresh? core acts ht h =>
    rw [turn_eq]
    rcases h.notifier with hs | ⟨choice, c, k, x, hi, hj, hm, hs, -, rfl⟩
    · exact .inl hs
    · refine .inr (.inr ⟨t, ht, choice, c, k, x, hi, hj, hm, hs, fun u hu hl => ?_⟩)
      rw [← turn_eq] at hu
      rcases (hn.mem_turn ht h.grows).mp hu with ⟨hu, hne, -⟩ | ⟨job, hj, rfl⟩ | ⟨job, hj, rfl⟩
      · exact ⟨hu, hne⟩
      · cases hj
        cases hl
      · cases (h.grows.recruits job hj).queued.symm.trans (Job.queued_of_locked hl)
  | call => exact .inl rfl
  | news h =>
    cases h with
    | cleared hs hd => exact .inr (.inl ⟨_, hs, rfl, .inl (isDown_iff.mp hd)⟩)
    | close =>
      cases hs : r.notifier with
      | none => exact .inl rfl
      | some c => exact .inr (.inl ⟨c, rfl, rfl, .inr (by simp)⟩)
    | _ => exact .inl rfl

/-- The subscription is submitted by the task under the lock, which holds the connection then. -/
theorem Event.subscribes (h : Event r i r' acts) (hn : Numbered r)
    (hs : .submit c k subscriptionFrame ∈ acts) :
    ∃ t ∈ r.tasks, t.job = .notify (.subscribing c) ∧
      { t with job := .notify (.awaiting c k) } ∈ r'.tasks := by
  cases h with
  | turn ht h =>
    obtain ⟨hj, rfl⟩ := h.subscribes hs
    exact ⟨_, ht, hj, hn.mem_turn_self ht h.grows⟩
  | call => cases hs
  | news h => cases h <;> simp at hs

/-- What a task has in hand stays with it over turns until it is recorded or asked to close: so it does over
events. -/
theorem Event.in_hand (h : Event r i r' acts) (hn : Numbered r) {hand? : Job → Option ConnId}
    (hover : ∀ job, hand? job = some c → job.over = false)
    (hturn : ∀ t job? fresh? core, Turn r i t job? fresh? core acts → hand? t.job = some c →
      job?.bind hand? = some c ∨ core.notifier = some c ∨ .close c ∈ acts)
    (ht : t ∈ r.tasks) (hj : hand? t.job = some c) :
    .close c ∈ acts ∨ r'.notifier = some c ∨ ∃ u ∈ r'.tasks, hand? u.job = some c := by
  rcases h.task_fate hn ht with hmem | ⟨job?, fresh?, core, hx, rfl⟩ | ⟨ho, -⟩
  · exact .inr (.inr ⟨t, hmem, hj⟩)
  · rcases hturn t job? fresh? core hx hj with hj | hs | hc
    · obtain ⟨job, rfl, hj⟩ := Option.bind_eq_some_iff.mp hj
      exact .inr (.inr ⟨_, hn.mem_turn_self ht hx.grows, hj⟩)
    · exact .inr (.inl (by rw [turn_eq]; exact hs))
    · exact .inl hc
  · cases (hover t.job hj).symm.trans ho

structure Listening (is : List Input) (r : Resolver) (log : List Action) : Prop where
  unheard : ∀ t ∈ r.tasks, t.job.locked = true → r.listener? = none
  kept : ∀ c, Subscribed log c → c ∈ r.down ∨ .close c ∈ log ∨ r.notifier = some c ∨
    ∃ t ∈ r.tasks, t.job.subscribed? = some c
  noted : ∀ c, r.notifier = some c → Confirmed is log c
  awaited : ∀ t ∈ r.tasks, ∀ c k, t.job = .notify (.awaiting c k) →
    .submit c k subscriptionFrame ∈ log

theorem Confirmed.append (h : Confirmed is log c) (i : Input) (acts : List Action) :
    Confirmed (is ++ [i]) (log ++ acts) c := by
  obtain ⟨k, x, hs, hk⟩ := h
  exact ⟨k, x, List.mem_append_left _ hs, List.mem_append_left _ hk⟩

theorem Listening.confirmed (hl : Listening is r log) (h : Reaches s is r log) (ht : t ∈ r.tasks)
    (hj : t.job = .notify (.awaiting c k)) {x : Reply} (hm : r.mail? k = some (.ok x)) :
    Confirmed is log c :=
  ⟨k, x, hl.awaited t ht c k hj, h.mail (mem_of_mail? hm)⟩

section

variable (h : Reaches s is r log) (hl : Listening is r log) (he : Event r i r' acts)

include h hl he

theorem Listening.event_unheard (hu : u ∈ r'.tasks) (hul : u.job.locked = true) :
    r'.listener? = none := by
  have hnone : r.listener? = none := by
    rcases he.task_cases h.numbered hu with ⟨hu, -⟩ | ⟨t, ht, fresh?, core, -, hx, -⟩ | ⟨-, hf⟩
    · exact hl.unheard u hu hul
    · exact (hx.locked hul).elim (hl.unheard t ht) id
    · cases hf.queued.symm.trans (Job.queued_of_locked hul)
  rw [listener?_eq_none] at hnone ⊢
  intro c hc
  rcases he.notifier h.numbered with hs | ⟨c', -, hs, -⟩ | ⟨t, ht, _, _, _, _, -, hj, -, -, hrest⟩
  · exact he.down (hnone c (hs ▸ hc))
  · cases hs.symm.trans hc
  · -- Nobody else has the lock when a task records its connection.
    obtain ⟨hu, hne⟩ := hrest u hu hul
    exact absurd (h.lock.unique h.numbered hu ht hul (by rw [hj]; rfl)) hne

/-- What is recorded stays so, unless it has ended or is asked to close. -/
theorem Listening.event_recorded (hs : r.notifier = some c) :
    c ∈ r'.down ∨ .close c ∈ acts ∨ r'.notifier = some c := by
  rcases he.notifier h.numbered with hs' | ⟨c', hc', -, hd | hc⟩ | ⟨t, ht, _, _, _, _, -, hj, -⟩
  · exact .inr (.inr (hs'.trans hs))
  · cases hs.symm.trans hc'
    exact .inl (he.down hd)
  · cases hs.symm.trans hc'
    exact .inr (.inl hc)
  · -- It is only replaced once it has ended.
    have hnone := hl.unheard t ht (by rw [hj]; rfl)
    exact .inl (he.down (listener?_eq_none.mp hnone c hs))

theorem Listening.event_kept (hc : Subscribed (log ++ acts) c) : c ∈ r'.down ∨
    .close c ∈ log ++ acts ∨ r'.notifier = some c ∨ ∃ t ∈ r'.tasks, t.job.subscribed? = some c := by
  obtain ⟨k, hk⟩ := hc
  rcases List.mem_append.mp hk with hk | hk
  · rcases hl.kept c ⟨k, hk⟩ with hd | hc | hs | ⟨t, ht, hj⟩
    · exact .inl (he.down hd)
    · exact .inr (.inl (List.mem_append_left _ hc))
    · have hrec := hl.event_recorded h he hs
      exact hrec.imp_right (Or.imp (List.mem_append_right _) .inl)
    · have hhand := he.in_hand h.numbered (fun _ => Job.over_of_subscribed?)
        (fun _ _ _ _ hx => hx.subscribed) ht hj
      exact .inr (hhand.imp_left (List.mem_append_right _))
  · obtain ⟨t, -, -, hmem⟩ := he.subscribes h.numbered hk
    exact .inr (.inr (.inr ⟨_, hmem, rfl⟩))

theorem Listening.event_noted (hc : r'.notifier = some c) : Confirmed (is ++ [i]) (log ++ acts) c := by
  rcases he.notifier h.numbered with hs | ⟨c', -, hs, -⟩ | ⟨t, ht, _, c', k, x, -, hj, hm, hs, -⟩
  · exact (hl.noted c (hs ▸ hc)).append i acts
  · cases hs.symm.trans hc
  · cases hs.symm.trans hc
    exact (hl.confirmed h ht hj hm).append i acts

theorem Listening.event_awaited (hu : u ∈ r'.tasks) (hj : u.job = .notify (.awaiting c k)) :
    .submit c k subscriptionFrame ∈ log ++ acts := by
  rcases he.task_cases h.numbered hu with ⟨hu, -⟩ | ⟨t, -, fresh?, core, -, hx, -⟩ | ⟨-, hf⟩
  · exact List.mem_append_left _ (hl.awaited u hu c k hj)
  · rw [hj] at hx
    exact List.mem_append_right _ hx.awaits
  · rw [hj] at hf
    cases hf

end

theorem Reaches.listening (h : Reaches s is r log) : Listening is r log := by
  refine h.induct (P := Listening) ⟨nofun, ?_, nofun, nofun⟩ fun h hl _ he => ?_
  · rintro c ⟨k, hk⟩
    cases hk
  · exact ⟨fun u hu hul => hl.event_unheard h he hu hul, fun c hc => hl.event_kept h he hc,
      fun c hc => hl.event_noted h he hc, fun u hu c k hj => hl.event_awaited h he hu hj⟩

/-- A task that notifies and ends well has seen that a connection listens, or has recorded one. -/
theorem Turn.secures (h : Turn r i t (some (.notify (.done (.ok ())))) fresh? core acts)
    (hn : Numbered r) (ht : t ∈ r.tasks) :
    ∃ choice c, i = .step t.id choice ∧ core.notifier = some c ∧ Secures r t.id c := by
  have hjob := hn.job?_eq ht
  generalize hdone : some (Job.notify (.done (.ok ()))) = job? at h
  cases h with
  | notify h =>
    cases hdone
    cases h with
    | found hh hc => exact ⟨_, _, rfl, (listener?_eq_some.mp hc).1, .inl ⟨hjob, hh, hc⟩⟩
    | record hm => exact ⟨_, _, rfl, rfl, .inr ⟨_, _, hjob, hm⟩⟩
  | resolve | reached | missed | lookup | unreachable | connected | found | opened => cases hdone
  | opening h => cases h <;> cases hdone

/-- Opening goes on to resolve when its notifying has ended well. -/
theorem Turn.resolves {master : String} {role : Role} {stage : OpenStage}
    (h : Turn r i t (some (.opening master role stage)) fresh? core acts)
    (hs : stage.resolves = true) :
    (∃ d, t.job = .opening master role (.notifying d) ∧ r.notifyResult? d = some (.ok ())) ∨
    ∃ stage', t.job = .opening master role stage' ∧ stage'.resolves = true := by
  generalize hjob : some (Job.opening master role stage) = job? at h
  cases h with
  | opening h =>
    cases h <;> cases hjob
    · cases hs
    · exact .inl ⟨_, rfl, by assumption⟩
    · exact .inr ⟨_, rfl, rfl⟩
  | resolve | notify | reached | missed | lookup | unreachable | connected | found | opened =>
    cases hjob

theorem Reaches.confirmed (h : Reaches s is r log) (ht : t ∈ r.tasks) (hc : Secures r t.id c) :
    Confirmed is log c ∧ .close c ∉ log := by
  rcases hc with ⟨-, -, hc⟩ | ⟨k, x, hj, hm⟩
  · have hs := (listener?_eq_some.mp hc).1
    exact ⟨h.listening.noted c hs, h.custody.listening c hs⟩
  · have hjob : t.job = .notify (.awaiting c k) :=
      Option.some.inj ((h.numbered.job?_eq ht).symm.trans hj)
    refine ⟨h.listening.confirmed h ht hjob hm, h.custody.spared t ht c ?_⟩
    rw [hjob]
    exact List.mem_singleton_self c

theorem Secured.concat {id : TaskId} {master : String} {role : Role} (h : Secured s is id master role)
    (i : Input) : Secured s (is ++ [i]) id master role := by
  obtain ⟨ks, d, choice, ls, c, rfl, h⟩ := h
  exact ⟨ks, d, choice, ls ++ [i], c, by simp, h⟩

/-- A notifying ends well while an opening waits for it. -/
theorem Reaches.secured_now {w : Task} {master : String} {role : Role} (h : Reaches s is r log)
    (hu : u ∈ r.tasks) (hw : w ∈ r.tasks) (hj : u.job = .opening master role (.notifying w.id))
    (hx : Turn r i w (some (.notify (.done (.ok ())))) fresh? core acts)
    (hr : (r.step i).1 = core.turn w (some (.notify (.done (.ok ())))) fresh?) :
    Secured s (is ++ [i]) u.id master role := by
  obtain ⟨choice, c, rfl, hs, hc⟩ := hx.secures h.numbered hw
  obtain ⟨hconf, hopen⟩ := h.confirmed hw hc
  have hrec : (r.step (.step w.id choice)).1.notifier = some c := by
    rw [hr, turn_eq]
    exact hs
  have hjob : r.job? u.id = some (.opening master role (.notifying w.id)) := by
    rw [h.numbered.job?_eq hu, hj]
  rw [h.eq_after] at hjob hc hrec
  rw [h.log_eq] at hconf hopen
  exact ⟨is, w.id, choice, [], c, rfl, hjob, hc, hrec, hconf, hopen⟩

structure Opens (s : SentinelSettings) (is : List Input) (r : Resolver) : Prop where
  notified : ∀ t ∈ r.tasks, ∀ master role d, t.job = .opening master role (.notifying d) →
    r.notifyResult? d = some (.ok ()) → Secured s is t.id master role
  opened : ∀ t ∈ r.tasks, ∀ master role stage, t.job = .opening master role stage →
    stage.resolves = true → Secured s is t.id master role

section

variable (h : Reaches s is r log) (ho : Opens s is r) {master : String} {role : Role}

include h ho

theorem Opens.step_notified (hu : u ∈ (r.step i).1.tasks) {d : TaskId}
    (hj : u.job = .opening master role (.notifying d))
    (hd : (r.step i).1.notifyResult? d = some (.ok ())) : Secured s (is ++ [i]) u.id master role := by
  have hn := h.numbered
  have he := step_event r i
  obtain ⟨v, hv, rfl, hvj⟩ := exists_of_notifyResult? hd
  rcases he.task_cases hn hu with ⟨hold, -⟩ | ⟨t, ht, fresh?, core, hid, hx, hr⟩ | ⟨-, hf⟩
  · rcases he.task_cases hn hv with ⟨hv, -⟩ | ⟨w, hw, fresh?, core, hid, hx, hr⟩ | ⟨-, hf⟩
    · refine (ho.notified u hold master role v.id hj ?_).concat i
      rw [notifyResult?, hn.job?_eq hv, hvj]
    · rw [hvj] at hx hr
      exact h.secured_now hold hw (hid ▸ hj) hx hr
    · rw [hvj] at hf
      cases hf
  · -- Who begins to wait waits for a task that is new.
    rw [hj] at hx hr
    obtain ⟨hnext, fresh, rfl, -⟩ := hx.employs rfl
    rw [hr] at hv
    rcases (hn.mem_turn ht hx.grows).mp hv with ⟨hv, -, -⟩ | ⟨job, hjob, rfl⟩ | ⟨job, hjob, rfl⟩
    · exact absurd (hn.bound v hv) (Nat.not_lt_of_ge (hnext ▸ hx.grows.next))
    · cases (Option.some.inj hjob).trans hvj
    · have hf := hx.grows.recruits job hjob
      rw [show job = .notify (.done (.ok ())) from hvj] at hf
      cases hf
  · rw [hj] at hf
    cases hf

theorem Opens.step_opened (hu : u ∈ (r.step i).1.tasks) {stage : OpenStage}
    (hj : u.job = .opening master role stage) (hs : stage.resolves = true) :
    Secured s (is ++ [i]) u.id master role := by
  rcases (step_event r i).task_cases h.numbered hu with ⟨hu, -⟩ |
    ⟨t, ht, fresh?, core, hid, hx, -⟩ | ⟨-, hf⟩
  · exact (ho.opened u hu master role stage hj hs).concat i
  · rw [hj] at hx
    rw [← hid]
    rcases hx.resolves hs with ⟨d, htj, hd⟩ | ⟨stage', htj, hs⟩
    · exact (ho.notified t ht master role d htj hd).concat i
    · exact (ho.opened t ht master role stage' htj hs).concat i
  · rw [hj] at hf
    cases hf
    cases hs

end

theorem Reaches.opens (h : Reaches s is r log) : Opens s is r := by
  induction h with
  | start => exact ⟨nofun, nofun⟩
  | step h hi ih =>
    exact ⟨fun u hu master role d hj hd => ih.step_notified h hu hj hd,
      fun u hu master role stage hj hs => ih.step_opened h hu hj hs⟩

/-- A live connection with a subscription is the one that is recorded, or belongs to the task under the
lock. -/
theorem Reaches.live (h : Reaches s is r log) (hc : Live r log c) : r.listener? = some c ∨
    ∃ t ∈ r.tasks, t.job.locked = true ∧ t.job.subscribed? = some c := by
  obtain ⟨hs, hd, hopen⟩ := hc
  rcases h.listening.kept c hs with hdown | hclosed | hn | ⟨t, ht, hj⟩
  · exact absurd hdown hd
  · exact absurd hclosed hopen
  · exact .inl (listener?_eq_some.mpr ⟨hn, hd⟩)
  · exact .inr ⟨t, ht, Job.locked_of_subscribed? hj, hj⟩

/-- One connection listens. Of all connections on which the subscription was submitted one at most is alive
and not asked to close, and somebody has it in hand. Opening a connection goes on to resolve its role only
when a task of its own has seen such a connection recorded, or has recorded it; between the reply to its
subscription and the record it may have ended, though. The subscription is submitted anew only when all
connections before have ended or were asked to close, as those are on which it failed. And the end of
another connection does not touch the one that is recorded and alive. -/
theorem one_listener (h : Reaches s is r log) :
    (∀ c c', Live r log c → Live r log c' → c = c') ∧
    (∀ c, Live r log c → c ∈ r.holds) ∧
    (∀ id master role stage, r.job? id = some (.opening master role stage) →
      stage.resolves = true → Secured s is id master role) ∧
    (∀ i c k, .submit c k subscriptionFrame ∈ (r.step i).2 →
      ∀ c', Subscribed log c' → c' ∈ r.down ∨ .close c' ∈ log) ∧
    ∀ c c', r.listener? = some c → (r.step (.ended c')).1 = r ∧
      (c' ≠ c → (r.step (.down c')).1.listener? = some c) := by
  have hn := h.numbered
  have hl := h.listening
  refine ⟨?_, ?_, ?_, ?_, ?_⟩
  · intro c c' hc hc'
    rcases h.live hc with hs | ⟨t, ht, hlock, hj⟩ <;> rcases h.live hc' with hs' | ⟨u, hu, hlock', hj'⟩
    · exact Option.some.inj (hs.symm.trans hs')
    · cases hs.symm.trans (hl.unheard u hu hlock')
    · cases hs'.symm.trans (hl.unheard t ht hlock)
    · obtain rfl := h.lock.unique hn ht hu hlock hlock'
      exact Option.some.inj (hj.symm.trans hj')
  · intro c hc
    rcases h.live hc with hs | ⟨t, ht, -, hj⟩
    · refine List.mem_append_left _ ?_
      simp [(listener?_eq_some.mp hs).1]
    · exact List.mem_append_right _ (List.mem_flatMap.mpr ⟨t, ht, Job.mem_holds_of_subscribed? hj⟩)
  · intro id master role stage hj hs
    obtain ⟨t, ht, rfl, htj⟩ := exists_of_job? hj
    exact h.opens.opened t ht master role stage htj hs
  · intro i c k hs c' hc'
    obtain ⟨t, ht, hj, -⟩ := (step_event r i).subscribes hn hs
    by_contra hlive
    rw [not_or] at hlive
    have hlock : t.job.locked = true := by
      rw [hj]
      rfl
    rcases h.live ⟨hc', hlive.1, hlive.2⟩ with hs' | ⟨u, hu, hlock', hj'⟩
    · cases hs'.symm.trans (hl.unheard t ht hlock)
    · obtain rfl := h.lock.unique hn ht hu hlock hlock'
      rw [hj] at hj'
      cases hj'
  · intro c c' hc
    obtain ⟨hs, hd⟩ := listener?_eq_some.mp hc
    have hup : r.isDown c = false := by simpa [isDown] using hd
    refine ⟨by simp [Resolver.step, hs, hup], fun hne => listener?_eq_some.mpr ⟨hs, ?_⟩⟩
    exact fun hmem => (List.mem_append.mp hmem).elim hd fun hmem => hne (List.mem_singleton.mp hmem).symm

/-- A connection is opened, and the one that listens for it. -/
def opening : List Input :=
  [.opening "m" .master, .step 0 0, .step 1 0, .step 1 0, .step 2 0, .step 2 0, .dialed 2 (.ok 0), .step 2 0,
    .reply 3 (.ok (.status "PONG")), .step 2 0, .step 2 0, .step 2 0, .step 1 0, .dialed 1 (.ok 1),
    .step 1 0, .step 1 0, .step 1 0, .reply 4 (.ok (.integer 1)), .step 1 0, .step 0 0]

theorem one_listener_opening : Secured { endpoints := ["a:1"] } opening 0 "m" .master ∧
    ∀ c, Live (after { endpoints := ["a:1"] } opening)
      (run (ofSettings { endpoints := ["a:1"] }) opening).2 c → c = 1 := by
  have h : Reaches { endpoints := ["a:1"] } opening (after { endpoints := ["a:1"] } opening)
      (run (ofSettings { endpoints := ["a:1"] }) opening).2 := Reaches.start.run _ (by decide +kernel)
  obtain ⟨hone, -, hopen, -⟩ := one_listener h
  have hsub : (run (ofSettings { endpoints := ["a:1"] }) opening).2[6]? =
      some (.submit 1 4 subscriptionFrame) := rfl
  have hclosed : (run (ofSettings { endpoints := ["a:1"] }) opening).2.filterMap (fun
      | .close c => some c
      | _ => none) = [0] := rfl
  have hlive : Live (after { endpoints := ["a:1"] } opening)
      (run (ofSettings { endpoints := ["a:1"] }) opening).2 1 := by
    refine ⟨⟨4, List.mem_of_getElem? hsub⟩, by decide +kernel, fun hmem => ?_⟩
    have hone : 1 ∈ [0] := hclosed ▸ List.mem_filterMap.mpr ⟨_, hmem, rfl⟩
    exact absurd hone (by decide)
  exact ⟨hopen 0 "m" .master (.resolving 5) rfl rfl, fun c hc => hone c 1 hc hlive⟩

end Resolver

end RespClient.Sentinel
