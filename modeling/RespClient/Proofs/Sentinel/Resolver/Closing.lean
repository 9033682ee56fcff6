import RespClient.Proofs.Sentinel.Resolver.Notifier

namespace RespClient.Sentinel

def Input.opens : Input → Bool
  | .opening _ _ => true
  | _ => false

/-- The job is to see to it that a connection listens: an opening that has not gone on from there, or the
notifying that it called. -/
def Job.seeks : Job → Bool
  | .notify _ => true
  | .opening _ _ stage => !stage.resolves
  | _ => false

/-- The connection that a notifying hears the messages of and has in hand. -/
def Job.watched? : Job → Option ConnId
  | .notify (.listening c) | .notify (.subscribing c) => some c
  | .notify (.awaiting c _) | .notify (.giveUp c _) => some c
  | _ => none

theorem Job.over_of_watched? {job : Job} {c : ConnId} (h : job.watched? = some c) :
    job.over = false := by
  cases job with
  | notify stage =>
    cases stage with
    | listening | subscribing | awaiting | giveUp => rfl
    | _ => cases h
  | _ => cases h

theorem Job.seeks_of_watched? {job : Job} {c : ConnId} (h : job.watched? = some c) :
    job.seeks = true := by
  cases job with
  | notify stage => rfl
  | _ => cases h

namespace Resolver

/-- The opening with a number is there, and has not gone on to resolve what was asked for. -/
def Seeks (r : Resolver) (root : TaskId) : Prop :=
  ∃ t ∈ r.tasks, t.id = root ∧ t.root = root ∧
    ∃ master role stage, t.job = .opening master role stage ∧ stage.resolves = false

variable {s : SentinelSettings} {is js later : List Input} {i : Input} {r r' core : Resolver}
  {log acts : List Action} {t u : Task} {job fresh : Job} {job? fresh? : Option Job} {c : ConnId}

theorem Turn.seeks (h : Turn r i t (some job) fresh? core acts) (hs : job.seeks = true) :
    t.job.seeks = true := by
  generalize hjob : some job = job? at h
  cases h with
  | notify | connected | unreachable => rfl
  | opening h =>
    cases h with
    | start => rfl
    | notified | found =>
      cases hjob
      cases hs
    | refused | lost => cases hjob
  | resolve | lookup | reached | missed =>
    cases hjob
    cases hs
  | found | opened => cases hjob

/-- A notifying is called by an opening that waits for it from then on; all else that is called resolves. -/
theorem Turn.recruits (h : Turn r i t job? (some fresh) core acts) :
    (∃ master role, fresh = .resolve master role .start) ∨
    fresh = .notify .enter ∧ ∃ master role, t.job = .opening master role .start ∧
      job? = some (.opening master role (.notifying core.next)) := by
  generalize hfresh : some fresh = fresh? at h
  cases h with
  | notify h =>
    cases h <;> cases hfresh
    exact .inl ⟨_, _, rfl⟩
  | opening h =>
    cases h <;> cases hfresh
    · exact .inr ⟨rfl, _, _, rfl, rfl⟩
    · exact .inl ⟨_, _, rfl⟩
  | lookup =>
    cases hfresh
    exact .inl ⟨_, _, rfl⟩
  | resolve | found | reached | missed | connected | unreachable | opened => cases hfresh

/-- An opening keeps its job, and so does a notifying. -/
theorem Turn.keeps (h : Turn r i t (some job) fresh? core acts) :
    (∀ master role stage, job = .opening master role stage →
      ∃ stage, t.job = .opening master role stage) ∧
    ∀ stage, job = .notify stage → ∃ stage, t.job = .notify stage := by
  generalize hjob : some job = job? at h
  cases h with
  | notify | connected | unreachable =>
    cases hjob
    exact ⟨nofun, fun _ _ => ⟨_, rfl⟩⟩
  | opening h =>
    obtain ⟨stage, -, rfl⟩ := Option.map_eq_some_iff.mp hjob.symm
    refine ⟨fun _ _ _ hj => ?_, nofun⟩
    cases hj
    exact ⟨_, rfl⟩
  | resolve | lookup | reached | missed =>
    cases hjob
    exact ⟨nofun, nofun⟩
  | found | opened => cases hjob

/-- An opening stays where another task takes its turn. -/
theorem Turn.spares_opening (h : Turn r i t job? fresh? core acts) (hn : Numbered r) (ht : t ∈ r.tasks)
    (hu : u ∈ r.tasks) {master : String} {role : Role} {stage : OpenStage}
    (hj : u.job = .opening master role stage) (hne : u ≠ t) : u ∈ (core.turn t job? fresh?).tasks := by
  refine (hn.mem_turn ht h.grows).mpr (.inl ⟨hu, hne, fun hd => ?_⟩)
  obtain ⟨w, hw, hid, hover⟩ := h.grows.finished _ hd
  rw [hn.eq_of_id hw hu hid, hj] at hover
  cases hover

/-- A connection that is heard is in the hands of its task until it is recorded or asked to close. -/
theorem Turn.watched (h : Turn r i t job? fresh? core acts) (hc : t.job.watched? = some c) :
    job?.bind Job.watched? = some c ∨ core.notifier = some c ∨ .close c ∈ acts := by
  cases h with
  | notify h =>
    cases h with
    | watchEnd | mute | subscribe | rebuffed => exact .inl hc
    | record =>
      cases hc
      exact .inr (.inl rfl)
    | giveUp =>
      cases hc
      exact .inr (.inr (List.mem_singleton_self _))
    | _ => cases hc
  | _ => cases hc

theorem Turn.watches (h : Turn r i t job? fresh? core acts) (hc : .watchMessages c ∈ acts) :
    job?.bind Job.watched? = some c := by
  cases h with
  | resolve h => cases h <;> simp at hc
  | notify h =>
    cases h with
    | watchMessages =>
      obtain rfl := Action.watchMessages.inj (List.mem_singleton.mp hc)
      rfl
    | _ => simp at hc
  | opening h => cases h <;> simp at hc
  | _ => simp at hc

/-- Openings work for themselves, and each notifying for an opening that waits for it. -/
structure Attended (r : Resolver) : Prop where
  own : ∀ t ∈ r.tasks, ∀ master role stage, t.job = .opening master role stage → t.root = t.id
  waited : ∀ u ∈ r.tasks, ∀ stage, u.job = .notify stage →
    ∃ t ∈ r.tasks, t.id = u.root ∧ ∃ master role, t.job = .opening master role (.notifying u.id)

namespace Attended

theorem seeks (ha : Attended r) (hu : u ∈ r.tasks) (hs : u.job.seeks = true) : r.Seeks u.root := by
  cases hj : u.job with
  | notify stage =>
    obtain ⟨t, ht, hid, master, role, htj⟩ := ha.waited u hu stage hj
    refine ⟨t, ht, hid, ?_, master, role, _, htj, rfl⟩
    rw [ha.own t ht master role _ htj, hid]
  | opening master role stage =>
    have hown := ha.own u hu master role stage hj
    refine ⟨u, hu, hown.symm, rfl, master, role, stage, hj, ?_⟩
    rw [hj] at hs
    simpa [Job.seeks] using hs
  | resolve | lookup =>
    rw [hj] at hs
    cases hs

section

variable (ha : Attended r) (hn : Numbered r) (ht : t ∈ r.tasks) (h : Turn r i t job? fresh? core acts)

include ha hn ht h

theorem turn_own (hu : u ∈ (core.turn t job? fresh?).tasks) {master : String} {role : Role}
    {stage : OpenStage} (hj : u.job = .opening master role stage) : u.root = u.id := by
  rcases (hn.mem_turn ht h.grows).mp hu with ⟨hu, -, -⟩ | ⟨job, rfl, rfl⟩ | ⟨fresh, rfl, rfl⟩
  · exact ha.own u hu master role stage hj
  · obtain ⟨stage', hold⟩ := h.keeps.1 master role stage hj
    exact ha.own t ht master role stage' hold
  · rcases h.recruits with ⟨_, _, rfl⟩ | ⟨rfl, -⟩ <;> cases hj

theorem turn_waited (hu : u ∈ (core.turn t job? fresh?).tasks) {stage : NotifyStage}
    (hj : u.job = .notify stage) : ∃ v ∈ (core.turn t job? fresh?).tasks, v.id = u.root ∧
      ∃ master role, v.job = .opening master role (.notifying u.id) := by
  rcases (hn.mem_turn ht h.grows).mp hu with ⟨hold, -, hkept⟩ | ⟨job, rfl, rfl⟩ | ⟨fresh, rfl, rfl⟩
  · obtain ⟨v, hv, hid, master, role, hvj⟩ := ha.waited u hold stage hj
    -- Had the opening its turn, the notifying would be gone.
    have hne : v ≠ t := by
      rintro rfl
      exact hkept (by rw [hvj]; rfl)
    exact ⟨v, h.spares_opening hn ht hv hvj hne, hid, master, role, hvj⟩
  · obtain ⟨stage', hold⟩ := h.keeps.2 stage hj
    obtain ⟨v, hv, hid, master, role, hvj⟩ := ha.waited t ht stage' hold
    have hne : v ≠ t := by
      rintro rfl
      cases hvj.symm.trans hold
    exact ⟨v, h.spares_opening hn ht hv hvj hne, hid, master, role, hvj⟩
  · rcases h.recruits with ⟨_, _, rfl⟩ | ⟨rfl, master, role, hold, rfl⟩
    · cases hj
    · exact ⟨_, hn.mem_turn_self ht h.grows, (ha.own t ht master role _ hold).symm, master, role, rfl⟩

end

theorem call (ha : Attended r) (h : Call i job) : Attended (r.call job).2 where
  own t ht master role stage hj := by
    rcases List.mem_append.mp ht with ht | ht
    · exact ha.own t ht master role stage hj
    · obtain rfl := List.mem_singleton.mp ht
      rfl
  waited u hu stage hj := by
    rcases List.mem_append.mp hu with hu | hu
    · obtain ⟨t, ht, hid, hrest⟩ := ha.waited u hu stage hj
      exact ⟨t, List.mem_append_left _ ht, hid, hrest⟩
    · obtain rfl := List.mem_singleton.mp hu
      cases h <;> cases hj

theorem event (ha : Attended r) (hn : Numbered r) (h : Event r i r' acts) : Attended r' := by
  cases h with
  | turn ht h =>
    exact ⟨fun u hu master role stage hj => ha.turn_own hn ht h hu hj,
      fun u hu stage hj => ha.turn_waited hn ht h hu hj⟩
  | call h => exact ha.call h
  | news h => cases h <;> exact ⟨ha.own, ha.waited⟩

end Attended

theorem Reaches.attended (h : Reaches s is r log) : Attended r :=
  h.induct (P := fun _ r _ => Attended r) ⟨nofun, nofun⟩ fun h ha _ he => ha.event h.numbered he

/-- A connection that is heard has ended, was asked to close, is recorded, or is in the hands of a task. -/
theorem Reaches.watched_kept (h : Reaches s is r log) (hc : .watchMessages c ∈ log) :
    c ∈ r.down ∨ .close c ∈ log ∨ r.notifier = some c ∨ ∃ t ∈ r.tasks, t.job.watched? = some c := by
  refine h.induct (P := fun _ r log => ∀ c, .watchMessages c ∈ log → c ∈ r.down ∨ .close c ∈ log ∨
    r.notifier = some c ∨ ∃ t ∈ r.tasks, t.job.watched? = some c) nofun ?_ c hc
  intro is r log i r' acts h ih _ he c hc
  rcases List.mem_append.mp hc with hc | hc
  · rcases ih c hc with hd | hc | hs | ⟨t, ht, hj⟩
    · exact .inl (he.down hd)
    · exact .inr (.inl (List.mem_append_left _ hc))
    · have hrec := h.listening.event_recorded h he hs
      exact hrec.imp_right (Or.imp (List.mem_append_right _) .inl)
    · have hhand := he.in_hand h.numbered (fun _ => Job.over_of_watched?)
        (fun _ _ _ _ hx => hx.watched) ht hj
      exact .inr (hhand.imp_left (List.mem_append_right _))
  · cases he with
    | turn ht hx =>
      obtain ⟨job, rfl, hj⟩ := Option.bind_eq_some_iff.mp (hx.watches hc)
      exact .inr (.inr (.inr ⟨_, h.numbered.mem_turn_self ht hx.grows, hj⟩))
    | call => cases hc
    | news hx => cases hx <;> simp at hc

/-- Without a new opening, whoever seeks works for somebody who did before. -/
theorem Event.seeks (h : Event r i r' acts) (hn : Numbered r) (hi : i.opens = false)
    (hu : u ∈ r'.tasks) (hs : u.job.seeks = true) :
    ∃ t ∈ r.tasks, t.root = u.root ∧ t.job.seeks = true := by
  cases h with
  | turn ht h =>
    rcases (hn.mem_turn ht h.grows).mp hu with ⟨hu, -, -⟩ | ⟨job, rfl, rfl⟩ | ⟨fresh, rfl, rfl⟩
    · exact ⟨u, hu, rfl, hs⟩
    · exact ⟨_, ht, rfl, h.seeks hs⟩
    · rcases h.recruits with ⟨_, _, rfl⟩ | ⟨-, _, _, hold, -⟩
      · cases hs
      · exact ⟨_, ht, rfl, by rw [hold]; rfl⟩
  | call h =>
    rcases List.mem_append.mp hu with hu | hu
    · exact ⟨u, hu, rfl, hs⟩
    · obtain rfl := List.mem_singleton.mp hu
      cases h with
      | lookup => cases hs
      | opening => cases hi
  | news h => cases h <;> exact ⟨u, hu, rfl, hs⟩

/-- Since `r` was closed, a notifying has recorded a connection, for an opening that was under way. -/
def Recorded (r : Resolver) (later : List Input) (c : ConnId) : Prop :=
  ∃ js t choice ks k x, later = js ++ .step t.id choice :: ks ∧ t ∈ (r.close.1.run js).1.tasks ∧
    t.job = .notify (.awaiting c k) ∧ (r.close.1.run js).1.mail? k = some (.ok x) ∧ r.Seeks t.root

/-- A connection that is heard stays behind after `r` was closed: it was recorded since and is still, or a
task has it in hand, and all that for an opening that was under way. -/
def Lingers (r : Resolver) (later : List Input) (c : ConnId) : Prop :=
  (r.close.1.run later).1.notifier = some c ∧ Recorded r later c ∨
    ∃ t ∈ (r.close.1.run later).1.tasks, t.job.watched? = some c ∧ r.Seeks t.root

theorem Recorded.concat (h : Recorded r later c) (i : Input) : Recorded r (later ++ [i]) c := by
  obtain ⟨js, t, choice, ks, k, x, rfl, h⟩ := h
  exact ⟨js, t, choice, ks ++ [i], k, x, by simp, h⟩

theorem Lingers.exists_seeks (h : Lingers r later c) : ∃ root, r.Seeks root := by
  rcases h with ⟨-, _, t, _, _, _, _, -, -, -, -, hs⟩ | ⟨t, -, -, hs⟩
  · exact ⟨t.root, hs⟩
  · exact ⟨t.root, hs⟩

/-- What is the case after some inputs that followed the close. -/
structure Winding (r : Resolver) (later : List Input) (r' : Resolver) : Prop where
  seekers : ∀ u ∈ r'.tasks, u.job.seeks = true → r.Seeks u.root
  noted : ∀ c, r'.notifier = some c → Recorded r later c

theorem Reaches.close (h : Reaches s is r log) :
    Reaches s (is ++ [.close]) r.close.1 (log ++ r.close.2) := h.step (i := .close) trivial

theorem Reaches.winding (h : Reaches s is r log) (hl : AdmitsAll (is ++ [.close]) r.close.1 later)
    (hq : ∀ i ∈ later, i.opens = false) : Winding r later (r.close.1.run later).1 := by
  refine h.close.induct_run (P := fun js r' _ => (∀ i ∈ js, i.opens = false) → Winding r js r') hl
    (fun _ => ⟨fun u hu hs => h.attended.seeks hu hs, nofun⟩) ?_ hq
  intro js i _ hm ih _ hq
  obtain ⟨hjs, hi⟩ := List.forall_mem_append.mp hq
  have hw := ih hjs
  have he := step_event (r.close.1.run js).1 i
  refine ⟨?_, ?_⟩
  · intro u hu hs
    obtain ⟨t, ht, hroot, hseeks⟩ :=
      he.seeks hm.numbered (hi i (List.mem_singleton_self i)) hu hs
    rw [← hroot]
    exact hw.seekers t ht hseeks
  · intro c hc
    rcases he.notifier hm.numbered with hs | ⟨_, -, hs, -⟩ |
      ⟨t, ht, choice, c', k, x, rfl, hj, hmail, hs, -⟩
    · exact (hw.noted c (hs ▸ hc)).concat i
    · cases hs.symm.trans hc
    · cases hs.symm.trans hc
      exact ⟨js, t, choice, [], k, x, rfl, ht, hj, hmail, hw.seekers t ht (by rw [hj]; rfl)⟩

/-- With no new opening, each connection that is heard has ended, was asked to close, or lingers. -/
theorem Reaches.lingers (h : Reaches s is r log) (hl : AdmitsAll (is ++ [.close]) r.close.1 later)
    (hq : ∀ i ∈ later, i.opens = false)
    (hc : .watchMessages c ∈ log ++ r.close.2 ++ (r.close.1.run later).2) :
    c ∈ (r.close.1.run later).1.down ∨ .close c ∈ log ++ r.close.2 ++ (r.close.1.run later).2 ∨
      Lingers r later c := by
  have hw := h.winding hl hq
  rcases (h.close.run later hl).watched_kept hc with hd | hclose | hn | ⟨t, ht, hj⟩
  · exact .inl hd
  · exact .inr (.inl hclose)
  · exact .inr (.inr (.inl ⟨hn, hw.noted c hn⟩))
  · exact .inr (.inr (.inr ⟨t, ht, hj, hw.seekers t ht (Job.seeks_of_watched? hj)⟩))

end Resolver

end RespClient.Sentinel
