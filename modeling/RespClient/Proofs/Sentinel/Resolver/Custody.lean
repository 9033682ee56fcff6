import RespClient.Proofs.Sentinel.Resolver.Runs

namespace RespClient.Sentinel.Resolver

variable {s : SentinelSettings} {is js : List Input} {i : Input} {r r' core : Resolver}
  {log acts : List Action} {t u : Task} {job? fresh? : Option Job} {c : ConnId} {id : TaskId}

theorem IsFresh.holds {job : Job} (h : job.IsFresh) : job.holds = [] := by cases h <;> rfl

/-- A task holds what it held before, or what has just come in for it. -/
theorem Turn.holds {job : Job} (h : Turn r i t (some job) fresh? core acts) (hc : c ∈ job.holds) :
    c ∈ t.job.holds ∨ i = .dialed t.id (.ok c) := by
  generalize hjob : some job = job? at h
  cases h with
  | resolve h =>
    cases hjob
    cases h <;> first | exact .inl hc | cases hc
  | notify h =>
    cases hjob
    cases h <;> first | exact .inl hc | cases hc
  | opening h =>
    cases h <;> cases hjob <;> cases hc
  | reached | connected =>
    cases hjob
    obtain rfl := List.mem_singleton.mp hc
    exact .inr rfl
  | found | opened => cases hjob
  | lookup | missed | unreachable =>
    cases hjob
    cases hc

/-- A connection is recorded by the task that has opened it, and leaves its hands. -/
theorem Turn.notifier (h : Turn r i t job? fresh? core acts) : core.notifier = r.notifier ∨
    ∃ choice c k x, i = .step t.id choice ∧ t.job = .notify (.awaiting c k) ∧
      r.mail? k = some (.ok x) ∧ core.notifier = some c ∧ acts = [] ∧
      job? = some (.notify (.done (.ok ()))) := by
  cases h with
  | resolve h =>
    cases h with
    | accept =>
      rw [promote_eq]
      exact .inl rfl
    | _ => exact .inl rfl
  | notify h =>
    cases h with
    | record h => exact .inr ⟨_, _, _, _, rfl, rfl, h, rfl, rfl, rfl⟩
    | _ => exact .inl rfl
  | _ => exact .inl rfl

/-- A task asks only what it holds to close, and gives it out of its hands. -/
theorem Turn.closes (h : Turn r i t job? fresh? core acts) (hc : .close c ∈ acts) :
    c ∈ t.job.holds ∧ core.notifier = r.notifier ∧ ∀ job, job? = some job → job.holds = [] := by
  cases h with
  | resolve h =>
    cases h with
    | hangUp =>
      obtain rfl : c = _ := by simpa using hc
      refine ⟨List.mem_singleton_self _, rfl, ?_⟩
      intro job hj
      cases hj
      rfl
    | _ => simp at hc
  | notify h =>
    cases h with
    | giveUp =>
      obtain rfl : c = _ := by simpa using hc
      refine ⟨List.mem_singleton_self _, rfl, ?_⟩
      intro job hj
      cases hj
      rfl
    | _ => simp at hc
  | opening h => cases h <;> simp at hc
  | _ => simp at hc

/-- The task with a number has let go of a connection. -/
def LetGo (r : Resolver) (id : TaskId) (c : ConnId) : Prop :=
  ∀ u ∈ r.tasks, u.id = id → c ∉ u.job.holds

/-- How connections change hands. -/
structure Handover (i : Input) (r r' : Resolver) (acts : List Action) : Prop where
  holds : ∀ u ∈ r'.tasks, ∀ c ∈ u.job.holds,
    (∃ t ∈ r.tasks, t.id = u.id ∧ c ∈ t.job.holds) ∨ i = .dialed u.id (.ok c)
  notifier : ∀ c, r'.notifier = some c → r.notifier = some c ∨
    acts = [] ∧ ∃ t ∈ r.tasks, c ∈ t.job.holds ∧ LetGo r' t.id c
  closes : ∀ c, .close c ∈ acts →
    (r'.notifier = r.notifier ∧ ∃ t ∈ r.tasks, c ∈ t.job.holds ∧ LetGo r' t.id c) ∨
    r.notifier = some c ∧ r'.notifier = none ∧ ∀ t ∈ r'.tasks, t ∈ r.tasks

theorem Event.holds (h : Event r i r' acts) (hn : Numbered r) (hu : u ∈ r'.tasks)
    (hc : c ∈ u.job.holds) :
    (∃ t ∈ r.tasks, t.id = u.id ∧ c ∈ t.job.holds) ∨ i = .dialed u.id (.ok c) := by
  rcases h.task_cases hn hu with ⟨hu, -⟩ | ⟨t, ht, fresh?, core, hid, hx, -⟩ | ⟨-, hfresh⟩
  · exact .inl ⟨u, hu, rfl, hc⟩
  · rcases hx.holds hc with hc | hi
    · exact .inl ⟨t, ht, hid, hc⟩
    · exact .inr (hid ▸ hi)
  · rw [IsFresh.holds hfresh] at hc
    cases hc

theorem Event.handover (h : Event r i r' acts) (hn : Numbered r) : Handover i r r' acts := by
  refine ⟨fun u hu c hc => h.holds hn hu hc, ?_, ?_⟩
  · intro c hc
    cases h with
    | @turn t job? fresh? core acts ht h =>
      rw [turn_eq] at hc
      rcases h.notifier with hs | ⟨-, c', k, x, -, hj, -, hs, hacts, rfl⟩
      · exact .inl (hs ▸ hc)
      · obtain rfl : c' = c := Option.some.inj (hs.symm.trans hc)
        refine .inr ⟨hacts, t, ht, by rw [hj]; exact List.mem_singleton_self _, ?_⟩
        intro u hu hid hcu
        rcases (hn.mem_turn ht h.grows).mp hu with ⟨hu, hne, -⟩ | ⟨job, hj, rfl⟩ | ⟨job, hj, rfl⟩
        · exact hne (hn.eq_of_id hu ht hid)
        · cases hj
          cases hcu
        · rw [IsFresh.holds (h.grows.recruits job hj)] at hcu
          cases hcu
    | call => exact .inl hc
    | news h => cases h <;> first | exact .inl hc | cases hc
  · intro c hc
    cases h with
    | @turn t job? fresh? core acts ht h =>
      obtain ⟨hmem, hs, hnone⟩ := h.closes hc
      refine .inl ⟨by rw [turn_eq]; exact hs, t, ht, hmem, ?_⟩
      intro u hu hid hcu
      rcases (hn.mem_turn ht h.grows).mp hu with ⟨hu, hne, -⟩ | ⟨job, hj, rfl⟩ | ⟨job, hj, rfl⟩
      · exact hne (hn.eq_of_id hu ht hid)
      · rw [hnone job hj] at hcu
        cases hcu
      · rw [IsFresh.holds (h.grows.recruits job hj)] at hcu
        cases hcu
    | call => cases hc
    | news h =>
      cases h with
      | close =>
        obtain ⟨c', hmem, rfl⟩ : ∃ c', r.notifier = some c' ∧ c' = c := by simpa using hc
        exact .inr ⟨hmem, rfl, fun t ht => ht⟩
      | _ => simp at hc

structure Custody (is : List Input) (r : Resolver) (log : List Action) : Prop where
  held : ∀ t ∈ r.tasks, ∀ c ∈ t.job.holds, c ∈ arrived is
  noted : ∀ c, r.notifier = some c → c ∈ arrived is
  closed : ∀ c, .close c ∈ log → c ∈ arrived is
  spared : ∀ t ∈ r.tasks, ∀ c ∈ t.job.holds, .close c ∉ log
  listening : ∀ c, r.notifier = some c → .close c ∉ log
  single : ∀ t ∈ r.tasks, ∀ u ∈ r.tasks, ∀ c ∈ t.job.holds, c ∈ u.job.holds → t = u
  apart : ∀ c, r.notifier = some c → ∀ t ∈ r.tasks, c ∉ t.job.holds

theorem mem_arrived_self : c ∈ arrived (is ++ [.dialed id (.ok c)]) :=
  mem_arrived.mpr ⟨id, List.mem_append_right _ (List.mem_singleton_self _)⟩

theorem arrived_mono (h : c ∈ arrived is) (i : Input) : c ∈ arrived (is ++ [i]) := by
  rw [arrived_concat]
  exact List.mem_append_left _ h

namespace Handover

variable (hx : Handover i r r' acts) (hc : Custody is r log) (hi : Admits is r i)

include hx

include hi in
/-- Who holds a connection that is known has held it before. -/
theorem holder (hu : u ∈ r'.tasks) (hcu : c ∈ u.job.holds) (ha : c ∈ arrived is) :
    ∃ t ∈ r.tasks, t.id = u.id ∧ c ∈ t.job.holds := by
  rcases hx.holds u hu c hcu with h | rfl
  · exact h
  · exact absurd ha hi

include hc

theorem held (hu : u ∈ r'.tasks) (hcu : c ∈ u.job.holds) : c ∈ arrived (is ++ [i]) := by
  rcases hx.holds u hu c hcu with ⟨t, ht, -, hct⟩ | rfl
  · exact arrived_mono (hc.held t ht c hct) i
  · exact mem_arrived_self

theorem noted (hn : r'.notifier = some c) : c ∈ arrived (is ++ [i]) := by
  rcases hx.notifier c hn with hn | ⟨-, t, ht, hct, -⟩
  · exact arrived_mono (hc.noted c hn) i
  · exact arrived_mono (hc.held t ht c hct) i

theorem closed (ha : .close c ∈ log ++ acts) : c ∈ arrived (is ++ [i]) := by
  rcases List.mem_append.mp ha with ha | ha
  · exact arrived_mono (hc.closed c ha) i
  · rcases hx.closes c ha with ⟨-, t, ht, hct, -⟩ | ⟨hn, -⟩
    · exact arrived_mono (hc.held t ht c hct) i
    · exact arrived_mono (hc.noted c hn) i

theorem listening (hn : r'.notifier = some c) : .close c ∉ log ++ acts := by
  intro ha
  rcases hx.notifier c hn with hold | ⟨rfl, t, ht, hct, -⟩
  · rcases List.mem_append.mp ha with ha | ha
    · exact hc.listening c hold ha
    · rcases hx.closes c ha with ⟨-, t, ht, hct, -⟩ | ⟨-, hnone, -⟩
      · exact hc.apart c hold t ht hct
      · cases hn.symm.trans hnone
  · rw [List.append_nil] at ha
    exact hc.spared t ht c hct ha

include hi

/-- A task that has let go of what it held has nobody to take it. -/
theorem unheld (ht : t ∈ r.tasks) (hct : c ∈ t.job.holds) (hgo : LetGo r' t.id c)
    (hu : u ∈ r'.tasks) : c ∉ u.job.holds := by
  intro hcu
  obtain ⟨v, hv, hid, hcv⟩ := hx.holder hi hu hcu (hc.held t ht c hct)
  obtain rfl := hc.single v hv t ht c hcv hct
  exact hgo u hu hid.symm hcu

theorem spared (hu : u ∈ r'.tasks) (hcu : c ∈ u.job.holds) : .close c ∉ log ++ acts := by
  intro ha
  rcases List.mem_append.mp ha with ha | ha
  · obtain ⟨t, ht, -, hct⟩ := hx.holder hi hu hcu (hc.closed c ha)
    exact hc.spared t ht c hct ha
  · rcases hx.closes c ha with ⟨-, t, ht, hct, hgo⟩ | ⟨hn, -, hold⟩
    · exact hx.unheld hc hi ht hct hgo hu hcu
    · exact hc.apart c hn u (hold u hu) hcu

theorem apart (hn : r'.notifier = some c) (hu : u ∈ r'.tasks) : c ∉ u.job.holds := by
  intro hcu
  rcases hx.notifier c hn with hold | ⟨-, t, ht, hct, hgo⟩
  · obtain ⟨t, ht, -, hct⟩ := hx.holder hi hu hcu (hc.noted c hold)
    exact hc.apart c hold t ht hct
  · exact hx.unheld hc hi ht hct hgo hu hcu

theorem single_id {v : Task} (hu : u ∈ r'.tasks) (hv : v ∈ r'.tasks) (hcu : c ∈ u.job.holds)
    (hcv : c ∈ v.job.holds) : u.id = v.id := by
  rcases hx.holds u hu c hcu with ⟨t, ht, hid, hct⟩ | hd
  · obtain ⟨w, hw, hid', hcw⟩ := hx.holder hi hv hcv (hc.held t ht c hct)
    rw [← hid, ← hid', hc.single t ht w hw c hct hcw]
  · rcases hx.holds v hv c hcv with ⟨t, ht, -, hct⟩ | hd'
    · subst hd
      exact absurd (hc.held t ht c hct) hi
    · exact (Input.dialed.inj (hd.symm.trans hd')).1

theorem custody (hn' : Numbered r') : Custody (is ++ [i]) r' (log ++ acts) where
  held _ hu _ hcu := hx.held hc hu hcu
  noted _ hn := hx.noted hc hn
  closed _ ha := hx.closed hc ha
  spared _ hu _ hcu := hx.spared hc hi hu hcu
  listening _ hn := hx.listening hc hn
  single _ hu _ hv _ hcu hcv := hn'.eq_of_id hu hv (hx.single_id hc hi hu hv hcu hcv)
  apart _ hn _ hu := hx.apart hc hi hn hu

end Handover

theorem Reaches.custody (h : Reaches s is r log) : Custody is r log :=
  h.induct (P := Custody) ⟨nofun, nofun, nofun, nofun, nofun, nofun, nofun⟩
    fun h hc hi he => (he.handover h.numbered).custody hc hi (h.numbered.event he)

end RespClient.Sentinel.Resolver
