import RespClient.Proofs.Sentinel.Resolver.Runs

namespace RespClient.Sentinel

/-- The first job waits for task `d`, which has the second one. -/
inductive Job.Employs : Job → TaskId → Job → Prop
  | notify {d master role stage} : Employs (.notify (.resolving d)) d (.resolve master role stage)
  | lookup {master role d stage} :
      Employs (.lookup master role (some d)) d (.resolve master role stage)
  | notifying {master role d stage} :
      Employs (.opening master role (.notifying d)) d (.notify stage)
  | resolving {master role d stage} :
      Employs (.opening master role (.resolving d)) d (.resolve master role stage)

theorem Job.IsFresh.helper? {job : Job} (h : job.IsFresh) : job.helper? = none := by cases h <;> rfl

namespace Resolver

variable {s : SentinelSettings} {is : List Input} {i : Input} {r r' core : Resolver}
  {log acts : List Action} {t u : Task} {job job' : Job} {job? fresh? : Option Job} {d : TaskId}

structure Staffed (r : Resolver) : Prop where
  helped : ∀ t ∈ r.tasks, ∀ d, t.job.helper? = some d →
    ∃ u ∈ r.tasks, u.id = d ∧ t.job.Employs d u.job
  single : ∀ t ∈ r.tasks, ∀ u ∈ r.tasks, ∀ d, t.job.helper? = some d → u.job.helper? = some d →
    t = u

theorem Turn.employs (h : Turn r i t (some job) fresh? core acts) (hd : job.helper? = some d) :
    d = core.next ∧ ∃ fresh, fresh? = some fresh ∧ job.Employs d fresh := by
  generalize hjob : some job = job? at h
  cases h with
  | resolve h =>
    cases hjob
    cases hd
  | notify h =>
    cases hjob
    cases h <;> cases hd
    exact ⟨rfl, _, rfl, .notify⟩
  | lookup =>
    cases hjob
    cases hd
    exact ⟨rfl, _, rfl, .lookup⟩
  | opening h =>
    cases h <;> cases hjob <;> cases hd
    · exact ⟨rfl, _, rfl, .notifying⟩
    · exact ⟨rfl, _, rfl, .resolving⟩
  | found | opened => cases hjob
  | reached | missed | connected | unreachable =>
    cases hjob
    cases hd

theorem Turn.employed (h : Turn r i t job? fresh? core acts) (he : job.Employs d t.job) :
    ∃ job', job? = some job' ∧ job.Employs d job' := by
  obtain ⟨id, root, work⟩ := t
  cases he with
  | notify => cases h <;> exact ⟨_, rfl, .notify⟩
  | lookup => cases h <;> exact ⟨_, rfl, .lookup⟩
  | notifying => cases h <;> exact ⟨_, rfl, .notifying⟩
  | resolving => cases h <;> exact ⟨_, rfl, .resolving⟩

namespace Staffed

theorem turn (hs : Staffed r) (hn : Numbered r) (ht : t ∈ r.tasks)
    (h : Turn r i t job? fresh? core acts) : Staffed (core.turn t job? fresh?) := by
  have hg := h.grows
  have old {v : Task} {d : TaskId} (hv : v ∈ r.tasks) (hd : v.job.helper? = some d) : d < core.next := by
    obtain ⟨u, hu, rfl, -⟩ := hs.helped v hv d hd
    exact Nat.lt_of_lt_of_le (hn.bound u hu) hg.next
  refine ⟨fun v hv d hd => ?helped, fun v hv w hw d hd hd' => ?single⟩
  case helped =>
    rcases (hn.mem_turn ht hg).mp hv with ⟨hv, hne, -⟩ | ⟨job, rfl, rfl⟩ | ⟨job, hj, rfl⟩
    · obtain ⟨u, hu, rfl, he⟩ := hs.helped v hv d hd
      by_cases hut : u = t
      · subst hut
        obtain ⟨job', rfl, he⟩ := h.employed he
        exact ⟨_, hn.mem_turn_self ht hg, rfl, he⟩
      · refine ⟨u, (hn.mem_turn ht hg).mpr (.inl ⟨hu, hut, ?_⟩), rfl, he⟩
        intro htu
        exact hne (hs.single v hv t ht u.id hd htu)
    · obtain ⟨rfl, fresh, rfl, he⟩ := h.employs hd
      exact ⟨_, (hn.mem_turn ht hg).mpr (.inr (.inr ⟨fresh, rfl, rfl⟩)), rfl, he⟩
    · cases (hg.recruits job hj).helper?.symm.trans hd
  case single =>
    rcases (hn.mem_turn ht hg).mp hv with ⟨hv', -, -⟩ | ⟨job, rfl, rfl⟩ | ⟨job, hj, rfl⟩
    · rcases (hn.mem_turn ht hg).mp hw with ⟨hw', -, -⟩ | ⟨job, rfl, rfl⟩ | ⟨job, hj, rfl⟩
      · exact hs.single v hv' w hw' d hd hd'
      · exact absurd (old hv' hd) (Nat.not_lt_of_ge (Nat.le_of_eq (h.employs hd').1.symm))
      · cases (hg.recruits job hj).helper?.symm.trans hd'
    · rcases (hn.mem_turn ht hg).mp hw with ⟨hw', -, -⟩ | ⟨job', hj, rfl⟩ | ⟨job', hj, rfl⟩
      · exact absurd (old hw' hd') (Nat.not_lt_of_ge (Nat.le_of_eq (h.employs hd).1.symm))
      · cases hj
        rfl
      · cases (hg.recruits job' hj).helper?.symm.trans hd'
    · cases (hg.recruits job hj).helper?.symm.trans hd

theorem call (hs : Staffed r) (hj : job.helper? = none) : Staffed (r.call job).2 where
  helped t ht d hd := by
    rcases List.mem_append.mp ht with ht | ht
    · obtain ⟨u, hu, he⟩ := hs.helped t ht d hd
      exact ⟨u, List.mem_append_left _ hu, he⟩
    · obtain rfl := List.mem_singleton.mp ht
      cases hj.symm.trans hd
  single t ht u hu d hd hd' := by
    rcases List.mem_append.mp ht with ht | ht
    · rcases List.mem_append.mp hu with hu | hu
      · exact hs.single t ht u hu d hd hd'
      · obtain rfl := List.mem_singleton.mp hu
        cases hj.symm.trans hd'
    · obtain rfl := List.mem_singleton.mp ht
      cases hj.symm.trans hd

theorem event (hs : Staffed r) (hn : Numbered r) (h : Event r i r' acts) : Staffed r' := by
  cases h with
  | turn ht h => exact hs.turn hn ht h
  | call h => exact hs.call h.isFresh.helper?
  | news h => cases h <;> exact ⟨hs.helped, hs.single⟩

end Staffed

theorem Reaches.staffed (h : Reaches s is r log) : Staffed r :=
  h.induct (P := fun _ r _ => Staffed r) ⟨nofun, nofun⟩ fun h hs _ he => hs.event h.numbered he

end Resolver

end RespClient.Sentinel
