import Mathlib.Data.List.Induction
import Mathlib.Data.List.Nodup
import RespClient.Proofs.Sentinel.Resolver.Turns

namespace RespClient.Sentinel

/-- The job has a result that another task takes up. -/
def Job.over : Job → Bool
  | .resolve _ _ (.done _) | .notify (.done _) => true
  | _ => false

def arrived (is : List Input) : List ConnId :=
  is.filterMap fun
    | .dialed _ (.ok c) => some c
    | _ => none

theorem arrived_concat (is : List Input) (i : Input) :
    arrived (is ++ [i]) = arrived is ++ arrived [i] := List.filterMap_append

theorem mem_arrived {is : List Input} {c : ConnId} : c ∈ arrived is ↔ ∃ id, .dialed id (.ok c) ∈ is := by
  unfold arrived
  rw [List.mem_filterMap]
  constructor
  · rintro ⟨i, hi, h⟩
    split at h
    next id c' =>
      cases h
      exact ⟨id, hi⟩
    · cases h
  · rintro ⟨id, h⟩
    exact ⟨_, h, rfl⟩

namespace Resolver

/-- What the surroundings owe to a resolver: a connection that was just opened is a new one, and a reply
answers a frame that was submitted. -/
def Admits (is : List Input) (r : Resolver) : Input → Prop
  | .dialed _ (.ok c) => c ∉ arrived is
  | .reply k _ => k < r.next
  | _ => True

instance (is : List Input) (r : Resolver) (i : Input) : Decidable (Admits is r i) := by
  unfold Admits
  split <;> infer_instance

/-- A resolver with settings `s` gets to `r` by the inputs `is`, after the actions `log`. -/
inductive Reaches (s : SentinelSettings) : List Input → Resolver → List Action → Prop
  | start : Reaches s [] (ofSettings s) []
  | step {is r log i} (h : Reaches s is r log) (hi : Admits is r i) :
      Reaches s (is ++ [i]) (r.step i).1 (log ++ (r.step i).2)

/-- The surroundings keep to what they owe from here on. -/
def AdmitsAll (is : List Input) (r : Resolver) : List Input → Prop
  | [] => True
  | j :: js => Admits is r j ∧ AdmitsAll (is ++ [j]) (r.step j).1 js

instance decidableAdmitsAll : (is : List Input) → (r : Resolver) → (js : List Input) →
    Decidable (AdmitsAll is r js)
  | _, _, [] => isTrue trivial
  | is, r, j :: js =>
    have := decidableAdmitsAll (is ++ [j]) (r.step j).1 js
    inferInstanceAs (Decidable (Admits is r j ∧ AdmitsAll (is ++ [j]) (r.step j).1 js))

variable {s : SentinelSettings} {is js ks : List Input} {i : Input} {r r' core : Resolver}
  {log acts : List Action} {t u : Task} {job? fresh? : Option Job}

def after (s : SentinelSettings) (is : List Input) : Resolver := (run (ofSettings s) is).1

theorem run_append (r : Resolver) (js ks : List Input) :
    r.run (js ++ ks) =
      (((r.run js).1.run ks).1, (r.run js).2 ++ ((r.run js).1.run ks).2) := by
  induction js generalizing r with
  | nil => simp [run]
  | cons j js ih => simp [run, ih, List.append_assoc]

theorem run_concat (r : Resolver) (js : List Input) (i : Input) :
    r.run (js ++ [i]) =
      (((r.run js).1.step i).1, (r.run js).2 ++ ((r.run js).1.step i).2) := by
  rw [run_append]
  simp [run]

theorem after_concat (s : SentinelSettings) (is : List Input) (i : Input) :
    after s (is ++ [i]) = ((after s is).step i).1 := by
  rw [after, run_concat]
  rfl

theorem admitsAll_append :
    AdmitsAll is r (js ++ ks) ↔ AdmitsAll is r js ∧ AdmitsAll (is ++ js) (r.run js).1 ks := by
  induction js generalizing is r with
  | nil => simp [AdmitsAll, run]
  | cons j js ih => simp [AdmitsAll, run, ih, and_assoc]

theorem admitsAll_concat :
    AdmitsAll is r (js ++ [i]) ↔ AdmitsAll is r js ∧ Admits (is ++ js) (r.run js).1 i := by
  rw [admitsAll_append]
  simp [AdmitsAll]

theorem Reaches.run (h : Reaches s is r log) (js : List Input) (hj : AdmitsAll is r js) :
    Reaches s (is ++ js) (r.run js).1 (log ++ (r.run js).2) := by
  induction js generalizing is r log with
  | nil => simpa [Resolver.run] using h
  | cons j js ih =>
    have := ih (h.step hj.1) hj.2
    simpa [Resolver.run, List.append_assoc] using this

theorem Reaches.eq_after (h : Reaches s is r log) : r = after s is := by
  induction h with
  | start => rfl
  | step h _ ih => rw [after_concat, ← ih]

theorem Reaches.log_eq (h : Reaches s is r log) : log = (Resolver.run (ofSettings s) is).2 := by
  induction h with
  | start => rfl
  | step h _ ih =>
    rw [run_concat, ← ih, h.eq_after]
    rfl

/-- A property that every step keeps holds until the end of a run. -/
theorem Reaches.induct_run {P : List Input → Resolver → List Action → Prop} {later : List Input}
    (h : Reaches s is r log) (hl : AdmitsAll is r later) (start : P [] r [])
    (step : ∀ {js i}, AdmitsAll is r js → Reaches s (is ++ js) (r.run js).1 (log ++ (r.run js).2) →
      P js (r.run js).1 (r.run js).2 → Admits (is ++ js) (r.run js).1 i →
      P (js ++ [i]) ((r.run js).1.step i).1 ((r.run js).2 ++ ((r.run js).1.step i).2)) :
    P later (r.run later).1 (r.run later).2 := by
  induction later using List.reverseRecOn with
  | nil => exact start
  | append_singleton js i ih =>
    obtain ⟨hj, hi⟩ := admitsAll_concat.mp hl
    rw [run_concat]
    exact step hj (h.run js hj) (ih hj) hi

/-- A property that every event keeps holds after every run. -/
theorem Reaches.induct {P : List Input → Resolver → List Action → Prop} (h : Reaches s is r log)
    (start : P [] (ofSettings s) [])
    (event : ∀ {is r log i r' acts}, Reaches s is r log → P is r log → Admits is r i →
      Event r i r' acts → P (is ++ [i]) r' (log ++ acts)) :
    P is r log := by
  induction h with
  | start => exact start
  | step h hi ih => exact event h ih hi (step_event _ _)

/-- Only the tasks and the next number are different after a turn. -/
theorem turn_eq (r : Resolver) (t : Task) (job? fresh? : Option Job) :
    r.turn t job? fresh? =
      { r with tasks := (r.turn t job? fresh?).tasks, next := r.next + fresh?.toList.length } := by
  unfold turn
  cases t.job.helper? <;> cases fresh? <;> cases job? <;> rfl

theorem turn_tasks (r : Resolver) (t : Task) (job? fresh? : Option Job) :
    (r.turn t job? fresh?).tasks =
      ((r.tasks.filter fun u => t.job.helper? != some u.id) ++
        fresh?.toList.map fun job => (⟨r.next, t.root, job⟩ : Task)).filterMap fun u =>
          if u.id = t.id then job?.map fun job => { u with job := job } else some u := by
  have hfilter : (t.job.helper?.elim r r.remove).tasks =
      r.tasks.filter fun u => t.job.helper? != some u.id := by
    cases t.job.helper? with
    | none => exact (List.filter_eq_self.mpr fun _ _ => rfl).symm
    | some d =>
      refine List.filter_congr ?_
      intro u _
      change (u.id != d) = (d != u.id)
      exact bne_comm
  have hnext : (t.job.helper?.elim r r.remove).next = r.next := by cases t.job.helper? <;> rfl
  have hspawn (r : Resolver) : (fresh?.elim r fun job => (r.spawn t.root job).2).tasks =
      r.tasks ++ fresh?.toList.map fun job => (⟨r.next, t.root, job⟩ : Task) := by
    cases fresh? with
    | none => simp
    | some job => rfl
  have hset (r : Resolver) (job : Job) : (r.setJob t.id job).tasks = r.tasks.filterMap fun u =>
      if u.id = t.id then some { u with job := job } else some u := by
    simp only [setJob, ← List.filterMap_eq_map, beq_iff_eq]
    congr 1
    funext u
    simp only [Function.comp]
    split <;> rfl
  have hremove (r : Resolver) : (r.remove t.id).tasks = r.tasks.filterMap fun u =>
      if u.id = t.id then none else some u := by
    simp only [remove, ← List.filterMap_eq_filter]
    congr 1
    funext u
    by_cases h : u.id = t.id <;> simp [Option.guard, h]
  rw [← hfilter, ← hnext, ← hspawn]
  cases job? with
  | some job => exact hset _ job
  | none => exact hremove _

structure Numbered (r : Resolver) : Prop where
  nodup : (r.tasks.map (·.id)).Nodup
  bound : ∀ t ∈ r.tasks, t.id < r.next

/-- How a turn leaves the other tasks. -/
structure Grows (r : Resolver) (t : Task) (fresh? : Option Job) (core : Resolver) : Prop where
  tasks : core.tasks = r.tasks
  next : r.next ≤ core.next
  recruits : ∀ job, fresh? = some job → job.IsFresh
  finished : ∀ d, t.job.helper? = some d → ∃ u ∈ r.tasks, u.id = d ∧ u.job.over = true

theorem ResolveTurn.grows {id : TaskId} {master : String} {role : Role} {choice : Nat}
    {stage stage' : ResolveStage} (h : ResolveTurn r id master role choice stage stage' core acts) :
    core.tasks = r.tasks ∧ r.next ≤ core.next := by
  cases h with
  | ask => exact ⟨rfl, Nat.le_succ _⟩
  | accept =>
    rw [promote_eq]
    exact ⟨rfl, Nat.le_refl _⟩
  | _ => exact ⟨rfl, Nat.le_refl _⟩

theorem over_of_resolveResult? {d : TaskId} {result : Except ClientError String}
    (h : r.resolveResult? d = some result) : ∃ u ∈ r.tasks, u.id = d ∧ u.job.over = true := by
  obtain ⟨u, hu, hid, master, role, hj⟩ := exists_of_resolveResult? h
  exact ⟨u, hu, hid, by rw [hj]; rfl⟩

theorem over_of_notifyResult? {d : TaskId} {result : Except ClientError Unit}
    (h : r.notifyResult? d = some result) : ∃ u ∈ r.tasks, u.id = d ∧ u.job.over = true := by
  obtain ⟨u, hu, hid, hj⟩ := exists_of_notifyResult? h
  exact ⟨u, hu, hid, by rw [hj]; rfl⟩

theorem Turn.grows (h : Turn r i t job? fresh? core acts) : Grows r t fresh? core := by
  have quiet {t : Task} (ht : t.job.helper? = none) (h : core.tasks = r.tasks ∧ r.next ≤ core.next) :
      Grows r t none core := ⟨h.1, h.2, nofun, fun d hd => nomatch ht.symm.trans hd⟩
  cases h with
  | resolve h => exact quiet rfl h.grows
  | notify h =>
    cases h with
    | resolve =>
      refine ⟨rfl, Nat.le_refl _, ?_, nofun⟩
      intro job hj
      cases hj
      exact .resolve _ _
    | call h | stuck h =>
      refine ⟨rfl, Nat.le_refl _, nofun, ?_⟩
      intro d hd
      cases hd
      exact over_of_resolveResult? h
    | subscribe => exact quiet rfl ⟨rfl, Nat.le_succ _⟩
    | _ => exact quiet rfl ⟨rfl, Nat.le_refl _⟩
  | lookup =>
    refine ⟨rfl, Nat.le_refl _, ?_, nofun⟩
    intro job hj
    cases hj
    exact .resolve _ _
  | found h =>
    refine ⟨rfl, Nat.le_refl _, nofun, ?_⟩
    intro d hd
    cases hd
    exact over_of_resolveResult? h
  | opening h =>
    cases h with
    | start =>
      refine ⟨rfl, Nat.le_refl _, ?_, nofun⟩
      intro job hj
      cases hj
      exact .notify
    | notified h =>
      refine ⟨rfl, Nat.le_refl _, ?_, ?_⟩
      · intro job hj
        cases hj
        exact .resolve _ _
      · intro d hd
        cases hd
        exact over_of_notifyResult? h
    | refused h =>
      refine ⟨rfl, Nat.le_refl _, nofun, ?_⟩
      intro d hd
      cases hd
      exact over_of_notifyResult? h
    | lost h | found h =>
      refine ⟨rfl, Nat.le_refl _, nofun, ?_⟩
      intro d hd
      cases hd
      exact over_of_resolveResult? h
  | reached | missed | connected | unreachable | opened => exact quiet rfl ⟨rfl, Nat.le_refl _⟩

namespace Numbered

theorem eq_of_id (hn : Numbered r) (ht : t ∈ r.tasks) (hu : u ∈ r.tasks) (h : t.id = u.id) : t = u :=
  List.inj_on_of_nodup_map hn.nodup ht hu h

theorem find?_eq (hn : Numbered r) (ht : t ∈ r.tasks) :
    (r.tasks.find? fun u => u.id == t.id) = some t := by
  cases hf : r.tasks.find? fun u => u.id == t.id with
  | none => exact absurd (List.find?_eq_none.mp hf t ht) (by simp)
  | some u =>
    have hid : u.id = t.id := by simpa using List.find?_some hf
    rw [hn.eq_of_id (List.mem_of_find?_eq_some hf) ht hid]

theorem job?_eq (hn : Numbered r) (ht : t ∈ r.tasks) : r.job? t.id = some t.job := by
  rw [job?, hn.find?_eq ht]
  rfl

/-- The tasks after a turn: those that had no part in it, the task itself, and its new helper. -/
theorem mem_turn (hn : Numbered r) (ht : t ∈ r.tasks) (hg : Grows r t fresh? core) :
    u ∈ (core.turn t job? fresh?).tasks ↔ u ∈ r.tasks ∧ u ≠ t ∧ t.job.helper? ≠ some u.id ∨
      (∃ job, job? = some job ∧ u = { t with job := job }) ∨
      ∃ job, fresh? = some job ∧ u = ⟨core.next, t.root, job⟩ := by
  have new : core.next ≠ t.id := Nat.ne_of_gt (Nat.lt_of_lt_of_le (hn.bound t ht) hg.next)
  -- Nobody waits for himself: who is waited for is over.
  have self : t.job.helper? ≠ some t.id := by
    intro h
    obtain ⟨v, hv, hid, ho⟩ := hg.finished _ h
    rw [hn.eq_of_id hv ht hid] at ho
    obtain ⟨id, root, job⟩ := t
    cases job with
    | resolve => cases h
    | notify stage => cases stage <;> first | cases h | cases ho
    | lookup | opening => cases ho
  simp only [turn_tasks, hg.tasks, List.mem_filterMap, List.mem_append, List.mem_filter, List.mem_map,
    Option.mem_toList, bne_iff_ne]
  constructor
  · rintro ⟨v, ⟨hv, hh⟩ | ⟨job, hj, rfl⟩, he⟩
    · split at he
      next hid =>
        obtain rfl := hn.eq_of_id hv ht hid
        obtain ⟨job, hj, rfl⟩ := Option.map_eq_some_iff.mp he
        exact .inr (.inl ⟨job, hj, rfl⟩)
      next hid =>
        cases he
        exact .inl ⟨hv, fun h => hid (h ▸ rfl), hh⟩
    · rw [if_neg new] at he
      cases he
      exact .inr (.inr ⟨job, hj, rfl⟩)
  · rintro (⟨hu, hne, hh⟩ | ⟨job, hj, rfl⟩ | ⟨job, hj, rfl⟩)
    · exact ⟨u, .inl ⟨hu, hh⟩, if_neg fun h => hne (hn.eq_of_id hu ht h)⟩
    · exact ⟨t, .inl ⟨ht, self⟩, by simp [hj]⟩
    · exact ⟨_, .inr ⟨job, hj, rfl⟩, if_neg new⟩

theorem mem_turn_self (hn : Numbered r) (ht : t ∈ r.tasks) {job : Job} (hg : Grows r t fresh? core) :
    { t with job := job } ∈ (core.turn t (some job) fresh?).tasks :=
  (hn.mem_turn ht hg).mpr (.inr (.inl ⟨job, rfl, rfl⟩))

theorem turn (hn : Numbered r) (ht : t ∈ r.tasks) (hg : Grows r t fresh? core) :
    Numbered (core.turn t job? fresh?) where
  nodup := by
    have hold : ((r.tasks.filter fun u => t.job.helper? != some u.id).map (·.id)).Nodup :=
      hn.nodup.sublist (List.Sublist.map _ List.filter_sublist)
    have hall : (((r.tasks.filter fun u => t.job.helper? != some u.id) ++
        fresh?.toList.map fun job => (⟨core.next, t.root, job⟩ : Task)).map (·.id)).Nodup := by
      rw [List.map_append]
      refine List.nodup_append.mpr ⟨hold, ?_, ?_⟩
      · cases fresh? <;> simp
      · rintro _ ha _ hb rfl
        obtain ⟨v, hv, rfl⟩ := List.mem_map.mp ha
        obtain ⟨w, hw, hid⟩ := List.mem_map.mp hb
        obtain ⟨job, -, rfl⟩ := List.mem_map.mp hw
        have hlt : v.id < r.next := hn.bound v (List.mem_of_mem_filter hv)
        have heq : core.next = v.id := hid
        exact Nat.not_lt_of_ge hg.next (heq ▸ hlt)
    rw [turn_tasks, hg.tasks, List.Nodup, List.pairwise_map, List.pairwise_filterMap]
    refine (List.pairwise_map.mp hall).imp ?_
    intro v w hvw v' hv' w' hw'
    have same {x x' : Task} (h : (if x.id = t.id then job?.map fun job => { x with job := job }
        else some x) = some x') : x'.id = x.id := by
      split at h
      · obtain ⟨job, -, rfl⟩ := Option.map_eq_some_iff.mp h
        rfl
      · cases h
        rfl
    rwa [same hv', same hw']
  bound v hv := by
    have hlt {w : Task} (hw : w ∈ r.tasks) : w.id < core.next + fresh?.toList.length :=
      Nat.lt_of_lt_of_le (hn.bound w hw) (Nat.le_trans hg.next (Nat.le_add_right _ _))
    rw [turn_eq]
    rcases (hn.mem_turn ht hg).mp hv with ⟨hv, -, -⟩ | ⟨job, -, rfl⟩ | ⟨job, hj, rfl⟩
    · exact hlt hv
    · exact hlt (w := t) ht
    · rw [hj]
      exact Nat.lt_succ_self _

theorem call (hn : Numbered r) (job : Job) : Numbered (r.call job).2 where
  nodup := by
    refine List.map_append ▸ List.nodup_append.mpr ⟨hn.nodup, List.nodup_singleton _, ?_⟩
    rintro _ ha _ hb rfl
    obtain ⟨v, hv, rfl⟩ := List.mem_map.mp ha
    exact Nat.ne_of_lt (hn.bound v hv) (by simpa using hb)
  bound v hv := by
    rcases List.mem_append.mp hv with hv | hv
    · exact Nat.lt_succ_of_lt (hn.bound v hv)
    · obtain rfl := List.mem_singleton.mp hv
      exact Nat.lt_succ_self _

theorem news (hn : Numbered r) (h : News r i core acts) : Numbered core := by
  cases h <;> exact ⟨hn.nodup, hn.bound⟩

theorem event (hn : Numbered r) (h : Event r i r' acts) : Numbered r' := by
  cases h with
  | turn ht h => exact hn.turn ht h.grows
  | call => exact hn.call _
  | news h => exact hn.news h

end Numbered

theorem Reaches.numbered (h : Reaches s is r log) : Numbered r :=
  h.induct (P := fun _ r _ => Numbered r) ⟨List.nodup_nil, nofun⟩ fun _ hn _ he => hn.event he

theorem Call.isFresh {job : Job} (h : Call i job) : job.IsFresh := by
  cases h
  · exact .lookup _ _
  · exact .opening _ _

theorem Turn.dial_mem (h : Turn r i t job? fresh? core acts) {id : TaskId} {address : String}
    (ha : .dial id address ∈ acts) : id = t.id := by
  cases h with
  | resolve h =>
    cases h <;> simp at ha
    exact ha.1
  | notify h =>
    cases h <;> simp at ha
    exact ha.1
  | opening h =>
    cases h <;> simp at ha
    exact ha.1
  | _ => simp at ha

theorem Turn.down (h : Turn r i t job? fresh? core acts) : core.down = r.down := by
  cases h with
  | resolve h =>
    cases h with
    | accept => rw [promote_eq]
    | _ => rfl
  | notify h => cases h <;> rfl
  | _ => rfl

namespace Event

theorem next_le (h : Event r i r' acts) : r.next ≤ r'.next := by
  cases h with
  | turn ht h =>
    rw [turn_eq]
    exact Nat.le_trans h.grows.next (Nat.le_add_right _ _)
  | call => exact Nat.le_succ _
  | news h => cases h <;> exact Nat.le_refl _

theorem dial_mem (h : Event r i r' acts) {id : TaskId} {address : String}
    (ha : .dial id address ∈ acts) :
    ∃ t ∈ r.tasks, t.id = id ∧ ∃ job? fresh? core, Turn r i t job? fresh? core acts := by
  cases h with
  | turn ht h => exact ⟨_, ht, (h.dial_mem ha).symm, _, _, _, h⟩
  | call => cases ha
  | news h => cases h <;> simp at ha

/-- Where a task comes from: it was there and had no part in the event, or it took its turn, or it is
new. -/
theorem task_cases (h : Event r i r' acts) (hn : Numbered r) (hu : u ∈ r'.tasks) :
    (u ∈ r.tasks ∧ ∀ address, .dial u.id address ∉ acts) ∨
    (∃ t ∈ r.tasks, ∃ fresh? core, t.id = u.id ∧ Turn r i t (some u.job) fresh? core acts ∧
      r' = core.turn t (some u.job) fresh?) ∨
    (r.next ≤ u.id ∧ u.job.IsFresh) := by
  cases h with
  | turn ht h =>
    have hg := h.grows
    rcases (hn.mem_turn ht hg).mp hu with ⟨hu, hne, -⟩ | ⟨job, rfl, rfl⟩ | ⟨job, hj, rfl⟩
    · refine .inl ⟨hu, ?_⟩
      intro address ha
      exact hne (hn.eq_of_id hu ht (h.dial_mem ha))
    · exact .inr (.inl ⟨_, ht, _, _, rfl, h, rfl⟩)
    · exact .inr (.inr ⟨hg.next, hg.recruits job hj⟩)
  | call h =>
    rcases List.mem_append.mp hu with hu | hu
    · exact .inl ⟨hu, nofun⟩
    · obtain rfl := List.mem_singleton.mp hu
      exact .inr (.inr ⟨Nat.le_refl _, h.isFresh⟩)
  | news h => cases h <;> exact .inl ⟨hu, by simp⟩

/-- What becomes of a task: it stays, or takes its turn, or was over and has gone. -/
theorem task_fate (h : Event r i r' acts) (hn : Numbered r) (ht : t ∈ r.tasks) :
    t ∈ r'.tasks ∨ (∃ job? fresh? core, Turn r i t job? fresh? core acts ∧
      r' = core.turn t job? fresh?) ∨ t.job.over = true ∧ ∀ u ∈ r'.tasks, u.id ≠ t.id := by
  cases h with
  | @turn v job? fresh? core acts hv h =>
    by_cases hvt : t = v
    · subst hvt
      exact .inr (.inl ⟨_, _, _, h, rfl⟩)
    by_cases hd : v.job.helper? = some t.id
    · obtain ⟨w, hw, hid, ho⟩ := h.grows.finished _ hd
      rw [hn.eq_of_id hw ht hid] at ho
      refine .inr (.inr ⟨ho, ?_⟩)
      intro u hu huid
      rcases (hn.mem_turn hv h.grows).mp hu with ⟨-, -, hh⟩ | ⟨job, -, rfl⟩ | ⟨job, -, rfl⟩
      · exact hh (huid ▸ hd)
      · exact hvt (hn.eq_of_id ht hv huid.symm)
      · have hnext : core.next = t.id := huid
        exact absurd (hn.bound t ht) (Nat.not_lt_of_ge (hnext ▸ h.grows.next))
    · exact .inl ((hn.mem_turn hv h.grows).mpr (.inl ⟨ht, hvt, hd⟩))
  | call => exact .inl (List.mem_append_left _ ht)
  | news h => cases h <;> exact .inl ht

theorem down (h : Event r i r' acts) {c : ConnId} (hd : c ∈ r.down) : c ∈ r'.down := by
  cases h with
  | turn ht h =>
    rw [turn_eq]
    exact h.down ▸ hd
  | call => exact hd
  | news h =>
    cases h with
    | down => exact List.mem_append_left _ hd
    | _ => exact hd

theorem mail (h : Event r i r' acts) {m : Claim × Outcome} (hm : m ∈ r'.mail) :
    m ∈ r.mail ∨ i = .reply m.1 m.2 := by
  have taken {k : Claim} (hm : m ∈ (r.takeMail k).mail) : m ∈ r.mail := List.mem_of_mem_filter hm
  cases h with
  | turn ht h =>
    rw [turn_eq] at hm
    cases h with
    | resolve h =>
      cases h with
      | answered => exact .inl (taken hm)
      | accept =>
        rw [promote_eq] at hm
        exact .inl hm
      | _ => exact .inl hm
    | notify h =>
      cases h with
      | rebuffed | record => exact .inl (taken hm)
      | _ => exact .inl hm
    | _ => exact .inl hm
  | call => exact .inl hm
  | news h =>
    cases h with
    | reply =>
      rcases List.mem_append.mp hm with hm | hm
      · exact .inl hm
      · obtain rfl := List.mem_singleton.mp hm
        exact .inr rfl
    | _ => exact .inl hm

end Event

theorem run_next_le (r : Resolver) (js : List Input) : r.next ≤ (r.run js).1.next := by
  induction js generalizing r with
  | nil => exact Nat.le_refl _
  | cons j js ih => exact Nat.le_trans (step_event r j).next_le (ih _)

theorem Reaches.mail (h : Reaches s is r log) {m : Claim × Outcome} (hm : m ∈ r.mail) :
    .reply m.1 m.2 ∈ is := by
  refine h.induct (P := fun is r _ => ∀ m ∈ r.mail, .reply m.1 m.2 ∈ is) nofun ?_ m hm
  intro is r log i r' acts _ ih _ he m hm
  rcases he.mail hm with hm | rfl
  · exact List.mem_append_left _ (ih m hm)
  · exact List.mem_append_right _ (List.mem_singleton_self _)

/-- A reply that came in has a claim that was made before. -/
theorem Reaches.claim_lt (h : Reaches s is r log) {k : Claim} {o : Outcome} (hk : .reply k o ∈ is) :
    k < r.next := by
  induction h with
  | start => cases hk
  | @step is r log i h hi ih =>
    have hle := (step_event r i).next_le
    rcases List.mem_append.mp hk with hk | hk
    · exact Nat.lt_of_lt_of_le (ih hk) hle
    · obtain rfl := List.mem_singleton.mp hk
      exact Nat.lt_of_lt_of_le hi hle

theorem mem_of_mail? {k : Claim} {o : Outcome} (h : r.mail? k = some o) : (k, o) ∈ r.mail := by
  simp only [mail?, Option.map_eq_some_iff] at h
  obtain ⟨⟨k', o'⟩, hm, rfl⟩ := h
  have hk : k' = k := by simpa using List.find?_some hm
  exact hk ▸ List.mem_of_find?_eq_some hm

theorem isDown_iff {c : ConnId} : r.isDown c = true ↔ c ∈ r.down := by
  rw [isDown, List.contains_iff_mem]

theorem step_own (hn : Numbered r) (ht : t ∈ r.tasks) (choice : Nat) :
    (r.isFree t = false ∧ r.step (.step t.id choice) = (r, [])) ∨
      ∃ job? fresh? core acts, Turn r (.step t.id choice) t job? fresh? core acts ∧
        r.step (.step t.id choice) = (core.turn t job? fresh?, acts) := by
  simp only [step, hn.find?_eq ht]
  cases h : r.stepTask choice t with
  | none => exact .inl ⟨by rw [← stepTask_isSome r choice t, h]; rfl, rfl⟩
  | some x =>
    obtain ⟨job?, fresh?, core, hx, he⟩ := stepTask_turn h
    exact .inr ⟨job?, fresh?, core, x.2, hx, Prod.ext he rfl⟩

end Resolver

end RespClient.Sentinel
