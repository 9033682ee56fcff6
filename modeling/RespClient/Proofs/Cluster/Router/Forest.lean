import Mathlib.Data.List.Induction
import Mathlib.Data.List.Nodup
import RespClient.Proofs.Cluster.Router.Turns

namespace RespClient.Cluster

namespace Router

/-- What the surroundings owe to a router: a connection that was just opened is a new one, no server
replies to an attempt to connect, and a reply answers a frame that was submitted. -/
def Admits (r : Router) : Input → Prop
  | .dialed _ (.ok c) => c ∉ r.opened.map (·.1)
  | .dialed _ (.error e) => e.replyText? = none
  | .reply k _ => k < r.next
  | _ => True

instance (r : Router) (i : Input) : Decidable (r.Admits i) := by
  unfold Admits
  split <;> infer_instance

/-- A router with settings `s` gets to `r` by the inputs `is`, after the actions `log`. -/
inductive Reaches (s : ClusterSettings) : List Input → Router → List Action → Prop
  | start : Reaches s [] { settings := s } []
  | step {is r log i} (h : Reaches s is r log) (hi : r.Admits i) :
      Reaches s (is ++ [i]) (r.step i).1 (log ++ (r.step i).2)

def AdmitsAll (r : Router) : List Input → Prop
  | [] => True
  | i :: is => r.Admits i ∧ (r.step i).1.AdmitsAll is

instance decidableAdmitsAll : (r : Router) → (is : List Input) → Decidable (r.AdmitsAll is)
  | _, [] => isTrue trivial
  | r, i :: is =>
    have := decidableAdmitsAll (r.step i).1 is
    inferInstanceAs (Decidable (r.Admits i ∧ (r.step i).1.AdmitsAll is))

variable {s : ClusterSettings} {is : List Input} {r r' core : Router} {log acts : List Action}

theorem Reaches.run (h : Reaches s is r log) (js : List Input) (hj : r.AdmitsAll js) :
    Reaches s (is ++ js) (r.run js).1 (log ++ (r.run js).2) := by
  induction js generalizing is r log with
  | nil => simpa [Router.run] using h
  | cons j js ih =>
    have := ih (h.step hj.1) hj.2
    simpa [Router.run, List.append_assoc] using this

theorem run_concat (r : Router) (js : List Input) (i : Input) :
    r.run (js ++ [i]) =
      (((r.run js).1.step i).1, (r.run js).2 ++ ((r.run js).1.step i).2) := by
  induction js generalizing r with
  | nil => simp [Router.run]
  | cons j js ih => simp [Router.run, ih, List.append_assoc]

theorem admitsAll_concat {js : List Input} {i : Input} :
    r.AdmitsAll (js ++ [i]) ↔ r.AdmitsAll js ∧ (r.run js).1.Admits i := by
  induction js generalizing r with
  | nil => simp [AdmitsAll, Router.run]
  | cons j js ih => simp [AdmitsAll, Router.run, ih, and_assoc]

/-- A property that every step keeps holds until the end of a run. -/
theorem Reaches.induct_run {P : List Input → Router → List Action → Prop} {later : List Input}
    (h : Reaches s is r log) (hl : r.AdmitsAll later) (start : P [] r [])
    (step : ∀ {js i}, r.AdmitsAll js → Reaches s (is ++ js) (r.run js).1 (log ++ (r.run js).2) →
      P js (r.run js).1 (r.run js).2 → (r.run js).1.Admits i →
      P (js ++ [i]) ((r.run js).1.step i).1 ((r.run js).2 ++ ((r.run js).1.step i).2)) :
    P later (r.run later).1 (r.run later).2 := by
  induction later using List.reverseRecOn with
  | nil => exact start
  | append_singleton js i ih =>
    obtain ⟨hj, hi⟩ := admitsAll_concat.mp hl
    rw [run_concat]
    exact step hj (h.run js hj) (ih hj) hi

/-- A property that every event keeps holds after every run. -/
theorem Reaches.induct {P : Router → List Action → Prop} (h : Reaches s is r log)
    (start : P { settings := s } [])
    (event : ∀ {is r log i r' acts}, Reaches s is r log → P r log → r.Admits i → Event r i r' acts →
      P r' (log ++ acts)) :
    P r log := by
  induction h with
  | start => exact start
  | step h hi ih => exact event h ih hi (step_event _ _)

/-- Tasks with numbers from `n` on. -/
def recruits (root : TaskId) (fresh : List Job) (n : TaskId) : List Task :=
  (fresh.zipIdx n).map fun j => ⟨j.2, root, j.1⟩

section Recruits

variable {root n : TaskId} {fresh : List Job}

theorem recruits_ids (root : TaskId) (fresh : List Job) (n : TaskId) :
    (recruits root fresh n).map (·.id) = List.range' n fresh.length := by
  rw [recruits, List.map_map, ← List.zipIdx_map_snd n fresh]
  rfl

theorem id_of_mem_recruits {u : Task} (h : u ∈ recruits root fresh n) :
    n ≤ u.id ∧ u.id < n + fresh.length := by
  have := List.mem_map_of_mem (f := (·.id)) h
  rw [recruits_ids] at this
  simpa using this

theorem job_of_mem_recruits {u : Task} (h : u ∈ recruits root fresh n) : u.job ∈ fresh := by
  obtain ⟨⟨j, k⟩, hj, rfl⟩ := List.mem_map.mp h
  exact List.fst_mem_of_mem_zipIdx hj

end Recruits

theorem spawnAll_snd (r : Router) (root : TaskId) (js : List Job) :
    (r.spawnAll root js).2 =
      { r with tasks := r.tasks ++ recruits root js r.next, next := r.next + js.length } := by
  induction js generalizing r with
  | nil => simp [spawnAll, recruits]
  | cons j js ih =>
    simp only [spawnAll, ih, spawn, recruits, List.zipIdx_cons, List.map_cons, List.append_assoc,
      List.singleton_append, List.length_cons, Nat.add_assoc, Nat.add_comm 1]

/-- Only the tasks and the next number are different after a turn. -/
theorem turn_eq (r : Router) (t : Task) (job? : Option Job) (fresh : List Job) :
    r.turn t job? fresh =
      { r with tasks := (r.turn t job? fresh).tasks, next := r.next + fresh.length } := by
  cases job? <;> simp only [turn, spawnAll_snd, remove, setJob]

theorem turn_tasks (r : Router) (t : Task) (job? : Option Job) (fresh : List Job) :
    (r.turn t job? fresh).tasks =
      ((r.tasks.filter fun u => !t.job.helpers.contains u.id) ++
        recruits t.root fresh r.next).filterMap fun u =>
          if u.id = t.id then job?.map fun job => { u with job := job } else some u := by
  cases job? with
  | some job =>
    simp only [turn, setJob, spawnAll_snd, remove, ← List.filterMap_eq_map, Option.map_some,
      beq_iff_eq]
    congr 1
    funext u
    simp only [Function.comp]
    split <;> rfl
  | none =>
    simp only [turn, spawnAll_snd, remove, ← List.filterMap_eq_filter, Option.map_none]
    congr 1
    funext u
    by_cases h : u.id = t.id <;> simp [Option.guard, h]

theorem find?_eq_of_nodup {α κ : Type} [BEq κ] [LawfulBEq κ] {key : α → κ} {xs : List α}
    (h : (xs.map key).Nodup) {x : α} (hx : x ∈ xs) : (xs.find? fun y => key y == key x) = some x := by
  cases hf : xs.find? fun y => key y == key x with
  | none => exact absurd (List.find?_eq_none.mp hf x hx) (by simp)
  | some y =>
    have hk : key y = key x := by simpa using List.find?_some hf
    rw [List.inj_on_of_nodup_map h (List.mem_of_find?_eq_some hf) hx hk]

structure Forest (r : Router) : Prop where
  nodup : (r.tasks.map (·.id)).Nodup
  bound : ∀ t ∈ r.tasks, t.id < r.next
  helped : ∀ t ∈ r.tasks, ∀ d ∈ t.job.helpers, ∃ u ∈ r.tasks, u.id = d ∧ u.job.kind = t.job.employs
  apart : ∀ t ∈ r.tasks, ∀ u ∈ r.tasks, ∀ d ∈ t.job.helpers, d ∈ u.job.helpers → t = u

/-- How the family of a task changes with its turn. -/
structure Grows (r : Router) (t : Task) (job? : Option Job) (fresh : List Job) (core : Router) :
    Prop where
  tasks : core.tasks = r.tasks
  next : r.next ≤ core.next
  recruits : ∀ job ∈ fresh, job.IsFresh
  keeps : ∀ job, job? = some job → job.kind = t.job.kind ∧
    job.helpers = List.range' core.next fresh.length ∧ ∀ j ∈ fresh, j.kind = job.employs
  leaves : job? = none → t.job.kind = .call ∧ fresh = []

theorem DialTurn.keeps {id : TaskId} {a : String} {stage stage' : DialStage}
    (h : DialTurn r id a stage stage' core acts) : core.tasks = r.tasks ∧ r.next ≤ core.next := by
  cases h <;> exact ⟨rfl, by simp [takeMail, insert]⟩

theorem RefreshTurn.grows {id root : TaskId} {choice : Nat} {stage stage' : RefreshStage}
    {fresh : List Job} (h : RefreshTurn r id choice stage stage' fresh core acts) :
    Grows r ⟨id, root, .refresh stage⟩ (some (.refresh stage')) fresh core := by
  cases h with
  | compare =>
    refine ⟨rfl, Nat.le_refl _, by simp; exact fun a _ => .dial a, ?_, by rintro ⟨⟩⟩
    rintro _ ⟨⟩
    refine ⟨rfl, ?_, by simp [Job.kind, Job.employs]⟩
    simp [Job.helpers, List.map_snd_zip]
  | _ =>
    refine ⟨rfl, by simp [takeMail, unlock], by simp, ?_, by rintro ⟨⟩⟩
    rintro _ ⟨⟩
    exact ⟨rfl, rfl, by simp⟩

theorem SendTurn.grows {id root : TaskId} {choice : Nat} {s : Sending} {s' : Option Sending}
    {fresh : List Job} (h : SendTurn r id choice s s' fresh core acts) :
    Grows r ⟨id, root, .send s⟩ (s'.map .send) fresh core := by
  cases h with
  | nowhere | miss | mute | answer =>
    exact ⟨rfl, by simp [takeMail], by simp, by simp, by simp [Job.kind]⟩
  | route | shift | refreshed =>
    refine ⟨rfl, by simp [takeMail], by simpa using .dial _, ?_, by simp⟩
    rintro _ ⟨⟩
    exact ⟨rfl, rfl, by simp [Job.kind, Job.employs]⟩
  | moved =>
    refine ⟨rfl, by simp [takeMail], by simpa using .refresh, ?_, by simp⟩
    rintro _ ⟨⟩
    exact ⟨rfl, rfl, by simp [Job.kind, Job.employs]⟩
  | reach =>
    refine ⟨rfl, Nat.le_refl _, by simp, ?_, by simp⟩
    rintro _ ⟨⟩
    exact ⟨rfl, by split <;> rfl, by simp⟩
  | _ =>
    refine ⟨rfl, by simp [takeMail], by simp, ?_, by simp⟩
    rintro _ ⟨⟩
    exact ⟨rfl, rfl, by simp⟩

theorem OpeningTurn.grows {id root : TaskId} {stage : OpeningStage} {stage' : Option OpeningStage}
    {fresh : List Job} (h : OpeningTurn r id stage stage' fresh core acts) :
    Grows r ⟨id, root, .opening stage⟩ (stage'.map .opening) fresh core := by
  cases h with
  | start =>
    refine ⟨rfl, Nat.le_refl _, by simp; exact fun a _ => .dial a, ?_, by simp⟩
    rintro _ ⟨⟩
    exact ⟨rfl, by simp [Job.helpers], by simp [Job.kind, Job.employs]⟩
  | seeded =>
    refine ⟨rfl, Nat.le_refl _, by simpa using .refresh, ?_, by simp⟩
    rintro _ ⟨⟩
    exact ⟨rfl, rfl, by simp [Job.kind, Job.employs]⟩
  | miss | loaded | stuck => exact ⟨rfl, Nat.le_refl _, by simp, by simp, by simp [Job.kind]⟩

theorem Turn.grows {i : Input} {t : Task} {job? : Option Job} {fresh : List Job}
    (h : Turn r i t job? fresh core acts) : Grows r t job? fresh core := by
  cases h with
  | dial h =>
    refine ⟨h.keeps.1, h.keeps.2, by simp, ?_, by simp⟩
    rintro _ ⟨⟩
    exact ⟨rfl, rfl, by simp⟩
  | refresh h => exact h.grows
  | send h => exact h.grows
  | opening h => exact h.grows
  | reload | recover =>
    refine ⟨rfl, Nat.le_refl _, by simpa using .refresh, ?_, by simp⟩
    rintro _ ⟨⟩
    exact ⟨rfl, rfl, by simp [Job.kind, Job.employs]⟩
  | reloaded | recovered => exact ⟨rfl, Nat.le_refl _, by simp, by simp, by simp [Job.kind]⟩
  | dialed | refused =>
    refine ⟨rfl, Nat.le_refl _, by simp, ?_, by simp⟩
    rintro _ ⟨⟩
    exact ⟨rfl, rfl, by simp⟩
  | rested hs =>
    refine ⟨rfl, Nat.le_refl _, by simp, ?_, by simp⟩
    rintro _ ⟨⟩
    exact ⟨rfl, rfl, by simp⟩

theorem Turn.finished {i : Input} {t : Task} {job? : Option Job} {fresh : List Job} {d : TaskId}
    (h : Turn r i t job? fresh core acts) (hd : d ∈ t.job.helpers) (hk : t.job.employs = .refresh) :
    ∃ result, r.refreshResult? d = some result := by
  cases h with
  | dial | refresh | reload | recover | dialed | refused => cases hk <;> cases hd
  | send h =>
    next s _ =>
    obtain ⟨_, _, _, _, stage⟩ := s
    cases stage with
    | refreshing => cases h <;> simp_all [Job.helpers]
    | reaching => cases hk
    | _ => cases hd
  | opening h => cases h <;> simp_all [Job.helpers, Job.employs]
  | reloaded h | recovered h =>
    obtain rfl := List.mem_singleton.mp hd
    exact ⟨_, h⟩
  | rested hs =>
    next s _ =>
    obtain ⟨_, _, _, _, stage⟩ := s
    cases hs
    cases hd

theorem Turn.settings {i : Input} {t : Task} {job? : Option Job} {fresh : List Job}
    (h : Turn r i t job? fresh core acts) : core.settings = r.settings := by
  cases h with
  | dial h => cases h <;> rfl
  | refresh h => cases h <;> rfl
  | send h => cases h <;> rfl
  | opening h => cases h <;> rfl
  | reload | reloaded | recover | recovered | dialed | refused | rested => rfl

namespace Forest

theorem eq_of_id (hf : Forest r) {t u : Task} (ht : t ∈ r.tasks) (hu : u ∈ r.tasks)
    (h : t.id = u.id) : t = u := List.inj_on_of_nodup_map hf.nodup ht hu h

theorem id_not_mem_helpers (hf : Forest r) {t : Task} (ht : t ∈ r.tasks) : t.id ∉ t.job.helpers := by
  intro h
  obtain ⟨u, hu, hid, hk⟩ := hf.helped t ht _ h
  obtain rfl := hf.eq_of_id hu ht hid
  exact Job.kind_ne_employs (List.ne_nil_of_mem h) hk

/-- The tasks after a turn: those that had no part in it, the task itself, and its new helpers. -/
theorem mem_turn (hf : Forest r) {t : Task} {job? : Option Job} {fresh : List Job} (ht : t ∈ r.tasks)
    (hg : Grows r t job? fresh core) {u : Task} :
    u ∈ (core.turn t job? fresh).tasks ↔ u ∈ r.tasks ∧ u ≠ t ∧ u.id ∉ t.job.helpers ∨
      (∃ job, job? = some job ∧ u = { t with job := job }) ∨ u ∈ recruits t.root fresh core.next := by
  have new {v : Task} (hv : v ∈ recruits t.root fresh core.next) : v.id ≠ t.id := by
    exact Nat.ne_of_gt (Nat.lt_of_lt_of_le (hf.bound t ht)
      (Nat.le_trans hg.next (id_of_mem_recruits hv).1))
  simp only [turn_tasks, hg.tasks, List.mem_filterMap, List.mem_append, List.mem_filter,
    Bool.not_eq_true', List.contains_eq_mem, decide_eq_false_iff_not]
  constructor
  · rintro ⟨v, ⟨hv, hh⟩ | hv, he⟩
    · split at he
      next hid =>
        obtain rfl := hf.eq_of_id hv ht hid
        obtain ⟨job, hj, rfl⟩ := Option.map_eq_some_iff.mp he
        exact .inr (.inl ⟨job, hj, rfl⟩)
      next hid =>
        cases he
        exact .inl ⟨hv, fun h => hid (h ▸ rfl), hh⟩
    · rw [if_neg (new hv)] at he
      cases he
      exact .inr (.inr hv)
  · rintro (⟨hu, hne, hh⟩ | ⟨job, hj, rfl⟩ | hu)
    · exact ⟨u, .inl ⟨hu, hh⟩, if_neg fun h => hne (hf.eq_of_id hu ht h)⟩
    · exact ⟨t, .inl ⟨ht, hf.id_not_mem_helpers ht⟩, by simp [hj]⟩
    · exact ⟨u, .inr hu, if_neg (new hu)⟩

theorem find?_eq (hf : Forest r) {t : Task} (ht : t ∈ r.tasks) :
    (r.tasks.find? fun u => u.id == t.id) = some t := find?_eq_of_nodup hf.nodup ht

theorem job?_eq (hf : Forest r) {t : Task} (ht : t ∈ r.tasks) : r.job? t.id = some t.job := by
  rw [job?, hf.find?_eq ht]
  rfl

/-- The helpers that go with a turn have nothing under way but a connection. -/
theorem helper_done (hf : Forest r) {i : Input} {t u : Task} {job? : Option Job} {fresh : List Job}
    (ht : t ∈ r.tasks) (h : Turn r i t job? fresh core acts) (hu : u ∈ r.tasks)
    (hd : u.id ∈ t.job.helpers) : u.job.kind = .dial ∨ ∃ result, u.job = .refresh (.done result) := by
  obtain ⟨v, hv, hid, hk⟩ := hf.helped t ht _ hd
  obtain rfl := hf.eq_of_id hv hu hid
  cases hw : t.job.employs with
  | dial => exact .inl (hk.trans hw)
  | call => exact absurd hw (Job.employs_ne_call _)
  | refresh =>
    obtain ⟨result, hr⟩ := h.finished hd hw
    simp only [refreshResult?, hf.job?_eq hv] at hr
    split at hr
    next hj => exact .inr ⟨_, Option.some.inj hj⟩
    · cases hr

theorem job_of_mem_turn (hf : Forest r) {t u : Task} {job? : Option Job} {fresh : List Job}
    (ht : t ∈ r.tasks) (hg : Grows r t job? fresh core) (hu : u ∈ (core.turn t job? fresh).tasks)
    (hid : u.id = t.id) : job? = some u.job := by
  rcases (hf.mem_turn ht hg).mp hu with ⟨hu, hne, -⟩ | ⟨job, hj, rfl⟩ | hu
  · exact absurd (hf.eq_of_id hu ht hid) hne
  · exact hj
  · exact absurd (hid ▸ hf.bound t ht)
      (Nat.not_lt_of_ge (Nat.le_trans hg.next (id_of_mem_recruits hu).1))

/-- A task that had no part in a turn is what it was. -/
theorem mem_turn_eq (hf : Forest r) {t u v : Task} {job? : Option Job} {fresh : List Job}
    (ht : t ∈ r.tasks) (hg : Grows r t job? fresh core) (hu : u ∈ r.tasks) (hne : u ≠ t)
    (hv : v ∈ (core.turn t job? fresh).tasks) (hid : v.id = u.id) : v = u := by
  rcases (hf.mem_turn ht hg).mp hv with ⟨hv, -, -⟩ | ⟨job, -, rfl⟩ | hv
  · exact hf.eq_of_id hv hu hid
  · exact absurd (hf.eq_of_id hu ht hid.symm) hne
  · exact absurd (hid ▸ hf.bound u hu)
      (Nat.not_lt_of_ge (Nat.le_trans hg.next (id_of_mem_recruits hv).1))

theorem helper_lt (hf : Forest r) {t : Task} (ht : t ∈ r.tasks) {d : TaskId}
    (hd : d ∈ t.job.helpers) : d < r.next := by
  obtain ⟨u, hu, rfl, -⟩ := hf.helped t ht d hd
  exact hf.bound u hu

theorem turn (hf : Forest r) {t : Task} {job? : Option Job} {fresh : List Job} (ht : t ∈ r.tasks)
    (hg : Grows r t job? fresh core) : Forest (core.turn t job? fresh) where
  nodup := by
    have old : ((r.tasks.filter fun u => !t.job.helpers.contains u.id).map (·.id)).Nodup :=
      hf.nodup.sublist (List.Sublist.map _ List.filter_sublist)
    have all : (((r.tasks.filter fun u => !t.job.helpers.contains u.id) ++
        recruits t.root fresh core.next).map (·.id)).Nodup := by
      rw [List.map_append, recruits_ids]
      refine List.nodup_append.mpr ⟨old, List.nodup_range', ?_⟩
      rintro _ ha d hd rfl
      obtain ⟨u, hu, rfl⟩ := List.mem_map.mp ha
      exact Nat.not_lt_of_ge (Nat.le_trans hg.next (List.mem_range'_1.mp hd).1)
        (hf.bound u (List.mem_of_mem_filter hu))
    rw [turn_tasks, hg.tasks, List.Nodup, List.pairwise_map, List.pairwise_filterMap]
    refine (List.pairwise_map.mp all).imp fun {u v} huv u' hu' v' hv' => ?_
    have same {w w' : Task} (h : (if w.id = t.id then job?.map fun job => { w with job := job }
        else some w) = some w') : w'.id = w.id := by
      split at h
      · obtain ⟨job, -, rfl⟩ := Option.map_eq_some_iff.mp h
        rfl
      · cases h
        rfl
    rwa [same hu', same hv']
  bound u hu := by
    have old {v : Task} (hv : v ∈ r.tasks) : v.id < core.next + fresh.length :=
      Nat.lt_of_lt_of_le (hf.bound v hv) (Nat.le_trans hg.next (Nat.le_add_right _ _))
    rw [turn_eq]
    rcases (hf.mem_turn ht hg).mp hu with ⟨hu, -, -⟩ | ⟨job, -, rfl⟩ | hu
    · exact old hu
    · exact old (v := t) ht
    · exact (id_of_mem_recruits hu).2
  helped u hu d hd := by
    rcases (hf.mem_turn ht hg).mp hu with ⟨hu, hne, -⟩ | ⟨job, hj, rfl⟩ | hu
    · obtain ⟨v, hv, rfl, hk⟩ := hf.helped u hu d hd
      by_cases hvt : v = t
      · subst hvt
        cases hj : job? with
        | none => exact absurd ((hg.leaves hj).1.symm.trans hk).symm (Job.employs_ne_call _)
        | some job =>
          subst hj
          exact ⟨{ v with job := job }, (hf.mem_turn ht hg).mpr (.inr (.inl ⟨job, rfl, rfl⟩)), rfl,
            (hg.keeps job rfl).1.trans hk⟩
      · have hv' : v.id ∉ t.job.helpers := fun h => hne (hf.apart u hu t ht _ hd h)
        exact ⟨v, (hf.mem_turn ht hg).mpr (.inl ⟨hv, hvt, hv'⟩), rfl, hk⟩
    · obtain ⟨-, hh, hk⟩ := hg.keeps job hj
      rw [hh, ← recruits_ids t.root] at hd
      obtain ⟨v, hv, rfl⟩ := List.mem_map.mp hd
      exact ⟨v, (hf.mem_turn ht hg).mpr (.inr (.inr hv)), rfl, hk _ (job_of_mem_recruits hv)⟩
    · rw [(hg.recruits _ (job_of_mem_recruits hu)).helpers] at hd
      cases hd
  apart := by
    -- The new helpers have numbers that nobody waited for.
    have new {u : Task} (hu : u ∈ r.tasks) {job : Job} (hj : job? = some job) {d : TaskId}
        (hd : d ∈ job.helpers) : d ∉ u.job.helpers := by
      rw [(hg.keeps job hj).2.1] at hd
      exact fun h => Nat.not_lt_of_ge (Nat.le_trans hg.next (List.mem_range'_1.mp hd).1)
        (hf.helper_lt hu h)
    intro u hu v hv d hd hd'
    rcases (hf.mem_turn ht hg).mp hu with ⟨hu, -, -⟩ | ⟨job, hj, rfl⟩ | hu
    · rcases (hf.mem_turn ht hg).mp hv with ⟨hv, -, -⟩ | ⟨job, hj, rfl⟩ | hv
      · exact hf.apart u hu v hv d hd hd'
      · exact absurd hd (new hu hj hd')
      · rw [(hg.recruits _ (job_of_mem_recruits hv)).helpers] at hd'
        cases hd'
    · rcases (hf.mem_turn ht hg).mp hv with ⟨hv, -, -⟩ | ⟨job', hj', rfl⟩ | hv
      · exact absurd hd' (new hv hj hd)
      · cases hj.symm.trans hj'
        rfl
      · rw [(hg.recruits _ (job_of_mem_recruits hv)).helpers] at hd'
        cases hd'
    · rw [(hg.recruits _ (job_of_mem_recruits hu)).helpers] at hd
      cases hd

/-- A call has a number of its own and no helpers yet. -/
theorem call (hf : Forest r) {job : Job} (hh : job.helpers = []) : Forest (r.call job).2 where
  nodup := by
    refine (List.map_append ▸ List.nodup_append.mpr ⟨hf.nodup, List.nodup_singleton _, ?_⟩)
    rintro _ ha _ hb rfl
    obtain ⟨u, hu, rfl⟩ := List.mem_map.mp ha
    exact Nat.ne_of_lt (hf.bound u hu) (by simpa using hb)
  bound u hu := by
    rcases List.mem_append.mp hu with hu | hu
    · exact Nat.lt_succ_of_lt (hf.bound u hu)
    · obtain rfl := List.mem_singleton.mp hu
      exact Nat.lt_succ_self _
  helped u hu d hd := by
    rcases List.mem_append.mp hu with hu | hu
    · obtain ⟨v, hv, h⟩ := hf.helped u hu d hd
      exact ⟨v, List.mem_append_left _ hv, h⟩
    · obtain rfl := List.mem_singleton.mp hu
      rw [hh] at hd
      cases hd
  apart u hu v hv d hd hd' := by
    rcases List.mem_append.mp hu with hu | hu
    · rcases List.mem_append.mp hv with hv | hv
      · exact hf.apart u hu v hv d hd hd'
      · obtain rfl := List.mem_singleton.mp hv
        rw [hh] at hd'
        cases hd'
    · obtain rfl := List.mem_singleton.mp hu
      rw [hh] at hd
      cases hd

end Forest

/-- What calls and news leave alone. -/
structure Spares (r core : Router) : Prop where
  tasks : core.tasks = r.tasks
  next : core.next = r.next
  lock : core.lock = r.lock
  settings : core.settings = r.settings

theorem spares_forget (r : Router) (a : String) : Spares r (r.forget a) := by
  rw [forget_eq]
  exact ⟨rfl, rfl, rfl, rfl⟩

theorem Call.spares {i : Input} {job : Job} (h : Call r i job core acts) : Spares r core := by
  cases h with
  | recovery => exact spares_forget r _
  | _ => exact ⟨rfl, rfl, rfl, rfl⟩

theorem Call.helpers {i : Input} {job : Job} (h : Call r i job core acts) : job.helpers = [] := by
  cases h <;> rfl

theorem Call.kind {i : Input} {job : Job} (h : Call r i job core acts) : job.kind = .call := by
  cases h <;> rfl

theorem News.spares {i : Input} (h : News r i core acts) : Spares r core := by
  cases h with
  | failed | ended => exact spares_forget r _
  | _ => exact ⟨rfl, rfl, rfl, rfl⟩

theorem Forest.of_spares (hf : Forest r) (h : Spares r core) : Forest core where
  nodup := h.tasks ▸ hf.nodup
  bound t ht := h.next ▸ hf.bound t (h.tasks ▸ ht)
  helped := h.tasks ▸ hf.helped
  apart := h.tasks ▸ hf.apart

theorem Forest.event {i : Input} (hf : Forest r) (h : Event r i r' acts) : Forest r' := by
  cases h with
  | turn ht h => exact hf.turn ht h.grows
  | call h => exact (hf.of_spares h.spares).call h.helpers
  | news h => exact hf.of_spares h.spares

theorem Event.next_le {i : Input} (h : Event r i r' acts) : r.next ≤ r'.next := by
  cases h with
  | turn ht h => rw [turn_eq]; exact Nat.le_trans h.grows.next (Nat.le_add_right _ _)
  | call h => exact Nat.le_trans (Nat.le_of_eq h.spares.next.symm) (Nat.le_succ _)
  | news h => exact Nat.le_of_eq h.spares.next.symm

theorem Event.exists_of_lt {i : Input} (h : Event r i r' acts) (hf : Forest r) {u : Task}
    (hu : u ∈ r'.tasks) (hid : u.id < r.next) : ∃ t ∈ r.tasks, t.id = u.id := by
  cases h with
  | turn ht h =>
    have hg := h.grows
    rcases (hf.mem_turn ht hg).mp hu with ⟨hu, -, -⟩ | ⟨job, -, rfl⟩ | hu
    · exact ⟨u, hu, rfl⟩
    · exact ⟨_, ht, rfl⟩
    · exact absurd hid (Nat.not_lt_of_ge (Nat.le_trans hg.next (id_of_mem_recruits hu).1))
  | call h =>
    rcases List.mem_append.mp hu with hu | hu
    · exact ⟨u, h.spares.tasks ▸ hu, rfl⟩
    · obtain rfl := List.mem_singleton.mp hu
      exact absurd hid (Nat.not_lt_of_ge (Nat.le_of_eq h.spares.next.symm))
  | news h => exact ⟨u, h.spares.tasks ▸ hu, rfl⟩

theorem Event.settings {i : Input} (h : Event r i r' acts) : r'.settings = r.settings := by
  cases h with
  | turn _ h => rw [turn_eq]; exact h.settings
  | call h => exact h.spares.settings
  | news h => exact h.spares.settings

theorem Reaches.settings (h : Reaches s is r log) : r.settings = s :=
  h.induct (P := fun r _ => r.settings = s) rfl fun _ hs _ he => he.settings.trans hs

theorem Reaches.forest (h : Reaches s is r log) : Forest r :=
  h.induct (P := fun r _ => Forest r) ⟨List.nodup_nil, nofun, nofun, nofun⟩
    fun _ hf _ he => hf.event he

end Router

end RespClient.Cluster
