import RespClient.Proofs.Sentinel.Resolver.Notifier

namespace RespClient.Sentinel

/-- The connection that a job has opened and not submitted anything on. -/
def Job.unused? : Job → Option ConnId
  | .resolve _ _ (.asking _ _ c) => some c
  | .notify (.opened c) | .notify (.listening c) | .notify (.subscribing c) => some c
  | _ => none

/-- The connection that a job hears the messages of and is to subscribe on. -/
def Job.hears? : Job → Option ConnId
  | .notify (.listening c) | .notify (.subscribing c) => some c
  | _ => none

namespace Action

/-- What the action submits on a connection. -/
def sentOn? (c : ConnId) : Action → Option (Claim × Bytes)
  | .submit c' k frame => if c' = c then some (k, frame) else none
  | _ => none

def watches (c : ConnId) : Action → Bool
  | .watchMessages c' => c' == c
  | _ => false

def gives (c : ConnId) : Action → Bool
  | .finish _ (.opened (.ok c')) => c' == c
  | _ => false

end Action

def sentOn (c : ConnId) (log : List Action) : List (Claim × Bytes) := log.filterMap (Action.sentOn? c)

theorem sentOn_append (c : ConnId) (log acts : List Action) :
    sentOn c (log ++ acts) = sentOn c log ++ sentOn c acts := List.filterMap_append

theorem mem_sentOn {c : ConnId} {k : Claim} {frame : Bytes} {log : List Action} :
    (k, frame) ∈ sentOn c log ↔ .submit c k frame ∈ log := by
  rw [sentOn, List.mem_filterMap]
  constructor
  · rintro ⟨a, ha, h⟩
    cases a with
    | submit c' k' frame' =>
      simp only [Action.sentOn?] at h
      split at h
      next hc =>
        cases h
        exact hc ▸ ha
      · cases h
    | _ => cases h
  · intro h
    exact ⟨_, h, by simp [Action.sentOn?]⟩

theorem Job.mem_holds_of_unused? {job : Job} {c : ConnId} (h : job.unused? = some c) : c ∈ job.holds := by
  cases job with
  | resolve master role stage =>
    cases stage <;> cases h
    exact List.mem_singleton_self _
  | notify stage => cases stage <;> cases h <;> exact List.mem_singleton_self _
  | _ => cases h

theorem Job.IsFresh.unused? {job : Job} (h : job.IsFresh) : job.unused? = none := by cases h <;> rfl

theorem Job.IsFresh.hears? {job : Job} (h : job.IsFresh) : job.hears? = none := by cases h <;> rfl

namespace Resolver

variable {s : SentinelSettings} {is js : List Input} {i : Input} {r r' core : Resolver}
  {log acts : List Action} {t u : Task} {job? fresh? : Option Job} {c : ConnId} {id : TaskId}
  {k : Claim} {frame : Bytes}

/-- Nothing was submitted before on what a task has not used, and nothing is now. -/
theorem Turn.unused {job : Job} (h : Turn r i t (some job) fresh? core acts)
    (hc : job.unused? = some c) : t.job.unused? = some c ∨ i = .dialed t.id (.ok c) := by
  generalize hjob : some job = job? at h
  cases h with
  | resolve h =>
    cases hjob
    cases h <;> cases hc
  | notify h =>
    cases hjob
    cases h <;> first | exact .inl hc | cases hc
  | opening h => cases h <;> cases hjob <;> cases hc
  | reached | connected =>
    cases hjob
    cases hc
    exact .inr rfl
  | found | opened => cases hjob
  | lookup | missed | unreachable =>
    cases hjob
    cases hc

theorem Turn.hears {job : Job} (h : Turn r i t (some job) fresh? core acts)
    (hc : job.hears? = some c) : t.job.hears? = some c ∨ .watchMessages c ∈ acts := by
  generalize hjob : some job = job? at h
  cases h with
  | notify h =>
    cases hjob
    cases h with
    | watchMessages =>
      cases hc
      exact .inr (List.mem_singleton_self _)
    | watchEnd => exact .inl hc
    | _ => cases hc
  | opening h => cases h <;> cases hjob <;> cases hc
  | found | opened => cases hjob
  | resolve | lookup | reached | missed | connected | unreachable =>
    cases hjob
    cases hc

/-- A task submits on what it has not used, and has used it then. -/
theorem Turn.submits (h : Turn r i t job? fresh? core acts) (hs : .submit c k frame ∈ acts) :
    acts = [.submit c k frame] ∧ t.job.unused? = some c ∧
      (∀ job, job? = some job → job.unused? = none) ∧
      (frame = subscriptionFrame → t.job.hears? = some c) := by
  cases h with
  | resolve h =>
    cases h with
    | ask =>
      have he := List.mem_singleton.mp hs
      obtain ⟨rfl, rfl, rfl⟩ := Action.submit.inj he
      refine ⟨rfl, rfl, fun job hj => ?_, fun hf => absurd hf (question_ne_subscription _ _)⟩
      cases hj
      rfl
    | _ => simp at hs
  | notify h =>
    cases h with
    | subscribe =>
      have he := List.mem_singleton.mp hs
      obtain ⟨rfl, rfl, rfl⟩ := Action.submit.inj he
      refine ⟨rfl, rfl, fun job hj => ?_, fun _ => rfl⟩
      cases hj
      rfl
    | _ => simp at hs
  | opening h => cases h <;> simp at hs
  | _ => simp at hs

theorem Turn.gives (h : Turn r i t job? fresh? core acts) (hg : .finish id (.opened (.ok c)) ∈ acts) :
    i = .dialed t.id (.ok c) ∧ job? = none ∧ fresh? = none := by
  cases h with
  | resolve h => cases h <;> simp at hg
  | notify h => cases h <;> simp at hg
  | opening h => cases h <;> simp at hg
  | opened =>
    obtain ⟨-, hr⟩ := Action.finish.inj (List.mem_singleton.mp hg)
    cases hr
    exact ⟨rfl, rfl, rfl⟩
  | _ => simp at hg

theorem Event.unused (h : Event r i r' acts) (hn : Numbered r) (hu : u ∈ r'.tasks)
    (hc : u.job.unused? = some c) :
    (∃ t ∈ r.tasks, t.id = u.id ∧ t.job.unused? = some c) ∨ i = .dialed u.id (.ok c) := by
  rcases h.task_cases hn hu with ⟨hu, -⟩ | ⟨t, ht, fresh?, core, hid, hx, -⟩ | ⟨-, hf⟩
  · exact .inl ⟨u, hu, rfl, hc⟩
  · exact (hx.unused hc).imp (fun hc => ⟨t, ht, hid, hc⟩) fun hi => hid ▸ hi
  · cases hf.unused?.symm.trans hc

theorem Event.hears (h : Event r i r' acts) (hn : Numbered r) (hu : u ∈ r'.tasks)
    (hc : u.job.hears? = some c) :
    (∃ t ∈ r.tasks, t.job.hears? = some c) ∨ .watchMessages c ∈ acts := by
  rcases h.task_cases hn hu with ⟨hu, -⟩ | ⟨t, ht, fresh?, core, -, hx, -⟩ | ⟨-, hf⟩
  · exact .inl ⟨u, hu, hc⟩
  · exact (hx.hears hc).imp_left fun hc => ⟨t, ht, hc⟩
  · cases hf.hears?.symm.trans hc

theorem Event.submits (h : Event r i r' acts) (hn : Numbered r) (hs : .submit c k frame ∈ acts) :
    acts = [.submit c k frame] ∧ ∃ t ∈ r.tasks, t.job.unused? = some c ∧
      (∀ u ∈ r'.tasks, u.id = t.id → u.job.unused? = none) ∧
      (frame = subscriptionFrame → t.job.hears? = some c) := by
  cases h with
  | @turn t job? fresh? core acts ht h =>
    obtain ⟨hacts, hc, hused, hears⟩ := h.submits hs
    refine ⟨hacts, t, ht, hc, fun u hu hid => ?_, hears⟩
    rcases (hn.mem_turn ht h.grows).mp hu with ⟨hu, hne, -⟩ | ⟨job, hj, rfl⟩ | ⟨job, hj, rfl⟩
    · exact absurd (hn.eq_of_id hu ht hid) hne
    · exact hused job hj
    · exact (h.grows.recruits job hj).unused?
  | call => cases hs
  | news h => cases h <;> simp at hs

theorem Event.gives (h : Event r i r' acts) (hn : Numbered r)
    (hg : .finish id (.opened (.ok c)) ∈ acts) :
    ∃ id, i = .dialed id (.ok c) ∧ ∀ u ∈ r'.tasks, u ∈ r.tasks ∧ u.id ≠ id := by
  cases h with
  | @turn t job? fresh? core acts ht h =>
    obtain ⟨rfl, rfl, rfl⟩ := h.gives hg
    refine ⟨t.id, rfl, fun u hu => ?_⟩
    rcases (hn.mem_turn ht h.grows).mp hu with ⟨hu, hne, -⟩ | ⟨job, hj, -⟩ | ⟨job, hj, -⟩
    · exact ⟨hu, fun hid => hne (hn.eq_of_id hu ht hid)⟩
    · cases hj
    · cases hj
  | call => cases hg
  | news h => cases h <;> simp at hg

def Given (log : List Action) (c : ConnId) : Prop := ∃ id, .finish id (.opened (.ok c)) ∈ log

/-- What was submitted, and on whose connections. -/
structure Submitting (is : List Input) (r : Resolver) (log : List Action) : Prop where
  unused : ∀ t ∈ r.tasks, ∀ c, t.job.unused? = some c → sentOn c log = []
  arrived : ∀ c, sentOn c log ≠ [] → c ∈ arrived is
  once : ∀ c, (sentOn c log).length ≤ 1
  heard : ∀ t ∈ r.tasks, ∀ c, t.job.hears? = some c → .watchMessages c ∈ log
  watched : ∀ c k, .submit c k subscriptionFrame ∈ log → .watchMessages c ∈ log
  given : ∀ c, Given log c → c ∈ Sentinel.arrived is ∧ sentOn c log = [] ∧
    ∀ t ∈ r.tasks, c ∉ t.job.holds

section

variable (h : Reaches s is r log) (hs : Submitting is r log) (hi : Admits is r i)
  (he : Event r i r' acts)

include h hs he

/-- Either nothing is submitted on a connection, or one frame and nothing before. -/
theorem Submitting.event_sentOn (c : ConnId) :
    sentOn c acts = [] ∨ ∃ t ∈ r.tasks, t.job.unused? = some c ∧ sentOn c log = [] ∧
      (sentOn c acts).length = 1 ∧ ∀ u ∈ r'.tasks, u.id = t.id → u.job.unused? = none := by
  by_cases hnil : sentOn c acts = []
  · exact .inl hnil
  · obtain ⟨⟨k, frame⟩, hmem⟩ := List.exists_mem_of_ne_nil _ hnil
    obtain ⟨rfl, t, ht, hc, hused, -⟩ := he.submits h.numbered (mem_sentOn.mp hmem)
    refine .inr ⟨t, ht, hc, hs.unused t ht c hc, ?_, hused⟩
    simp [sentOn, Action.sentOn?]

include hi

theorem Submitting.event_unused (hu : u ∈ r'.tasks) (hc : u.job.unused? = some c) :
    sentOn c (log ++ acts) = [] := by
  have hlog : sentOn c log = [] := by
    rcases he.unused h.numbered hu hc with ⟨t, ht, -, hc⟩ | rfl
    · exact hs.unused t ht c hc
    · exact by_contra fun hne => hi (hs.arrived c hne)
  rcases hs.event_sentOn h he c with hacts | ⟨t, ht, htc, -, -, hused⟩
  · rw [sentOn_append, hlog, hacts]
    rfl
  · rcases he.unused h.numbered hu hc with ⟨v, hv, hid, hvc⟩ | rfl
    · obtain rfl := h.custody.single t ht v hv c (Job.mem_holds_of_unused? htc)
        (Job.mem_holds_of_unused? hvc)
      cases (hused u hu hid.symm).symm.trans hc
    · exact absurd (h.custody.held t ht c (Job.mem_holds_of_unused? htc)) hi

theorem Submitting.event_given (hg : Given (log ++ acts) c) : c ∈ Sentinel.arrived (is ++ [i]) ∧
    sentOn c (log ++ acts) = [] ∧ ∀ t ∈ r'.tasks, c ∉ t.job.holds := by
  obtain ⟨id, hg⟩ := hg
  have hunheld : ∀ ha : c ∈ Sentinel.arrived is, (∀ t ∈ r.tasks, c ∉ t.job.holds) →
      ∀ u ∈ r'.tasks, c ∉ u.job.holds := by
    intro ha hno u hu hcu
    obtain ⟨t, ht, -, hct⟩ := (he.handover h.numbered).holder hi hu hcu ha
    exact hno t ht hct
  have hunsent : (∀ t ∈ r.tasks, c ∉ t.job.holds) → sentOn c log = [] →
      sentOn c (log ++ acts) = [] := by
    intro hno hlog
    rcases hs.event_sentOn h he c with hacts | ⟨t, ht, htc, -⟩
    · rw [sentOn_append, hlog, hacts]
      rfl
    · exact absurd (Job.mem_holds_of_unused? htc) (hno t ht)
  rcases List.mem_append.mp hg with hg | hg
  · obtain ⟨ha, hlog, hno⟩ := hs.given c ⟨id, hg⟩
    exact ⟨arrived_mono ha i, hunsent hno hlog, hunheld ha hno⟩
  · obtain ⟨id, rfl, hold⟩ := he.gives h.numbered hg
    have hno : ∀ t ∈ r.tasks, c ∉ t.job.holds := fun t ht hct => hi (h.custody.held t ht c hct)
    refine ⟨mem_arrived_self, hunsent hno ?_, fun u hu hcu => hno u (hold u hu).1 hcu⟩
    exact by_contra fun hne => hi (hs.arrived c hne)

theorem Submitting.event : Submitting (is ++ [i]) r' (log ++ acts) where
  unused u hu c hc := hs.event_unused h hi he hu hc
  arrived c hne := by
    rcases hs.event_sentOn h he c with hacts | ⟨t, ht, htc, -⟩
    · rw [sentOn_append, hacts, List.append_nil] at hne
      exact arrived_mono (hs.arrived c hne) i
    · exact arrived_mono (h.custody.held t ht c (Job.mem_holds_of_unused? htc)) i
  once c := by
    rcases hs.event_sentOn h he c with hacts | ⟨t, -, -, hlog, hone, -⟩
    · rw [sentOn_append, hacts, List.append_nil]
      exact hs.once c
    · rw [sentOn_append, hlog, List.nil_append]
      exact Nat.le_of_eq hone
  heard u hu c hc := by
    rcases he.hears h.numbered hu hc with ⟨t, ht, hc⟩ | ha
    · exact List.mem_append_left _ (hs.heard t ht c hc)
    · exact List.mem_append_right _ ha
  watched c k hk := by
    rcases List.mem_append.mp hk with hk | hk
    · exact List.mem_append_left _ (hs.watched c k hk)
    · obtain ⟨-, t, ht, -, -, hears⟩ := he.submits h.numbered hk
      exact List.mem_append_left _ (hs.heard t ht c (hears rfl))
  given c hg := hs.event_given h hi he hg

end

theorem Reaches.submitting (h : Reaches s is r log) : Submitting is r log := by
  refine h.induct (P := Submitting) ⟨nofun, fun c hc => absurd rfl hc, fun _ => Nat.zero_le _, nofun,
    nofun, ?_⟩ fun h hs hi he => hs.event h hi he
  rintro c ⟨id, hg⟩
  cases hg

/-- The connection that a subscription was submitted on is heard, nothing else was submitted on it, and
no caller has got it. -/
theorem Reaches.subscribed (h : Reaches s is r log)
    (hk : .submit c k subscriptionFrame ∈ log) :
    sentOn c log = [(k, subscriptionFrame)] ∧ .watchMessages c ∈ log ∧
      ¬ Given log c := by
  have hs := h.submitting
  have hmem := mem_sentOn.mpr hk
  refine ⟨?_, hs.watched c k hk, fun hg => ?_⟩
  · obtain ⟨x, hx⟩ := List.length_eq_one_iff.mp
      (Nat.le_antisymm (hs.once c) (List.length_pos_of_mem hmem))
    rw [hx] at hmem ⊢
    rw [List.mem_singleton.mp hmem]
  · rw [(hs.given c hg).2.1] at hmem
    cases hmem

end Resolver

end RespClient.Sentinel
