import RespClient.Proofs.Cluster.Router.Tables

namespace RespClient.Cluster

/-- What a frame is there for. -/
inductive Purpose where
  /-- The `READONLY` for a new connection. -/
  | greeting
  /-- The question for the slots. -/
  | slots
  /-- The `ASKING` in front of a command. -/
  | asking
  /-- The command of a caller. -/
  | command
  /-- The command of a caller, behind the `ASKING` with this claim. -/
  | asked (asking : Claim)
  deriving DecidableEq

structure Draft where
  conn : ConnId
  purpose : Purpose
  frame : Bytes
  deriving DecidableEq

structure Submission extends Draft where
  task : TaskId
  claim : Claim
  deriving DecidableEq

/-- What a job submits with its next step, if the connection is alive. -/
def Job.draft? : Job → Option Draft
  | dial _ (.greet c) => some ⟨c, .greeting, Router.readonlyFrame⟩
  | refresh (.asking _ _ c) => some ⟨c, .slots, Router.slotsFrame⟩
  | send ⟨_, frame, _, _, .submit c⟩ => some ⟨c, .command, frame⟩
  | send ⟨_, _, _, _, .submitAsking c⟩ => some ⟨c, .asking, Router.askingFrame⟩
  | send ⟨_, frame, _, _, .submitAsked c q⟩ => some ⟨c, .asked q, frame⟩
  | _ => none

/-- A job has submitted its draft, and waits with claim `k`. -/
inductive Job.Submits (k : Claim) : Job → Draft → Job → Prop
  | greet {a c} : Submits k (dial a (.greet c)) ⟨c, .greeting, Router.readonlyFrame⟩
      (dial a (.greeting c k))
  | survey {failed a c} : Submits k (refresh (.asking failed a c)) ⟨c, .slots, Router.slotsFrame⟩
      (refresh (.awaiting failed a c k))
  | submit {s c} (h : s.stage = .submit c) : Submits k (send s) ⟨c, .command, s.frame⟩
      (send { s with stage := .awaiting c k })
  | ask {s c} (h : s.stage = .submitAsking c) : Submits k (send s) ⟨c, .asking, Router.askingFrame⟩
      (send { s with stage := .submitAsked c k })
  | follow {s c q} (h : s.stage = .submitAsked c q) : Submits k (send s) ⟨c, .asked q, s.frame⟩
      (send { s with stage := .awaitingAsking c q k })

theorem Job.exists_submits {job : Job} {d : Draft} (h : job.draft? = some d) (k : Claim) :
    ∃ job', job.Submits k d job' := by
  unfold draft? at h
  split at h
  · cases h; exact ⟨_, .greet⟩
  · cases h; exact ⟨_, .survey⟩
  · cases h; exact ⟨_, .submit rfl⟩
  · cases h; exact ⟨_, .ask rfl⟩
  · cases h; exact ⟨_, .follow rfl⟩
  · cases h

theorem Job.Submits.draft? {job job' : Job} {d : Draft} {k : Claim} (h : job.Submits k d job') :
    job.draft? = some d := by
  cases h with
  | greet | survey => rfl
  | @submit s _ h | @ask s _ h | @follow s _ _ h =>
    obtain ⟨_, _, _, _, _⟩ := s
    cases h
    rfl

theorem Job.Submits.helpers {job job' : Job} {d : Draft} {k : Claim} (h : job.Submits k d job') :
    job.helpers = [] := by
  cases h with
  | greet | survey => rfl
  | @submit s _ h | @ask s _ h | @follow s _ _ h =>
    obtain ⟨_, _, _, _, _⟩ := s
    cases h
    rfl

/-- A greeting goes to a connection of one's own, anything else to a borrowed one. -/
theorem Job.Submits.uses {job job' : Job} {d : Draft} {k : Claim} (h : job.Submits k d job') :
    (d.purpose = .greeting ∧ ∃ a, job = .dial a (.greet d.conn)) ∨
      d.purpose ≠ .greeting ∧ d.conn ∈ job.borrows := by
  cases h with
  | greet => exact .inl ⟨rfl, _, rfl⟩
  | survey => exact .inr ⟨by simp, List.mem_singleton_self _⟩
  | submit h | ask h | follow h =>
    exact .inr ⟨by simp, by simp [borrows, h, SendStage.holds]⟩

/-- What an action submits: where to, the claim and the frame. -/
def Action.sent? : Action → Option (ConnId × Claim × Bytes)
  | submit c k frame => some (c, k, frame)
  | _ => none

def Router.Called (s : ClusterSettings) (is : List Input) (id : TaskId) (command : Command) : Prop :=
  ∃ before, before ++ [.send command] <+: is ∧ (Router.after s before).next = id

/-- The frame of a submission is the one for its purpose, byte by byte if it is the router's own. -/
def Submission.Fits (s : ClusterSettings) (is : List Input) (x : Submission) : Prop :=
  match x.purpose with
  | .greeting => x.frame = Bytes.ofText "*1\r\n$8\r\nREADONLY\r\n"
  | .slots => x.frame = Bytes.ofText "*2\r\n$7\r\nCLUSTER\r\n$5\r\nSLOTS\r\n"
  | .asking => x.frame = Bytes.ofText "*1\r\n$6\r\nASKING\r\n"
  | .command | .asked _ =>
    ∃ command, Router.Called s is x.task command ∧ x.frame = command.encode s.connection.nulls

def Submission.sent (x : Submission) : ConnId × Claim × Bytes := (x.conn, x.claim, x.frame)

namespace Router

variable {s : ClusterSettings} {is js : List Input} {i : Input} {r r' core : Router}
  {log acts : List Action} {x : Submission}

def submits? (r : Router) : Input → Option Submission
  | .step id _ =>
    (((r.job? id).bind Job.draft?).filter fun d => !r.isDown d.conn).map fun d => ⟨d, id, r.next⟩
  | _ => none

/-- What inputs submit, in order. -/
def submissions (r : Router) : List Input → List Submission
  | [] => []
  | i :: is => (r.submits? i).toList ++ (r.step i).1.submissions is

theorem submissions_concat (r : Router) (js : List Input) (i : Input) :
    r.submissions (js ++ [i]) = r.submissions js ++ ((r.run js).1.submits? i).toList := by
  induction js generalizing r with
  | nil => simp [submissions, run]
  | cons j js ih => simp [submissions, run, ih, List.append_assoc]

theorem submits?_eq_some (hf : Forest r) : r.submits? i = some x ↔ ∃ t ∈ r.tasks, ∃ choice,
    i = .step t.id choice ∧ t.id = x.task ∧ t.job.draft? = some x.toDraft ∧ x.conn ∉ r.down ∧
      x.claim = r.next := by
  constructor
  · intro h
    cases i with
    | step id choice =>
      simp only [submits?, Option.map_eq_some_iff, Option.filter_eq_some_iff, Option.bind_eq_some_iff]
        at h
      obtain ⟨d, ⟨⟨job, hj, hd⟩, hdown⟩, rfl⟩ := h
      obtain ⟨t, ht, rfl, rfl⟩ := exists_of_job? hj
      exact ⟨t, ht, choice, rfl, rfl, hd, by simpa [← isDown_iff] using hdown, rfl⟩
    | _ => cases h
  · rintro ⟨t, ht, choice, rfl, hid, hd, hdown, hk⟩
    obtain ⟨d, id, k⟩ := x
    cases hid
    cases hk
    have hlive : r.isDown d.conn = false := (Bool.not_eq_true _).mp fun h => hdown (isDown_iff.mp h)
    simp [submits?, hf.job?_eq ht, hd, hlive]

theorem isFree_of_draft? {t : Task} {d : Draft} (h : t.job.draft? = some d) : r.isFree t = true := by
  obtain ⟨id, root, job⟩ := t
  obtain ⟨job', hs⟩ := Job.exists_submits h 0
  cases hs <;> simp_all [isFree]

/-- Nothing is submitted: there is no draft, or its connection is down. -/
def Withheld (r : Router) (job : Job) (acts : List Action) : Prop :=
  acts.filterMap Action.sent? = [] ∧ ∀ d, job.draft? = some d → d.conn ∈ r.down

theorem filterMap_sent?_of_warn (h : ∀ a ∈ acts, ∃ text, a = Action.warn text) :
    acts.filterMap Action.sent? = [] := by
  refine List.filterMap_eq_nil_iff.mpr fun a ha => ?_
  obtain ⟨text, rfl⟩ := h a ha
  rfl

theorem SendTurn.withheld {id : TaskId} {choice : Nat} {s : Sending} {s' : Option Sending}
    {fresh : List Job} (h : SendTurn r id choice s s' fresh core acts) :
    (∃ d s'', (Job.send s).Submits r.next d (.send s'') ∧ d.conn ∉ r.down ∧ s' = some s'' ∧
      fresh = [] ∧ core = { r with next := r.next + 1 } ∧ acts = [.submit d.conn r.next d.frame]) ∨
    Withheld r (.send s) acts := by
  have live {c : ConnId} (h : r.isDown c = false) : c ∉ r.down := by
    simpa [← isDown_iff] using h
  obtain ⟨command, frame, budget, attempt, stage⟩ := s
  cases h with
  | submit h hc => exact .inl ⟨_, _, .submit h, live hc, rfl, rfl, rfl, rfl⟩
  | ask h hc => exact .inl ⟨_, _, .ask h, live hc, rfl, rfl, rfl, rfl⟩
  | follow h hc => exact .inl ⟨_, _, .follow h, live hc, rfl, rfl, rfl, rfl⟩
  | mute h hc =>
    refine .inr ⟨rfl, fun d hd => ?_⟩
    rcases h with rfl | rfl | ⟨k, rfl⟩ <;> (cases hd; exact isDown_iff.mp hc)
  | refreshed h _ hw =>
    cases h
    exact .inr ⟨filterMap_sent?_of_warn hw, nofun⟩
  | route h | anywhere h | nowhere h | reach h | miss h | asked h | answer h | moved h | shift h
  | again h =>
    cases h
    exact .inr ⟨rfl, nofun⟩

/-- A turn submits the draft of its job, and changes nothing else; or nothing is submitted. -/
theorem Turn.submits {t : Task} {job? : Option Job} {fresh : List Job}
    (h : Turn r i t job? fresh core acts) :
    (∃ d job choice, i = .step t.id choice ∧ t.job.Submits r.next d job ∧ d.conn ∉ r.down ∧
      job? = some job ∧ fresh = [] ∧ core = { r with next := r.next + 1 } ∧
      acts = [.submit d.conn r.next d.frame]) ∨
    Withheld r t.job acts := by
  have live {c : ConnId} (h : r.isDown c = false) : c ∉ r.down := by
    simpa [← isDown_iff] using h
  cases h with
  | dial h =>
    cases h with
    | greet hc => exact .inl ⟨_, _, _, rfl, .greet, live hc, rfl, rfl, rfl, rfl⟩
    | mute hc => exact .inr ⟨rfl, by rintro _ ⟨⟩; exact isDown_iff.mp hc⟩
    | _ => exact .inr ⟨rfl, nofun⟩
  | refresh h =>
    cases h with
    | ask hc => exact .inl ⟨_, _, _, rfl, .survey, live hc, rfl, rfl, rfl, rfl⟩
    | mute hc => exact .inr ⟨rfl, by rintro _ ⟨⟩; exact isDown_iff.mp hc⟩
    | fill => exact .inr ⟨filterMap_sent?_of_warn (dialWarnings_warn r _), nofun⟩
    | _ => exact .inr ⟨rfl, nofun⟩
  | send h =>
    rcases h.withheld with ⟨d, s'', hs, hd, rfl, hrest⟩ | h
    · exact .inl ⟨d, _, _, rfl, hs, hd, rfl, hrest⟩
    · exact .inr h
  | opening h =>
    cases h with
    | miss | stuck => exact .inr ⟨by simp [Action.sent?], nofun⟩
    | _ => exact .inr ⟨rfl, nofun⟩
  | recovered _ hw => exact .inr ⟨filterMap_sent?_of_warn hw, nofun⟩
  | reload | reloaded | recover | dialed | refused => exact .inr ⟨rfl, nofun⟩
  | rested h =>
    next s _ =>
    obtain ⟨_, _, _, _, stage⟩ := s
    cases h
    exact .inr ⟨rfl, nofun⟩

/-- A step that submits something: its task goes on to wait, and nothing else happens. -/
theorem step_submits (hf : Forest r) (h : r.submits? i = some x) :
    ∃ t ∈ r.tasks, ∃ choice job, i = .step t.id choice ∧ t.id = x.task ∧
      t.job.Submits x.claim x.toDraft job ∧ x.claim = r.next ∧ x.conn ∉ r.down ∧
      r.step i = (({ r with next := r.next + 1 } : Router).setJob t.id job,
        [.submit x.conn x.claim x.frame]) := by
  obtain ⟨t, ht, choice, rfl, hid, hd, hdown, hk⟩ := (submits?_eq_some hf).mp h
  rcases step_own hf ht choice with ⟨hfree, -⟩ | ⟨job?, fresh, core, acts, hx, hstep⟩
  · cases hfree.symm.trans (isFree_of_draft? hd)
  rcases hx.submits with ⟨d, job, _, -, hs, -, rfl, rfl, rfl, rfl⟩ | ⟨-, hw⟩
  · cases hs.draft?.symm.trans hd
    refine ⟨t, ht, choice, job, rfl, hid, hk ▸ hs, hk, hdown, ?_⟩
    rw [hstep, turn_setJob hs.helpers, hk]
  · exact absurd (hw _ hd) hdown

/-- After a step that submits something its task waits, and the other ones are left alone. -/
theorem submits_cases (hf : Forest r) (h : r.submits? i = some x) {u : Task}
    (hu : u ∈ (r.step i).1.tasks) :
    (∃ t ∈ r.tasks, t.id = u.id ∧ u.id = x.task ∧ t.job.Submits x.claim x.toDraft u.job) ∨
      u ∈ r.tasks ∧ u.id ≠ x.task := by
  obtain ⟨t, ht, choice, job, -, hid, hjob, -, -, hstep⟩ := step_submits hf h
  rw [hstep] at hu
  obtain ⟨v, hv, rfl⟩ := List.mem_map.mp hu
  by_cases hvid : v.id = t.id
  · rw [if_pos (beq_iff_eq.mpr hvid)]
    exact .inl ⟨t, ht, hvid.symm, hvid.trans hid, hjob⟩
  · rw [if_neg fun h => hvid (beq_iff_eq.mp h)]
    exact .inr ⟨hv, fun h => hvid (h.trans hid.symm)⟩

/-- The actions of a step submit what its input submits. -/
theorem step_sent (hf : Forest r) (i : Input) :
    (r.step i).2.filterMap Action.sent? = (r.submits? i).toList.map Submission.sent := by
  cases h : r.submits? i with
  | some x =>
    obtain ⟨t, -, choice, job, -, -, -, -, -, hstep⟩ := step_submits hf h
    rw [hstep]
    rfl
  | none =>
    have hx := step_event r i
    generalize (r.step i).1 = r' at hx
    generalize (r.step i).2 = acts at hx ⊢
    cases hx with
    | turn ht hx =>
      rcases hx.submits with ⟨d, job, choice, rfl, hs, hd, -⟩ | ⟨hw, -⟩
      · have hsome : r.submits? (.step _ choice) = some ⟨d, _, r.next⟩ :=
          (submits?_eq_some hf).mpr ⟨_, ht, choice, rfl, rfl, hs.draft?, hd, rfl⟩
        cases h.symm.trans hsome
      · exact hw
    | call hx => cases hx <;> rfl
    | news hx =>
      cases hx with
      | ended => split <;> rfl
      | close => simp [Action.sent?]
      | idle | reply | down | failed => rfl

/-- All that was submitted since a router with settings `s` was new. -/
def submitted (s : ClusterSettings) (is : List Input) : List Submission := (after s []).submissions is

theorem Reaches.submitted_concat (h : Reaches s is r log) (i : Input) :
    submitted s (is ++ [i]) = submitted s is ++ (r.submits? i).toList := by
  have hr : ((after s []).run is).1 = r := h.eq_after.symm
  rw [submitted, submissions_concat, hr]
  rfl

theorem Reaches.submitted_of_some (h : Reaches s is r log) (hx : r.submits? i = some x) :
    submitted s (is ++ [i]) = submitted s is ++ [x] := by
  rw [h.submitted_concat, hx, Option.toList_some]

theorem Reaches.submitted_of_none (h : Reaches s is r log) (hi : r.submits? i = none) :
    submitted s (is ++ [i]) = submitted s is := by
  rw [h.submitted_concat, hi, Option.toList_none, List.append_nil]

/-- What is submitted goes to a connection that was opened. -/
theorem Custody.submits (hc : Custody r log) {t : Task} (ht : t ∈ r.tasks) {d : Draft} {job : Job}
    {k : Claim} (h : t.job.Submits k d job) : d.conn ∈ r.opened.map (·.1) := by
  rcases h.uses with ⟨-, a, hj⟩ | ⟨-, hb⟩
  · exact List.mem_map_of_mem (hc.owned t ht (a, d.conn) (by rw [hj]; rfl))
  · exact (hc.borrowed t ht _ hb).1

/-- Claims are handed out in order, and only used on connections that were opened. -/
theorem Reaches.claims (h : Reaches s is r log) :
    ((submitted s is).map (·.claim)).Pairwise (· < ·) ∧
      ∀ x ∈ submitted s is, x.claim < r.next ∧ x.conn ∈ r.opened.map (·.1) := by
  induction h with
  | start => exact ⟨.nil, nofun⟩
  | @step is r log i h hi ih =>
    obtain ⟨hlt, hall⟩ := ih
    have he := step_event r i
    have hold {x : Submission} (hx : x ∈ submitted s is) :
        x.claim < (r.step i).1.next ∧ x.conn ∈ (r.step i).1.opened.map (·.1) := by
      obtain ⟨hk, hc⟩ := hall x hx
      obtain ⟨e, hmem, hec⟩ := List.mem_map.mp hc
      exact ⟨Nat.lt_of_lt_of_le hk he.next_le,
        List.mem_map.mpr ⟨e, (h.custody.handover h.forest hi he).mem_opened hmem, hec⟩⟩
    cases hs : r.submits? i with
    | none =>
      rw [h.submitted_of_none hs]
      exact ⟨hlt, fun x hx => hold hx⟩
    | some x =>
      obtain ⟨t, ht, choice, job, -, -, hjob, hk, -, hstep⟩ := step_submits h.forest hs
      have hc := h.custody.submits ht hjob
      rw [h.submitted_of_some hs, List.map_append]
      refine ⟨List.pairwise_append.mpr ⟨hlt, List.pairwise_singleton .., ?_⟩, fun y hy => ?_⟩
      · rintro _ ha _ hb
        obtain ⟨y, hy, rfl⟩ := List.mem_map.mp ha
        obtain rfl := List.mem_singleton.mp hb
        exact Nat.lt_of_lt_of_eq (hall y hy).1 hk.symm
      · rcases List.mem_append.mp hy with hy | hy
        · exact hold hy
        · obtain rfl := List.mem_singleton.mp hy
          rw [hstep]
          exact ⟨hk ▸ Nat.lt_succ_self _, hc⟩

theorem Reaches.eq_of_claim (h : Reaches s is r log) {y : Submission} (hx : x ∈ submitted s is)
    (hy : y ∈ submitted s is) (hk : x.claim = y.claim) : x = y :=
  List.inj_on_of_nodup_map (h.claims.1.imp Nat.ne_of_lt) hx hy hk

/-- What was submitted on one connection. -/
def on (c : ConnId) (xs : List Submission) : List Submission := xs.filter fun x => x.conn == c

theorem on_append (c : ConnId) (xs ys : List Submission) : on c (xs ++ ys) = on c xs ++ on c ys :=
  List.filter_append ..

theorem mem_on {c : ConnId} {xs : List Submission} : x ∈ on c xs ↔ x ∈ xs ∧ x.conn = c := by
  simp [on]

theorem on_eq_nil {c : ConnId} {xs : List Submission} (h : ∀ x ∈ xs, x.conn ≠ c) : on c xs = [] :=
  List.filter_eq_nil_iff.mpr fun x hx => by simpa using h x hx

/-- What was submitted on a connection before some frame is what was submitted before, on it. -/
theorem exists_of_on {c : ConnId} {xs before after : List Submission}
    (h : on c xs = before ++ x :: after) :
    ∃ front back, xs = front ++ x :: back ∧ on c front = before ∧ x.conn = c := by
  obtain ⟨front, rest, rfl, rfl, hrest⟩ := List.filter_eq_append_iff.mp h
  obtain ⟨skipped, back, rfl, hskipped, hx, -⟩ := List.filter_eq_cons_iff.mp hrest
  refine ⟨front ++ skipped, back, (List.append_assoc ..).symm, ?_, by simpa using hx⟩
  have hnil : on c skipped = [] := on_eq_nil fun z hz => by simpa using hskipped z hz
  rw [on_append, hnil, List.append_nil]
  rfl

theorem SendTurn.same {id : TaskId} {choice : Nat} {s s' : Sending} {fresh : List Job}
    (h : SendTurn r id choice s (some s') fresh core acts) :
    s'.command = s.command ∧ s'.frame = s.frame := by
  cases h <;> exact ⟨rfl, rfl⟩

theorem Called.append {id : TaskId} {command : Command} (h : Called s is id command) :
    Called s (is ++ js) id command := by
  obtain ⟨before, hb, hid⟩ := h
  exact ⟨before, hb.trans (List.prefix_append _ _), hid⟩

theorem Called.mem {id : TaskId} {command : Command} (h : Called s is id command) :
    .send command ∈ is := by
  obtain ⟨before, hb, -⟩ := h
  exact hb.subset (List.mem_append_right _ (List.mem_singleton_self _))

/-- A command that is on its way was called for, and keeps its frame. -/
theorem Reaches.called (h : Reaches s is r log) : ∀ t ∈ r.tasks, ∀ s', t.job = .send s' →
    Called s is t.id s'.command ∧ s'.frame = s'.command.encode s.connection.nulls := by
  induction h with
  | start => exact nofun
  | @step is r log i h _ ih =>
    intro u hu s' hj
    have old {t : Task} {s'' : Sending} (ht : t ∈ r.tasks) (hid : t.id = u.id)
        (hj : t.job = .send s'') (hc : s'.command = s''.command) (hf : s'.frame = s''.frame) :
        Called s (is ++ [i]) u.id s'.command ∧
          s'.frame = s'.command.encode s.connection.nulls := by
      obtain ⟨hcall, hframe⟩ := ih t ht s'' hj
      rw [hc, hf, ← hid]
      exact ⟨hcall.append, hframe⟩
    rcases (step_event r i).send_cases h.forest hu hj with
      hu | ⟨t, ht, hid, s'', choice, fresh, core, hj', hx⟩ | ⟨t, ht, hid, s'', c, hj', -, rfl⟩ |
        ⟨command, rfl, hid, hs⟩
    · exact old hu rfl hj rfl rfl
    · exact old ht hid hj' hx.same.1 hx.same.2
    · exact old ht hid hj' rfl rfl
    · cases hs
      exact ⟨⟨is, List.prefix_rfl, by rw [hid, h.eq_after]⟩, by rw [← h.settings]⟩

theorem fits_concat (h : x.Fits s is) (i : Input) : x.Fits s (is ++ [i]) := by
  unfold Submission.Fits at h ⊢
  cases hp : x.purpose with
  | greeting | slots | asking => rw [hp] at h; exact h
  | command | asked =>
    rw [hp] at h
    obtain ⟨command, hc, hf⟩ := h
    exact ⟨command, hc.append, hf⟩

/-- Every frame that a router submits is a greeting, a question for the slots, an `ASKING`, or that of a
command which was called for. -/
theorem Reaches.fits (h : Reaches s is r log) : ∀ x ∈ submitted s is, x.Fits s is := by
  induction h with
  | start => exact nofun
  | @step is r log i h _ ih =>
    rw [h.submitted_concat]
    intro x hx
    rcases List.mem_append.mp hx with hx | hx
    · exact fits_concat (ih x hx) i
    · refine fits_concat ?_ i
      obtain ⟨t, ht, choice, job, -, hid, hjob, -⟩ := step_submits h.forest (Option.mem_toList.mp hx)
      have called {s' : Sending} (hj : t.job = .send s') : ∃ command,
          Called s is x.task command ∧ s'.frame = command.encode s.connection.nulls :=
        ⟨_, hid ▸ h.called t ht s' hj⟩
      obtain ⟨⟨c, purpose, frame⟩, id, k⟩ := x
      generalize hj : t.job = before at hjob
      cases hjob with
      | greet => exact readonlyFrame_eq
      | survey => exact slotsFrame_eq
      | ask => exact askingFrame_eq
      | submit | follow => exact called hj

end Router

end RespClient.Cluster
