import RespClient.Proofs.Cluster.Router.Script
import RespClient.Proofs.Cluster.System
import RespClient.Proofs.Connection.Replies

namespace RespClient.Cluster

open Router (SendTurn on mem_on submitted)

def Purpose.isCommand : Purpose → Bool
  | command | asked _ => true
  | _ => false

def Submission.isOf (id : TaskId) (x : Submission) : Bool := x.task == id

def Submission.isCommandOf (id : TaskId) (x : Submission) : Bool := x.isOf id && x.purpose.isCommand

/-- A failure that is no reply. -/
def Outcome.IsOwn (o : Outcome) : Prop := ∃ e, o = .error e ∧ e.replyText? = none

def Outcome.IsAsk (o : Outcome) : Prop := ∃ slot address, redirect? o = some (.ask slot address)

def last? (p : Submission → Bool) (xs : List Submission) : Option Submission := xs.reverse.find? p

/-- The last attempt of a task came to an `ASK`. -/
def AfterAsk (is : List Input) (xs : List Submission) (id : TaskId) : Prop :=
  ∃ x o, last? (Submission.isCommandOf id) xs = some x ∧ .reply x.claim o ∈ is ∧ Outcome.IsAsk o

/-- A task had no attempt yet, or its last one came to something else. -/
def AfterOther (is : List Input) (xs : List Submission) (id : TaskId) : Prop :=
  ∀ x, last? (Submission.isCommandOf id) xs = some x → ∃ o, .reply x.claim o ∈ is ∧ ¬ Outcome.IsAsk o

/-- The last frame of a task is an `ASKING` on connection `c` with claim `q`. -/
def AfterAsking (xs : List Submission) (id : TaskId) (c : ConnId) (q : Claim) : Prop :=
  ∃ y, last? (Submission.isOf id) xs = some y ∧ y.conn = c ∧ y.purpose = .asking ∧ y.claim = q

/-- What a command stands behind. -/
def Submission.Follows (is : List Input) (before : List Submission) (x : Submission) : Prop :=
  match x.purpose with
  | .command => AfterOther is before x.task
  | .asked q => AfterAsk is before x.task ∧ AfterAsking before x.task x.conn q
  | _ => True

/-- How far a command is with its frames at each stage. -/
def SendStage.Fits (is : List Input) (xs : List Submission) (id : TaskId) : SendStage → Prop
  | reaching _ _ true | submitAsking _ => AfterAsk is xs id
  | submitAsked c q => AfterAsk is xs id ∧ AfterAsking xs id c q
  | awaitingAsking c _ k | awaiting c k =>
    ∃ x, last? (Submission.isCommandOf id) xs = some x ∧ x.conn = c ∧ x.claim = k
  | _ => AfterOther is xs id

structure Asks (s : ClusterSettings) (is : List Input) (r : Router) (log : List Action) : Prop where
  stages : ∀ t ∈ r.tasks, ∀ s', t.job = .send s' → s'.stage.Fits is (submitted s is) t.id
  follows : ∀ before x after, submitted s is = before ++ x :: after → x.Follows is before
  bound : ∀ x ∈ submitted s is, x.task < r.next
  /-- A task that is over submits nothing any more. -/
  gone : ∀ id o, .finish id (.sent o) ∈ log → id < r.next ∧ ∀ t ∈ r.tasks, t.id ≠ id
  finished : ∀ id o, .finish id (.sent o) ∈ log → Outcome.IsOwn o ∨
    ∃ x, last? (Submission.isCommandOf id) (submitted s is) = some x ∧ .reply x.claim o ∈ is

variable {s : ClusterSettings} {is js : List Input} {i : Input} {r r' core : Router}
  {log acts : List Action} {xs : List Submission} {x y : Submission} {id : TaskId} {c : ConnId}
  {q : Claim} {p : Submission → Bool}

theorem last?_concat_pos (xs : List Submission) (h : p x = true) : last? p (xs ++ [x]) = some x := by
  simp [last?, h]

theorem last?_concat_neg (xs : List Submission) (h : p x = false) :
    last? p (xs ++ [x]) = last? p xs := by
  simp [last?, h]

theorem last?_eq_some (h : last? p xs = some x) :
    p x = true ∧ ∃ before after, xs = before ++ x :: after ∧ ∀ z ∈ after, p z = false := by
  obtain ⟨hp, front, back, hxs, hfront⟩ := List.find?_eq_some_iff_append.mp h
  refine ⟨hp, back.reverse, front.reverse, ?_, fun z hz => ?_⟩
  · rw [← List.reverse_reverse xs, hxs]
    simp
  · simpa using hfront z (List.mem_reverse.mp hz)

theorem mem_of_last? (h : last? p xs = some x) : x ∈ xs :=
  List.mem_reverse.mp (List.mem_of_find?_eq_some h)

/-- What a task that comes later submits is of no matter to those before. -/
theorem last?_eq_none (h : ∀ x ∈ xs, x.task < id) : last? (Submission.isCommandOf id) xs = none := by
  refine List.find?_eq_none.mpr fun x hx hp => ?_
  have hid : x.task = id := by
    simp only [Submission.isCommandOf, Submission.isOf, Bool.and_eq_true, beq_iff_eq] at hp
    exact hp.1
  exact Nat.lt_irrefl _ (hid ▸ h x (List.mem_reverse.mp hx))

theorem AfterAsk.mono (h : AfterAsk is xs id) : AfterAsk (is ++ js) xs id := by
  obtain ⟨x, o, hx, hr, ho⟩ := h
  exact ⟨x, o, hx, List.mem_append_left _ hr, ho⟩

theorem AfterOther.mono (h : AfterOther is xs id) : AfterOther (is ++ js) xs id := by
  intro x hx
  obtain ⟨o, hr, ho⟩ := h x hx
  exact ⟨o, List.mem_append_left _ hr, ho⟩

theorem Submission.Follows.mono (h : x.Follows is xs) : x.Follows (is ++ js) xs := by
  unfold Submission.Follows at h ⊢
  split
  next hp => rw [hp] at h; exact h.mono
  next hp => rw [hp] at h; exact ⟨h.1.mono, h.2⟩
  · trivial

theorem SendStage.Fits.mono {stage : SendStage} (h : stage.Fits is xs id) :
    stage.Fits (is ++ js) xs id := by
  cases stage with
  | reaching _ _ asking =>
    cases asking with
    | true => exact AfterAsk.mono h
    | false => exact AfterOther.mono h
  | submitAsking => exact AfterAsk.mono h
  | submitAsked => exact ⟨AfterAsk.mono h.1, h.2⟩
  | awaitingAsking | awaiting => exact h
  | route | submit | refreshing | resting => exact AfterOther.mono h

theorem SendStage.Fits.concat {stage : SendStage} (h : stage.Fits is xs id) (hx : x.task ≠ id) :
    stage.Fits is (xs ++ [x]) id := by
  have hof : x.isOf id = false := beq_false_of_ne hx
  have hcommand : x.isCommandOf id = false := by rw [Submission.isCommandOf, hof, Bool.false_and]
  have hsame : last? (Submission.isCommandOf id) (xs ++ [x]) = last? (Submission.isCommandOf id) xs :=
    last?_concat_neg xs hcommand
  have hask (h : AfterAsk is xs id) : AfterAsk is (xs ++ [x]) id := by rwa [AfterAsk, hsame]
  have hother (h : AfterOther is xs id) : AfterOther is (xs ++ [x]) id := by rwa [AfterOther, hsame]
  cases stage with
  | reaching _ _ asking =>
    cases asking with
    | true => exact hask h
    | false => exact hother h
  | submitAsking => exact hask h
  | submitAsked =>
    refine ⟨hask h.1, ?_⟩
    rw [AfterAsking, last?_concat_neg xs hof]
    exact h.2
  | awaitingAsking | awaiting =>
    simp only [SendStage.Fits, hsame]
    exact h
  | route | submit | refreshing | resting => exact hother h

theorem Router.SendTurn.asks {choice : Nat} {s s' : Sending} {fresh : List Job}
    (h : SendTurn r id choice s (some s') fresh core acts) (hs : s.stage.Fits is xs id)
    (hn : acts.filterMap Action.sent? = []) (hm : ∀ k o, r.mail? k = some o → .reply k o ∈ is) :
    s'.stage.Fits is xs id := by
  have other {c : ConnId} {k : Claim} {o : Outcome} (hstage : s.stage = .awaiting c k)
      (ho : r.mail? k = some o) (hr : ¬ Outcome.IsAsk o) : AfterOther is xs id := by
    rw [hstage] at hs
    obtain ⟨x, hx, -, rfl⟩ := hs
    intro y hy
    cases hx.symm.trans hy
    exact ⟨o, hm _ _ ho, hr⟩
  cases h with
  | submit | ask | follow => cases hn
  | route hstage | anywhere hstage | refreshed hstage => rw [hstage] at hs; exact hs
  | @reach _ _ asking _ hstage =>
    rw [hstage] at hs
    cases asking <;> exact hs
  | asked hstage => rw [hstage] at hs; exact hs
  | moved hstage ho hr =>
    refine other hstage ho ?_
    rintro ⟨slot, a, h⟩
    cases hr.symm.trans h
  | again hstage ho hr =>
    refine other hstage ho ?_
    rintro ⟨slot, a, h⟩
    rcases hr with hr | hr <;> cases hr.symm.trans h
  | shift hstage ho hr =>
    rw [hstage] at hs
    obtain ⟨x, hx, -, rfl⟩ := hs
    exact ⟨x, _, hx, hm _ _ ho, _, _, hr⟩

/-- A command that has just submitted a frame waits for that one. -/
theorem Job.Submits.asks {job : Job} {s' : Sending} (h : job.Submits x.claim x.toDraft (.send s'))
    (hs : ∀ s, job = .send s → s.stage.Fits is xs x.task) : s'.stage.Fits is (xs ++ [x]) x.task := by
  obtain ⟨⟨c, purpose, frame⟩, id, k⟩ := x
  have hof (d : Draft) : Submission.isOf id ⟨d, id, k⟩ = true := beq_self_eq_true id
  cases h with
  | submit | follow =>
    exact ⟨_, last?_concat_pos xs (by rw [Submission.isCommandOf, hof]; rfl), rfl, rfl⟩
  | ask hstage =>
    have hfit := hs _ rfl
    rw [hstage] at hfit
    refine ⟨?_, _, last?_concat_pos xs (hof _), rfl, rfl, rfl⟩
    rw [AfterAsk, last?_concat_neg xs (by rw [Submission.isCommandOf, hof]; rfl)]
    exact hfit

/-- A command that is submitted stands behind what its stage says. -/
theorem Job.Submits.follows {job job' : Job} (h : job.Submits x.claim x.toDraft job')
    (hs : ∀ s, job = .send s → s.stage.Fits is xs x.task) : x.Follows is xs := by
  obtain ⟨⟨c, purpose, frame⟩, id, k⟩ := x
  cases h with
  | greet | survey | ask => trivial
  | submit hstage | follow hstage =>
    have hfit := hs _ rfl
    rw [hstage] at hfit
    exact hfit

namespace Asks

theorem finished_mono (ha : Asks s is r log) {o : Outcome} (hf : .finish id (.sent o) ∈ log) :
    Outcome.IsOwn o ∨ ∃ x, last? (Submission.isCommandOf id) (submitted s is) = some x ∧
      .reply x.claim o ∈ is ++ js := by
  rcases ha.finished id o hf with ho | ⟨x, hx, hk⟩
  · exact .inl ho
  · exact .inr ⟨x, hx, List.mem_append_left _ hk⟩

variable (h : Router.Reaches s is r log) (ha : Asks s is r log)

include h ha

theorem gone_step (i : Input) {o : Outcome} (hf : .finish id (.sent o) ∈ log ++ (r.step i).2) :
    id < (r.step i).1.next ∧ ∀ t ∈ (r.step i).1.tasks, t.id ≠ id := by
  have hx := Router.step_event r i
  rcases List.mem_append.mp hf with hf | hf
  · obtain ⟨hlt, hne⟩ := ha.gone id o hf
    refine ⟨Nat.lt_of_lt_of_le hlt hx.next_le, fun u hu huid => ?_⟩
    obtain ⟨t, ht, hid⟩ := hx.exists_of_lt h.forest hu (huid ▸ hlt)
    exact hne t ht (hid.trans huid)
  · obtain ⟨hne, t, ht, rfl, -⟩ := hx.concludes h.forest h.dial_error hf
    exact ⟨Nat.lt_of_lt_of_le (h.forest.bound t ht) hx.next_le, hne⟩

/-- A step that submits something: only its task comes further. -/
theorem step_submit (hs : r.submits? i = some x) :
    Asks s (is ++ [i]) (r.step i).1 (log ++ (r.step i).2) := by
  obtain ⟨t, ht, choice, job, -, hid, hjob, -, -, hstep⟩ := Router.step_submits h.forest hs
  have hsub := h.submitted_of_some hs
  have hnext : r.next ≤ (r.step i).1.next := (Router.step_event r i).next_le
  have hstage (s' : Sending) (hj : t.job = .send s') : s'.stage.Fits is (submitted s is) x.task :=
    hid ▸ ha.stages t ht s' hj
  refine ⟨fun u hu s' hj => ?_, fun before y after hxs => ?_, ?_,
    fun id o hf => ha.gone_step h i hf, fun id o hf => ?_⟩
  · rw [hsub]
    rcases Router.submits_cases h.forest hs hu with ⟨v, hv, hvu, hux, hjob⟩ | ⟨hu, hne⟩
    · rw [hj] at hjob
      rw [hux]
      exact (hjob.asks fun s'' hj' => hux ▸ hvu ▸ ha.stages v hv s'' hj').mono
    · exact (ha.stages u hu s' hj).mono.concat (Ne.symm hne)
  · rw [hsub] at hxs
    rcases List.eq_nil_or_concat after with rfl | ⟨after, z, rfl⟩
    · obtain ⟨rfl, hy⟩ := List.append_inj' hxs rfl
      cases hy
      exact (hjob.follows hstage).mono
    · rw [List.concat_eq_append, ← List.cons_append, ← List.append_assoc] at hxs
      exact (ha.follows before y after (List.append_inj' hxs rfl).1).mono
  · rw [hsub]
    refine List.forall_mem_append.mpr ⟨fun y hy => Nat.lt_of_lt_of_le (ha.bound y hy) hnext, ?_⟩
    exact List.forall_mem_singleton.mpr (Nat.lt_of_lt_of_le (hid ▸ h.forest.bound t ht) hnext)
  · have hold : .finish id (.sent o) ∈ log := by simpa [hstep] using hf
    have hne : x.task ≠ id := hid ▸ (ha.gone id o hold).2 t ht
    rw [hsub, last?_concat_neg _ (by simp [Submission.isCommandOf, Submission.isOf, hne])]
    exact ha.finished_mono hold

/-- A step that submits nothing: a command goes on, or is over, or is new. -/
theorem step_quiet (hs : r.submits? i = none) :
    Asks s (is ++ [i]) (r.step i).1 (log ++ (r.step i).2) := by
  have hx := Router.step_event r i
  have hsent : (r.step i).2.filterMap Action.sent? = [] := by rw [Router.step_sent h.forest, hs]; rfl
  have hsub := h.submitted_of_none hs
  refine ⟨fun u hu s' hj => ?_, fun before x after hxs => ?_, fun x hmem => ?_,
    fun id o hf => ha.gone_step h i hf, fun id o hf => ?_⟩
  · rw [hsub]
    refine SendStage.Fits.mono ?_
    rcases hx.send_cases h.forest hu hj with
      hu | ⟨t, ht, hid, s'', choice, fresh, core, hj', hx⟩ | ⟨t, ht, hid, s'', c, hj', hstage, rfl⟩ |
        ⟨command, -, hid, hs⟩
    · exact ha.stages u hu s' hj
    · rw [hid] at hx
      exact hx.asks (hid ▸ ha.stages t ht s'' hj') hsent fun k o hm => h.mail (Router.mem_of_mail? hm)
    · have hfit := ha.stages t ht s'' hj'
      rw [hstage, hid] at hfit
      exact hfit
    · cases hs
      have hnone := last?_eq_none (hid ▸ ha.bound)
      intro x hx
      cases hnone.symm.trans hx
  · exact (ha.follows before x after (hsub ▸ hxs)).mono
  · exact Nat.lt_of_lt_of_le (ha.bound x (hsub ▸ hmem)) hx.next_le
  · rw [hsub]
    rcases List.mem_append.mp hf with hf | hf
    · exact ha.finished_mono hf
    · obtain ⟨-, t, ht, rfl, s', hj, how | ⟨c, k, hstage, hm⟩⟩ :=
        hx.concludes h.forest h.dial_error hf
      · exact .inl how
      · have hfit := ha.stages t ht s' hj
        rw [hstage] at hfit
        obtain ⟨x, hx, -, rfl⟩ := hfit
        exact .inr ⟨x, hx, List.mem_append_left _ (h.mail (Router.mem_of_mail? hm))⟩

end Asks

theorem Router.Reaches.asks (h : Router.Reaches s is r log) : Asks s is r log := by
  induction h with
  | start => exact ⟨nofun, fun before => by cases before <;> nofun, nofun, nofun, nofun⟩
  | @step is r log i h _ ih =>
    cases hs : r.submits? i with
    | none => exact ih.step_quiet h hs
    | some x => exact ih.step_submit h hs

namespace System

open Connection (completions tickets)
open Connection.Worker (Causal read)

variable {S : System} {o o' : Outcome}

/-- On its connection an `ASKING` stands before its command, with frames of other tasks in between. -/
theorem asking_on {before after : List Submission}
    (hf : ∀ before x after, xs = before ++ x :: after → x.Follows is before)
    (hxs : on c xs = before ++ x :: after) (hq : x.purpose = .asked q) :
    ∃ front y between, before = front ++ y :: between ∧ y.task = x.task ∧ y.purpose = .asking ∧
      y.claim = q ∧ ∀ z ∈ between, z.task ≠ x.task := by
  obtain ⟨front, back, hall, rfl, hc⟩ := Router.exists_of_on hxs
  have hfollows := hf front x back hall
  rw [Submission.Follows, hq] at hfollows
  obtain ⟨-, y, hy, hyc, hpurpose, hclaim⟩ := hfollows
  obtain ⟨hid, front, between, rfl, hbetween⟩ := last?_eq_some hy
  refine ⟨on c front, y, on c between, ?_, beq_iff_eq.mp hid, hpurpose, hclaim, fun z hz => ?_⟩
  · simp [on, hyc, hc]
  · simpa [Submission.isOf] using hbetween z (mem_on.mp hz).1

theorem Sound.outcome_unique (h : Sound s is S log) (hx : x ∈ submitted s is)
    (ho : .reply x.claim o ∈ is) (ho' : .reply x.claim o' ∈ is) : o = o' := by
  have hclaims : (tickets (S.line x.conn).requests).Nodup := by
    rw [tickets, h.frames, List.map_map]
    exact (List.Pairwise.sublist (List.filter_sublist.map _) h.router.claims.1).imp Nat.ne_of_lt
  have hnodup := (Connection.Worker.balance_journal _).nodup_iff.mp hclaims
  have heq := List.inj_on_of_nodup_map (List.nodup_append.mp hnodup).1 (h.completed hx ho)
    (h.completed hx ho') rfl
  exact congrArg Prod.snd heq

/-- A frame of a command stands behind an `ASKING` if and only if the attempt before it came to an
`ASK`. -/
theorem Sound.asked_iff (h : Sound s is S log) {before after : List Submission}
    (hxs : submitted s is = before ++ x :: after) (hx : x.purpose.isCommand = true) :
    (∃ q, x.purpose = .asked q) ↔ AfterAsk is before x.task := by
  have hfollows := h.router.asks.follows before x after hxs
  unfold Submission.Follows at hfollows
  cases hp : x.purpose with
  | asked q =>
    rw [hp] at hfollows
    exact ⟨fun _ => hfollows.1, fun _ => ⟨q, rfl⟩⟩
  | command =>
    rw [hp] at hfollows
    refine ⟨nofun, fun ⟨y, o, hy, ho, hask⟩ => ?_⟩
    obtain ⟨o', ho', hother⟩ := hfollows y hy
    have hmem : y ∈ submitted s is := hxs ▸ List.mem_append_left _ (mem_of_last? hy)
    exact absurd (h.outcome_unique hmem ho ho' ▸ hask) hother
  | greeting | slots | asking => rw [hp] at hx; cases hx

/-- Against a server that answers only what it was sent, a submission gets the reply in its place. -/
theorem Sound.reply_in_place (h : Sound s is S log) (hx : x ∈ submitted s is)
    (ho : .reply x.claim o ∈ is) (hne : o ≠ .error .connectionClosed)
    (hc : Causal (S.lines x.conn)) : ∃ (n : Nat) (reply : Reply),
      (on x.conn (submitted s is))[n]? = some x ∧
      (Reply.decoded (read (S.lines x.conn)))[n]? = some reply ∧ o = .ofReply reply := by
  obtain ⟨n, frame, reply, hn, hreply, rfl⟩ :=
    Connection.Worker.reply_in_place hc (h.completed hx ho) hne
  refine ⟨n, reply, ?_, hreply, rfl⟩
  change (Connection.commands (S.line x.conn).requests)[n]? = _ at hn
  rw [h.frames, List.getElem?_map] at hn
  obtain ⟨y, hy, he⟩ := Option.map_eq_some_iff.mp hn
  have hmem := (mem_on.mp (List.mem_of_getElem? hy)).1
  rw [hy, h.router.eq_of_claim hmem hx (congrArg Prod.fst he)]

/-- `ASKING` and its command. Every frame has its purpose and a claim of its own. The frame of a command
stands behind an `ASKING` if and only if the attempt of its task before came to an `ASK`. The bytes on
the wire of a connection are the first frames submitted on it; there the `ASKING` stands before its
command, from the same task, and what is in between is from other tasks. A caller gets a failure of the
client's own, or what came of the last frame of its command and never of an `ASKING`. If the server
answers only what was written, this is the reply in the place of that frame. -/
theorem asked_in_order (h : Reaches s is S log) :
    (∀ x ∈ submitted s is, x.Fits s is) ∧ ((submitted s is).map (·.claim)).Nodup ∧
    (∀ before x after, submitted s is = before ++ x :: after → x.purpose.isCommand = true →
      ((∃ q, x.purpose = .asked q) ↔ AfterAsk is before x.task)) ∧
    (∀ c, (S.line c).written <+: (on c (submitted s is)).map request ∧
      Connection.sent (S.line c).effects = (S.line c).written.flatMap Prod.snd ∧
      ∀ before x after q, on c (submitted s is) = before ++ x :: after → x.purpose = .asked q →
        ∃ front y between, before = front ++ y :: between ∧ y.task = x.task ∧ y.purpose = .asking ∧
          y.claim = q ∧ ∀ z ∈ between, z.task ≠ x.task) ∧
    ∀ id, ∀ o ∈ Router.returned id log, Outcome.IsOwn o ∨
      ∃ x, last? (Submission.isCommandOf id) (submitted s is) = some x ∧
        (x.claim, o) ∈ completions (S.line x.conn).effects ∧
        (Causal (S.lines x.conn) → ∃ (n : Nat) (reply : Reply),
          (on x.conn (submitted s is))[n]? = some x ∧
          (Reply.decoded (read (S.lines x.conn)))[n]? = some reply ∧ o = .ofReply reply) := by
  have hs := h.sound
  have ha := hs.router.asks
  refine ⟨hs.router.fits, hs.router.claims.1.imp Nat.ne_of_lt,
    fun before x after hxs hx => hs.asked_iff hxs hx, fun c => ⟨hs.written c,
      Connection.Worker.sent_journal _, fun before x after q hxs hq => asking_on ha.follows hxs hq⟩,
    fun id o hf => ?_⟩
  by_cases ho : Outcome.IsOwn o
  · exact .inl ho
  · obtain ⟨x, hx, hk⟩ := (ha.finished id o (Router.mem_returned.mp hf)).resolve_left ho
    have hmem := mem_of_last? hx
    have hne : o ≠ .error .connectionClosed := fun he => ho ⟨_, he, rfl⟩
    exact .inr ⟨x, hx, hs.completed hmem hk, hs.reply_in_place hmem hk hne⟩

/-- Two nodes are pooled. A command goes to the first one, which sends it on to the second one with an
`ASK`, and the `ASKING` is submitted there. -/
def diverted : List Happening :=
  [.input .opening, .input (.step 0 0), .input (.step 1 0), .input (.dialed 1 (.ok 0)),
    .input (.step 1 0), .input (.step 1 0), .input (.step 1 0), .input (.step 2 0),
    .input (.dialed 2 (.ok 1)), .input (.step 2 0), .input (.step 2 0), .input (.step 2 0),
    .input (.step 0 0), .input (.step 3 0), .input (.step 3 0), .input (.step 3 0),
    .input (.step 3 0), .move 0 (.advance true), .move 0 (.advance true), .move 0 (.wrote none),
    .move 0 (.received [42, 48, 13, 10]), .deliver 0 0, .input (.step 3 0), .input (.step 3 0),
    .input (.step 3 0), .input (.step 3 0), .input (.step 0 0),
    .input (.send (Command.ofName "PING")), .input (.step 5 0), .input (.step 5 0),
    .move 0 (.advance true), .move 0 (.advance true), .move 0 (.wrote none),
    .move 0 (.received [45, 65, 83, 75, 32, 53, 32, 98, 58, 50, 13, 10]), .deliver 0 1,
    .input (.step 5 0), .input (.step 7 0), .input (.step 5 0), .input (.step 5 0)]

/-- Another caller's `TIME` gets in between. The server answers `+OK`, `+T` and `+V`. -/
def overtaken : List Happening := diverted ++
  [.input (.send (Command.ofName "TIME")), .input (.step 9 1), .input (.step 9 0),
    .input (.step 5 0), .move 1 (.advance true), .move 1 (.advance true), .move 1 (.advance true),
    .move 1 (.advance true), .move 1 (.wrote none),
    .move 1 (.received [43, 79, 75, 13, 10, 43, 84, 13, 10, 43, 86, 13, 10]), .deliver 1 0,
    .deliver 1 1, .deliver 1 2, .input (.step 5 0), .input (.step 5 0), .input (.step 9 0)]

/-- The server pushes `*0`, and then answers `+OK` and `+V`. -/
def pushed : List Happening := diverted ++
  [.input (.step 5 0), .move 1 (.advance true), .move 1 (.advance true), .move 1 (.advance true),
    .move 1 (.wrote none),
    .move 1 (.received [42, 48, 13, 10, 43, 79, 75, 13, 10, 43, 86, 13, 10]), .deliver 1 0,
    .deliver 1 1, .input (.step 5 0), .input (.step 5 0)]

def shared : ClusterSettings := { seeds := ["a:1", "b:2"] }

theorem reaches_overtaken :
    let start : System := { router := { settings := shared } }
    Reaches shared (start.inputs overtaken) (start.run overtaken).1 (start.run overtaken).2 :=
  Reaches.start.run overtaken (by decide +kernel)

def statusOf : Outcome → Option String
  | .ok reply => reply.status?
  | .error _ => none

/-- With another frame in between the caller still gets the reply to its own one. -/
theorem asked_in_order_overtaken :
    let start : System := { router := { settings := shared } }
    let S := (start.run overtaken).1
    let xs := submitted shared (start.inputs overtaken)
    ∃ o ∈ Router.returned 5 (start.run overtaken).2, statusOf o = some "V" ∧
      ∃ (x : Submission) (n : Nat) (reply : Reply), (on 1 xs)[n]? = some x ∧ x.purpose = .asked 8 ∧
        (Reply.decoded (read (S.lines 1)))[n]? = some reply ∧ o = .ofReply reply := by
  intro start S xs
  have hret : (Router.returned 5 (start.run overtaken).2).map statusOf = [some "V"] := by
    decide +kernel
  obtain ⟨o, ho, hstatus⟩ := List.mem_map.mp (hret ▸ List.mem_singleton_self (some "V"))
  have hlast : last? (Submission.isCommandOf 5) xs =
      some ⟨⟨1, .asked 8, (Command.ofName "PING").encode .emptyBulk⟩, 5, 11⟩ := by decide +kernel
  have hcausal : Causal (S.lines 1) := by
    intro p hp
    have hall : ∀ p ∈ (S.lines 1).inits, (Reply.decoded (read p)).length ≤
        (Connection.Worker.journal p).written.length := by
      decide +kernel
    exact hall p ((List.mem_inits p _).mpr hp)
  obtain ⟨-, -, -, -, hfinish⟩ := asked_in_order reaches_overtaken
  rcases hfinish 5 o ho with ⟨e, rfl, -⟩ | ⟨x, hx, -, hplace⟩
  · cases hstatus
  · cases hlast.symm.trans hx
    obtain ⟨n, reply, hn, hreply, hor⟩ := hplace hcausal
    exact ⟨o, ho, hstatus, _, n, reply, hn, rfl, hreply, hor⟩

/-- A frame of another task may get between `ASKING` and its command on the wire. And against a server
that pushes a reply, the caller gets what `ASKING` was answered. -/
theorem asking_interrupted :
    (∃ is S log, Reaches shared is S log ∧ ∃ y z x, on 1 (submitted shared is) = [y, z, x] ∧
      (S.line 1).written = [request y, request z, request x] ∧ y.purpose = .asking ∧
      x.purpose = .asked y.claim ∧ x.task = y.task ∧ z.task ≠ x.task) ∧
    ∃ is S log, Reaches shared is S log ∧ ∃ y x, on 1 (submitted shared is) = [y, x] ∧
      y.purpose = .asking ∧ x.purpose = .asked y.claim ∧
      (Reply.decoded (read (S.lines 1))).map Reply.status? = [none, some "OK", some "V"] ∧
      (Router.returned x.task log).map statusOf = [some "OK"] := by
  let start : System := { router := { settings := shared } }
  have hpushed : Reaches shared (start.inputs pushed) (start.run pushed).1 _ :=
    Reaches.start.run pushed (by decide +kernel)
  let ping : Bytes := (Command.ofName "PING").encode .emptyBulk
  let time : Bytes := (Command.ofName "TIME").encode .emptyBulk
  refine ⟨⟨_, _, _, reaches_overtaken, ⟨⟨1, .asking, Router.askingFrame⟩, 5, 8⟩,
    ⟨⟨1, .command, time⟩, 9, 10⟩, ⟨⟨1, .asked 8, ping⟩, 5, 11⟩, by decide +kernel,
    by decide +kernel, rfl, rfl, rfl, by decide⟩,
    ⟨_, _, _, hpushed, ⟨⟨1, .asking, Router.askingFrame⟩, 5, 8⟩, ⟨⟨1, .asked 8, ping⟩, 5, 9⟩,
    by decide +kernel, rfl, rfl, by decide +kernel, by decide +kernel⟩⟩

end System

end RespClient.Cluster
