import RespClient.Proofs.Cluster.Router.Script
import RespClient.Proofs.Cluster.System

namespace RespClient.Cluster

open Router (Forest Custody Event DialTurn Turn on on_append mem_on on_eq_nil submitted)

/-- The first frame on a connection is the router's `READONLY`, which came to an outcome other than that
the connection was closed, and there is no other one. -/
def Greeted (is : List Input) (xs : List Submission) (c : ConnId) : Prop :=
  ∃ x rest o, on c xs = x :: rest ∧ x.purpose = .greeting ∧ (∀ y ∈ rest, y.purpose ≠ .greeting) ∧
    .reply x.claim o ∈ is ∧ o ≠ .error .connectionClosed

/-- How far the greeting is at each stage of a dial. -/
def DialStage.Fits (is : List Input) (xs : List Submission) (down : List ConnId) : DialStage → Prop
  | opened c | guarded c | greet c => on c xs = []
  | greeting c k => ∃ x, on c xs = [x] ∧ x.purpose = .greeting ∧ x.claim = k
  | join c | surplus c _ => c ∈ down ∨ Greeted is xs c
  | _ => True

structure Greets (r : Router) (is : List Input) (xs : List Submission) : Prop where
  dials : ∀ t ∈ r.tasks, ∀ a stage, t.job = .dial a stage → stage.Fits is xs r.down
  pool : ∀ e ∈ r.pool, Greeted is xs e.2
  borrowed : ∀ t ∈ r.tasks, ∀ c ∈ t.job.borrows, Greeted is xs c
  /-- A connection that nobody has either ended before the greeting was answered, or it was greeted. -/
  others : ∀ c, on c xs = [] ∨ (∃ x, on c xs = [x] ∧ x.purpose = .greeting) ∨ Greeted is xs c

variable {s : ClusterSettings} {is js : List Input} {i : Input} {r r' core : Router}
  {log acts : List Action} {xs ys : List Submission} {c : ConnId} {x : Submission}

theorem Greeted.append (h : Greeted is xs c)
    (hy : ∀ y ∈ ys, y.conn = c → y.purpose ≠ .greeting) : Greeted (is ++ js) (xs ++ ys) c := by
  obtain ⟨x, rest, o, hon, hp, hrest, hr, ho⟩ := h
  refine ⟨x, rest ++ on c ys, o, by rw [on_append, hon]; rfl, hp, ?_, List.mem_append_left _ hr, ho⟩
  refine List.forall_mem_append.mpr ⟨hrest, fun y hmem => ?_⟩
  obtain ⟨hmem, hc⟩ := mem_on.mp hmem
  exact hy y hmem hc

/-- What others submit, and what comes in, leaves a dial where it is. -/
theorem DialStage.Fits.append {stage : DialStage} {down down' : List ConnId}
    (h : stage.Fits is xs down) (hd : ∀ c ∈ down, c ∈ down')
    (hy : ∀ c, stage.own? = some c → ∀ y ∈ ys, y.conn ≠ c) :
    stage.Fits (is ++ js) (xs ++ ys) down' := by
  have same {c : ConnId} (hc : stage.own? = some c) : on c (xs ++ ys) = on c xs := by
    rw [on_append, on_eq_nil (hy c hc), List.append_nil]
  cases stage with
  | opened c | guarded c | greet c => exact (same rfl).trans h
  | greeting c k =>
    obtain ⟨x, hx, h⟩ := h
    exact ⟨x, (same rfl).trans hx, h⟩
  | join c | surplus c winner =>
    exact h.imp (hd c) fun hg => hg.append fun y hmem hc => absurd hc (hy c rfl y hmem)
  | seek | calling | done => trivial

theorem Router.DialTurn.fits {id : TaskId} {a : String} {stage stage' : DialStage}
    (h : DialTurn r id a stage stage' core acts) (hs : stage.Fits is xs r.down)
    (hp : r.settings.replicas ≠ .never) (hn : acts.filterMap Action.sent? = [])
    (hm : ∀ k o, r.mail? k = some o → .reply k o ∈ is)
    (href : ∀ x ∈ xs, .reply x.claim (.error .connectionClosed) ∈ is → x.conn ∈ r.down) :
    stage'.Fits is xs r.down := by
  have greeted {c : ConnId} {k : Claim} {o : Outcome}
      (hs : ∃ x, on c xs = [x] ∧ x.purpose = .greeting ∧ x.claim = k) (ho : r.mail? k = some o) :
      c ∈ r.down ∨ Greeted is xs c := by
    obtain ⟨x, hx, hpurpose, rfl⟩ := hs
    have hr := hm _ _ ho
    by_cases hc : o = .error .connectionClosed
    · subst hc
      obtain ⟨hmem, hxc⟩ := mem_on.mp (hx ▸ List.mem_singleton_self x : x ∈ on c xs)
      exact .inl (hxc ▸ href x hmem hr)
    · exact .inr ⟨x, [], o, hx, hpurpose, nofun, hr, hc⟩
  cases h with
  | found | call | late | join | yield => trivial
  | watch => exact hs
  | guard => rw [if_neg hp]; exact hs
  | mute hc => exact .inl (Router.isDown_iff.mp hc)
  | greet => cases hn
  | greeted ho | rebuffed ho => exact greeted hs ho
  | beaten => exact hs

theorem Router.DialTurn.not_greet {id : TaskId} {a : String} {stage stage' : DialStage}
    (h : DialTurn r id a stage stage' core acts) (hp : r.settings.replicas = .never) :
    stage' ≠ .greet c := by
  cases h with
  | guard => rw [if_pos hp]; nofun
  | _ => nofun

theorem Router.Reaches.ungreeted (h : Router.Reaches s is r log) (hp : s.replicas = .never) :
    (∀ t ∈ r.tasks, ∀ a c, t.job ≠ .dial a (.greet c)) ∧
      ∀ x ∈ submitted s is, x.purpose ≠ .greeting := by
  induction h with
  | start => exact ⟨nofun, nofun⟩
  | @step is r log i h _ ih =>
    constructor
    · intro u hu a c hj
      rcases (Router.step_event r i).dial_cases h.forest hu hj with
        hu | ⟨t, -, stage, core, -, hx⟩ | ⟨c', -, hs⟩ | ⟨e, -, hs, -⟩ | hs
      · exact ih.1 u hu a c hj
      · exact hx.not_greet (h.settings.symm ▸ hp) rfl
      · cases hs
      · cases hs
      · cases hs
    · rw [h.submitted_concat]
      intro x hx hpurpose
      rcases List.mem_append.mp hx with hx | hx
      · exact ih.2 x hx hpurpose
      · obtain ⟨t, ht, choice, job, -, -, hjob, -⟩ :=
          Router.step_submits h.forest (Option.mem_toList.mp hx)
        rcases hjob.uses with ⟨-, a, hj⟩ | ⟨hne, -⟩
        · exact ih.1 t ht a _ hj
        · exact hne hpurpose

namespace Greets

variable (h : Router.Reaches s is r log) (hg : Greets r is (submitted s is))

include h hg

/-- A greeting goes to a connection with nothing on it, anything else to one that was greeted. -/
theorem submits (hs : r.submits? i = some x) :
    x.purpose = .greeting ∧ on x.conn (submitted s is) = [] ∨
      x.purpose ≠ .greeting ∧ Greeted is (submitted s is) x.conn := by
  obtain ⟨t, ht, choice, job, -, -, hjob, -⟩ := Router.step_submits h.forest hs
  rcases hjob.uses with ⟨hp, a, hj⟩ | ⟨hp, hb⟩
  · exact .inl ⟨hp, hg.dials t ht a _ hj⟩
  · exact .inr ⟨hp, hg.borrowed t ht _ hb⟩

theorem keeps (i : Input) (hc : Greeted is (submitted s is) c) :
    Greeted (is ++ [i]) (submitted s (is ++ [i])) c := by
  rw [h.submitted_concat]
  refine hc.append fun y hy hyc => ?_
  rcases hg.submits h (Option.mem_toList.mp hy) with ⟨-, hnil⟩ | ⟨hp, -⟩
  · obtain ⟨x, rest, o, hon, -⟩ := hc
    rw [hyc, hon] at hnil
    cases hnil
  · exact hp

theorem others_step (i : Input) (c : ConnId) :
    on c (submitted s (is ++ [i])) = [] ∨
      (∃ x, on c (submitted s (is ++ [i])) = [x] ∧ x.purpose = .greeting) ∨
      Greeted (is ++ [i]) (submitted s (is ++ [i])) c := by
  by_cases hy : ∃ y, r.submits? i = some y ∧ y.conn = c
  · obtain ⟨y, hy, rfl⟩ := hy
    rcases hg.submits h hy with ⟨hp, hnil⟩ | ⟨-, hc⟩
    · refine .inr (.inl ⟨y, ?_, hp⟩)
      rw [h.submitted_concat, on_append, hnil, hy]
      simp [on]
    · exact .inr (.inr (hg.keeps h i hc))
  · have hnil : on c (r.submits? i).toList = [] :=
      on_eq_nil fun y hmem hc => hy ⟨y, Option.mem_toList.mp hmem, hc⟩
    have same : on c (submitted s (is ++ [i])) = on c (submitted s is) := by
      rw [h.submitted_concat, on_append, hnil, List.append_nil]
    rw [same]
    exact (hg.others c).imp_right fun ho => ho.imp_right fun hc => hg.keeps h i hc

theorem pool_step (i : Input) {e : String × ConnId} (he : e ∈ (r.step i).1.pool) :
    Greeted (is ++ [i]) (submitted s (is ++ [i])) e.2 := by
  rcases (Router.step_event r i).joins h.forest h.custody.keys he with he | ⟨t, ht, -, hj, hd⟩
  · exact hg.keeps h i (hg.pool e he)
  · exact hg.keeps h i ((hg.dials t ht _ _ hj).resolve_left hd)

theorem borrowed_step (hi : r.Admits i) {u : Task} (hu : u ∈ (r.step i).1.tasks)
    (hc : c ∈ u.job.borrows) : Greeted (is ++ [i]) (submitted s (is ++ [i])) c := by
  have hx := h.custody.handover h.forest hi (Router.step_event r i)
  rcases hx.borrows u hu c hc with ⟨t, ht, hb⟩ | ⟨a, hp | hp⟩
  · exact hg.keeps h i (hg.borrowed t ht c hb)
  · exact hg.keeps h i (hg.pool _ hp)
  · exact hg.pool_step h i hp

/-- A step that submits something leaves the dials of others alone. -/
theorem dials_submit (hs : r.submits? i = some x) {u : Task} (hu : u ∈ (r.step i).1.tasks)
    {a : String} {stage : DialStage} (hj : u.job = .dial a stage) :
    stage.Fits (is ++ [i]) (submitted s (is ++ [i])) (r.step i).1.down := by
  rw [h.submitted_of_some hs]
  rcases Router.submits_cases h.forest hs hu with ⟨t, ht, -, -, hjob⟩ | ⟨hu, hne⟩
  · -- The task that submits is a dial: it has greeted its connection.
    rw [hj] at hjob
    generalize hold : t.job = old at hjob
    obtain ⟨⟨c, purpose, frame⟩, id, k⟩ := x
    cases hjob with
    | greet =>
      have hnil : on c (submitted s is) = [] := hg.dials t ht _ _ hold
      refine ⟨⟨⟨c, .greeting, _⟩, id, k⟩, ?_, rfl, rfl⟩
      rw [on_append, hnil]
      simp [on]
  · obtain ⟨t, ht, choice, job, -, hid, hjob, -, -, hstep⟩ := Router.step_submits h.forest hs
    have hdown : ∀ c ∈ r.down, c ∈ (r.step i).1.down := fun c hc => hstep ▸ hc
    refine (hg.dials u hu a stage hj).append hdown fun c hc y hy hyc => ?_
    obtain rfl := List.mem_singleton.mp hy
    have hown : u.job.own? = some (a, c) := by
      rw [hj]
      simp [Job.own?, hc]
    rcases hjob.uses with ⟨-, a', hj'⟩ | ⟨-, hb⟩
    · have heq := h.custody.single u hu _ hown t ht (a', y.conn) (by rw [hj']; rfl) hyc.symm
      exact hne (heq ▸ hid)
    · exact h.custody.unshared u hu _ hown t ht (hyc ▸ hb)

/-- A step that submits nothing: a dial goes on, or a connection is new. -/
theorem dials_quiet (hi : r.Admits i) (hp : s.replicas ≠ .never)
    (href : ∀ x ∈ submitted s is, .reply x.claim (.error .connectionClosed) ∈ is → x.conn ∈ r.down)
    (hs : r.submits? i = none) {u : Task} (hu : u ∈ (r.step i).1.tasks) {a : String}
    {stage : DialStage} (hj : u.job = .dial a stage) :
    stage.Fits (is ++ [i]) (submitted s (is ++ [i])) (r.step i).1.down := by
  have hx := Router.step_event r i
  have hdown := (h.custody.handover h.forest hi hx).down
  have hsent : (r.step i).2.filterMap Action.sent? = [] := by rw [Router.step_sent h.forest, hs]; rfl
  have hsub := h.submitted_of_none hs
  have grow {stage : DialStage} (hf : stage.Fits is (submitted s is) r.down) :
      stage.Fits (is ++ [i]) (submitted s (is ++ [i])) (r.step i).1.down := by
    have hgrown : stage.Fits (is ++ [i]) (submitted s is ++ []) (r.step i).1.down :=
      hf.append hdown fun _ _ => nofun
    rwa [hsub, ← List.append_nil (submitted s is)]
  rcases hx.dial_cases h.forest hu hj with
    hu | ⟨t, ht, stage', core, hj', hx⟩ | ⟨c, rfl, rfl⟩ | ⟨e, -, rfl, -⟩ | rfl
  · exact grow (hg.dials u hu a stage hj)
  · have hset : r.settings.replicas ≠ .never := h.settings ▸ hp
    exact grow (hx.fits (hg.dials t ht a _ hj') hset hsent
      (fun k o hm => h.mail (Router.mem_of_mail? hm)) href)
  · -- A connection that was just opened is a new one.
    refine grow (on_eq_nil fun x hx hc => hi ?_)
    exact hc ▸ (h.claims.2 x hx).2
  · trivial
  · trivial

theorem step (hi : r.Admits i) (hp : s.replicas ≠ .never)
    (href : ∀ x ∈ submitted s is, .reply x.claim (.error .connectionClosed) ∈ is → x.conn ∈ r.down) :
    Greets (r.step i).1 (is ++ [i]) (submitted s (is ++ [i])) where
  dials u hu a stage hj := by
    cases hs : r.submits? i with
    | none => exact hg.dials_quiet h hi hp href hs hu hj
    | some x => exact hg.dials_submit h hs hu hj
  pool e he := hg.pool_step h i he
  borrowed u hu c hc := hg.borrowed_step h hi hu hc
  others c := hg.others_step h i c

end Greets

namespace System

open Connection (completions)

variable {S : System}

def EverPooled (s : ClusterSettings) (is : List Input) (c : ConnId) : Prop :=
  ∃ before, before <+: is ∧ c ∈ (Router.after s before).pool.map (·.2)

/-- The claim of a submission got a reply, be it an error. -/
def Answered (S : System) (x : Submission) : Prop :=
  ∃ reply, (x.claim, Outcome.ofReply reply) ∈ completions (S.line x.conn).effects

theorem Reaches.greets (h : Reaches s is S log) (hp : s.replicas ≠ .never) :
    Greets S.router is (submitted s is) ∧
      ∀ c, EverPooled s is c → Greeted is (submitted s is) c := by
  induction h with
  | start =>
    refine ⟨⟨nofun, nofun, nofun, fun _ => .inl rfl⟩, ?_⟩
    rintro c ⟨before, hb, hc⟩
    obtain rfl := List.prefix_nil.mp hb
    cases hc
  | @step is S log x h hx ih =>
    have hs := h.sound
    have hadmits := hs.admits hx
    simp only [System.step]
    cases hn : S.news? x with
    | none => simpa [Router.run] using ih
    | some i =>
      rw [hn] at hadmits
      have hg := ih.1.step hs.router hadmits.1 hp fun x hx hk => hs.down_of_refused hx hk
      refine ⟨hg, ?_⟩
      rintro c ⟨before, hb, hc⟩
      rcases List.prefix_concat_iff.mp hb with rfl | hb
      · rw [Router.after_concat, ← hs.router.eq_after] at hc
        obtain ⟨e, he, rfl⟩ := List.mem_map.mp hc
        exact hg.pool e he
      · exact ih.1.keeps hs.router i (ih.2 c ⟨before, hb, hc⟩)

/-- A claim whose outcome came in got a reply if it was not refused, and its frame was written. -/
theorem Sound.answered {o : Outcome} (h : Sound s is S log) (hx : x ∈ submitted s is)
    (hk : .reply x.claim o ∈ is) (ho : o ≠ .error .connectionClosed) :
    Answered S x ∧ (S.line x.conn).written ≠ [] := by
  have hc := h.completed hx hk
  obtain ⟨⟨reply, rfl⟩, hw⟩ := Connection.Worker.replied_of_completed hc ho
  exact ⟨⟨reply, hc⟩, fun hnil => List.ne_nil_of_mem hw (congrArg (List.map Prod.fst) hnil)⟩

theorem Sound.greeted (h : Sound s is S log) (hc : Greeted is (submitted s is) c) :
    ∃ x rest, on c (submitted s is) = x :: rest ∧ x.purpose = .greeting ∧
      (∀ y ∈ rest, y.purpose ≠ .greeting) ∧ Answered S x ∧ (S.line c).written ≠ [] := by
  obtain ⟨x, rest, o, hon, hp, hrest, hk, ho⟩ := hc
  obtain ⟨hmem, rfl⟩ := mem_on.mp (hon ▸ List.mem_cons_self : x ∈ on c (submitted s is))
  exact ⟨x, rest, hon, hp, hrest, h.answered hmem hk ho⟩

theorem readonly_ne :
    Bytes.ofText "*2\r\n$7\r\nCLUSTER\r\n$5\r\nSLOTS\r\n" ≠ Bytes.ofText "*1\r\n$8\r\nREADONLY\r\n" ∧
    Bytes.ofText "*1\r\n$6\r\nASKING\r\n" ≠ Bytes.ofText "*1\r\n$8\r\nREADONLY\r\n" := by decide

/-- `READONLY` comes first. The bytes on the wire of a connection are the first frames submitted on it,
and each of these has its purpose. With policy `never` the router has no `READONLY` of its own on any
connection, and such a frame is that of a caller's command. With any other policy, whatever goes to a
connection stands behind a `READONLY` of the router, which is the first frame and the only one of its
kind, and is not submitted before that one got a reply, be it an error. So on every connection that was
ever pooled `READONLY` was written first, and answered; and at each moment when a worker writes a frame
that is another one, the answer is there. -/
theorem readonly_comes_first (h : Reaches s is S log) :
    (∀ x ∈ submitted s is, x.Fits s is) ∧
    (∀ c, (S.line c).written <+: (on c (submitted s is)).map request ∧
      Connection.sent (S.line c).effects = (S.line c).written.flatMap Prod.snd) ∧
    (s.replicas = .never → ∀ x ∈ submitted s is, x.purpose ≠ .greeting ∧
      (x.frame = Bytes.ofText "*1\r\n$8\r\nREADONLY\r\n" →
        ∃ command, .send command ∈ is ∧ x.frame = command.encode s.connection.nulls)) ∧
    (s.replicas ≠ .never → ∀ c,
      (∀ x rest, on c (submitted s is) = x :: rest → x.purpose = .greeting ∧
        x.frame = Bytes.ofText "*1\r\n$8\r\nREADONLY\r\n" ∧ (∀ y ∈ rest, y.purpose ≠ .greeting) ∧
        (rest ≠ [] → Answered S x)) ∧
      (EverPooled s is c → ∃ x rest, on c (submitted s is) = x :: rest ∧ Answered S x ∧
        ∃ more, (S.line c).written = request x :: more) ∧
      ∀ m, ∀ y ∈ (S.line c).writes m, ∃ x rest, on c (submitted s is) = x :: rest ∧
        (y = request x ∨ Answered S x)) := by
  have hs := h.sound
  have hfits := hs.router.fits
  refine ⟨hfits, fun c => ⟨hs.written c, Connection.Worker.sent_journal _⟩, fun hp x hx => ?_,
    fun hp c => ?_⟩
  · have hne := (hs.router.ungreeted hp).2 x hx
    refine ⟨hne, fun hframe => ?_⟩
    have hfit := hfits x hx
    unfold Submission.Fits at hfit
    cases hpurpose : x.purpose with
    | greeting => exact absurd hpurpose hne
    | slots => rw [hpurpose] at hfit; exact absurd (hfit.symm.trans hframe) readonly_ne.1
    | asking => rw [hpurpose] at hfit; exact absurd (hfit.symm.trans hframe) readonly_ne.2
    | command | asked =>
      rw [hpurpose] at hfit
      obtain ⟨command, hc, hframe⟩ := hfit
      exact ⟨command, hc.mem, hframe⟩
  · obtain ⟨hg, hever⟩ := h.greets hp
    have first (x : Submission) (rest : List Submission)
        (hon : on c (submitted s is) = x :: rest) : x.purpose = .greeting ∧
          (∀ y ∈ rest, y.purpose ≠ .greeting) ∧ (rest ≠ [] → Answered S x) := by
      rcases hg.others c with hnil | ⟨y, hy, hpurpose⟩ | hc
      · cases hon.symm.trans hnil
      · cases hon.symm.trans hy
        exact ⟨hpurpose, nofun, fun hne => absurd rfl hne⟩
      · obtain ⟨y, more, hy, hpurpose, hrest, ha, -⟩ := hs.greeted hc
        cases hon.symm.trans hy
        exact ⟨hpurpose, hrest, fun _ => ha⟩
    refine ⟨fun x rest hon => ?_, fun hc => ?_, fun m y hy => ?_⟩
    · obtain ⟨hpurpose, hrest⟩ := first x rest hon
      obtain ⟨hmem, -⟩ := mem_on.mp (hon ▸ List.mem_cons_self : x ∈ on c (submitted s is))
      have hfit := hfits x hmem
      rw [Submission.Fits, hpurpose] at hfit
      exact ⟨hpurpose, hfit, hrest⟩
    · obtain ⟨x, rest, hon, -, -, ha, hne⟩ := hs.greeted (hever c hc)
      obtain ⟨y, more, hw⟩ := List.exists_cons_of_ne_nil hne
      have hprefix := hs.written c
      rw [hw, hon, List.map_cons, List.cons_prefix_cons] at hprefix
      exact ⟨x, rest, hon, ha, more, by rw [hw, hprefix.1]⟩
    · have hmem := Connection.Worker.mem_requests_of_writes hy
      change y ∈ Connection.commands (S.line c).requests at hmem
      rw [hs.frames c] at hmem
      cases hon : on c (submitted s is) with
      | nil => rw [hon] at hmem; cases hmem
      | cons x rest =>
        refine ⟨x, rest, rfl, ?_⟩
        rw [hon, List.map_cons, List.mem_cons] at hmem
        rcases hmem with rfl | hmem
        · exact .inl rfl
        · refine .inr ((first x rest hon).2.2 fun hnil => ?_)
          rw [hnil] at hmem
          cases hmem

/-- A seed is dialed, greeted and pooled, and has its `CLUSTER SLOTS` written. -/
def welcomed : List Happening :=
  [.input .opening, .input (.step 0 0), .input (.step 1 0), .input (.dialed 1 (.ok 0)),
    .input (.step 1 0), .input (.step 1 0), .input (.step 1 0),
    .move 0 (.advance true), .move 0 (.advance true), .move 0 (.wrote none),
    .move 0 (.received [43, 79, 75, 13, 10]), .deliver 0 0, .input (.step 1 0), .input (.step 1 0),
    .input (.step 0 0), .input (.step 3 0), .input (.step 3 0), .input (.step 3 0),
    .input (.step 3 0), .move 0 (.advance true), .move 0 (.advance true)]

def reading : ClusterSettings := { seeds := ["a:1"], replicas := .always }

/-- When the next frame is written, `READONLY` is on the wire and has its answer. -/
theorem readonly_comes_first_welcomed :
    let start : System := { router := { settings := reading } }
    let S := (start.run welcomed).1
    EverPooled reading (start.inputs welcomed) 0 ∧
      (4, Bytes.ofText "*2\r\n$7\r\nCLUSTER\r\n$5\r\nSLOTS\r\n") ∈ (S.line 0).writes (.wrote none) ∧
      Connection.sent (S.line 0).effects = Bytes.ofText "*1\r\n$8\r\nREADONLY\r\n" ∧
      ∃ x more, (S.line 0).written = request x :: more ∧
        x.frame = Bytes.ofText "*1\r\n$8\r\nREADONLY\r\n" ∧ Answered S x := by
  intro start S
  have hr : Reaches reading (start.inputs welcomed) S _ :=
    Reaches.start.run welcomed (by decide +kernel)
  have hpool : S.router.pool = [("a:1", 0)] := by decide +kernel
  have hever : EverPooled reading (start.inputs welcomed) 0 := by
    refine ⟨_, List.prefix_rfl, ?_⟩
    rw [← hr.sound.router.eq_after, hpool]
    simp
  obtain ⟨-, -, -, hgreets⟩ := readonly_comes_first hr
  obtain ⟨hfirst, hp, -⟩ := hgreets (by decide) 0
  obtain ⟨x, rest, hon, ha, more, hwritten⟩ := hp hever
  obtain ⟨-, hframe, -⟩ := hfirst x rest hon
  exact ⟨hever, by decide +kernel, by decide +kernel, x, more, hwritten, hframe, ha⟩

end System

end RespClient.Cluster
