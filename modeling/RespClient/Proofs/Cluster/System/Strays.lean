import RespClient.Proofs.Cluster.Redirect
import RespClient.Proofs.Cluster.Router.Redirects
import RespClient.Proofs.Cluster.System
import RespClient.Proofs.Connection.Replies
import RespClient.Simulation.World.Actions

namespace RespClient.Cluster

/-- What comes of an attempt to connect. An address that cannot be taken apart is refused for that;
otherwise there is a connection, or the transport has failed. -/
def Connects (a : String) : Except ClientError ConnId → Prop
  | .ok _ => (Address.parse? a).isSome
  | .error e => if (Address.parse? a).isSome = true then e.isTransport = true else e = .invalidAddress a

instance decidableConnects (a : String) :
    (result : Except ClientError ConnId) → Decidable (Connects a result)
  | .ok _ => inferInstanceAs (Decidable ((Address.parse? a).isSome = true))
  | .error e => inferInstanceAs (Decidable
      (if (Address.parse? a).isSome = true then e.isTransport = true else e = .invalidAddress a))

variable {a a' : String} {c : ConnId} {e : ClientError} {result : Except ClientError ConnId}

theorem Connects.eq_invalidAddress (h : Connects a (.error e)) (ha : Address.parse? a = none) :
    e = .invalidAddress a := by
  simpa [Connects, ha] using h

theorem connects_error (h : (Address.parse? a).isSome) (he : e.isTransport) : Connects a (.error e) := by
  rw [Connects, if_pos h]
  exact he

/-- The address that an attempt is refused for is the one that it was to go to. -/
theorem Connects.eq_of_invalidAddress (h : Connects a (.error (.invalidAddress a'))) :
    a' = a ∧ Address.parse? a = none := by
  by_cases ha : (Address.parse? a).isSome
  · rw [Connects, if_pos ha] at h
    cases h
  · rw [Connects, if_neg ha] at h
    exact ⟨ClientError.invalidAddress.inj h, by simpa using ha⟩

/-- The attempts to connect of the world that the clients are run in are of this kind. -/
theorem connect_connects {w : Simulation.World} {owner : Simulation.Owner}
    {settings : ConnectionSettings} (h : (w.connect owner a settings).2 = some result) :
    Connects a result := by
  unfold Simulation.World.connect Address.split at h
  cases ha : Address.parse? a with
  | none =>
    rw [ha] at h
    cases h
    simp [Connects, ha]
  | some parts =>
    have hs : (Address.parse? a).isSome := by rw [ha]; rfl
    rw [ha] at h
    simp only at h
    split at h
    · split at h <;> cases h
      · exact hs
      · exact connects_error hs rfl
    · cases h
      exact connects_error hs rfl

namespace Router

/-- An attempt to connect comes to what it can come to. -/
def Answers (r : Router) : Input → Prop
  | .dialed d result =>
    match r.job? d with
    | some (.dial a .calling) => Connects a result
    | _ => True
  | _ => True

instance decidableAnswers (r : Router) (i : Input) : Decidable (r.Answers i) := by
  unfold Answers
  repeat' split
  all_goals infer_instance

def AnswersAll (r : Router) : List Input → Prop
  | [] => True
  | i :: is => r.Answers i ∧ (r.step i).1.AnswersAll is

instance decidableAnswersAll : (r : Router) → (is : List Input) → Decidable (r.AnswersAll is)
  | _, [] => isTrue trivial
  | r, i :: is =>
    have := decidableAnswersAll (r.step i).1 is
    inferInstanceAs (Decidable (r.Answers i ∧ (r.step i).1.AnswersAll is))

variable {s : ClusterSettings} {is js : List Input} {r r' : Router} {log acts : List Action} {i : Input}

theorem answersAll_append :
    r.AnswersAll (is ++ js) ↔ r.AnswersAll is ∧ (r.run is).1.AnswersAll js := by
  induction is generalizing r with
  | nil => simp [AnswersAll, run]
  | cons i is ih => simp [AnswersAll, run, ih, and_assoc]

/-- Every connection was opened to an address, and every dial that is over has come to what an attempt
to connect can come to. -/
structure Placed (r : Router) : Prop where
  opened : ∀ e ∈ r.opened, (Address.parse? e.2).isSome
  dials : ∀ u ∈ r.tasks, ∀ a result, u.job = .dial a (.done result) → Connects a result

theorem DialTurn.connects {id : TaskId} {stage stage' : DialStage} {core : Router}
    (h : DialTurn r id a stage stage' core acts) (hs : stage' = .done result) (hp : Placed r)
    (hc : Custody r log) {t : Task} (ht : t ∈ r.tasks) (hj : t.job = .dial a stage) :
    Connects a result := by
  have own (c : ConnId) (h : stage.own? = some c) : (Address.parse? a).isSome :=
    hp.opened _ (hc.owned t ht (a, c) (by rw [hj, Job.own?, h]; rfl))
  cases h with
  | found hl =>
    cases hs
    exact hp.opened _ (hc.stored _ (mem_of_live? hl))
  | late =>
    cases hs
    exact connects_error (own _ rfl) rfl
  | join =>
    cases hs
    exact own _ rfl
  | yield =>
    cases hs
    exact own _ rfl
  | guard => split at hs <;> cases hs
  | _ => cases hs

theorem Placed.event (hp : Placed r) (hf : Forest r) (hc : Custody r log) (h : Event r i r' acts)
    (ha : r.Answers i) : Placed r' := by
  have answer {t : Task} {result : Except ClientError ConnId} (ht : t ∈ r.tasks) {a : String}
      (hj : t.job = .dial a .calling) (hi : i = .dialed t.id result) : Connects a result := by
    subst hi
    simpa only [Answers, hf.job?_eq ht, hj] using ha
  refine ⟨fun x hx => ?_, fun u hu a result hj => ?_⟩
  · rcases h.opens with ho | ⟨t, ht, c, a, hi, hj, ho⟩
    · exact hp.opened x (ho ▸ hx)
    · rw [ho] at hx
      rcases List.mem_append.mp hx with hx | hx
      · exact hp.opened x hx
      · cases List.mem_singleton.mp hx
        exact answer ht hj hi
  · rcases h.dial_cases hf hu hj with
      hu | ⟨t, ht, stage, core, htj, hx⟩ | ⟨c, -, hs⟩ | ⟨e, hi, hs, t, ht, hid, htj⟩ | hs
    · exact hp.dials u hu a result hj
    · exact hx.connects rfl hp hc ht htj
    · cases hs
    · cases hs
      exact answer ht htj (hid ▸ hi)
    · cases hs

theorem Reaches.placed (h : Reaches s is r log) (ha : AnswersAll { settings := s } is) : Placed r := by
  induction h with
  | start => exact ⟨nofun, nofun⟩
  | @step is r log i h hi ih =>
    obtain ⟨his, hnext⟩ := answersAll_append.mp ha
    have hr := h.eq_after
    unfold after at hr
    rw [← hr] at hnext
    exact (ih his).event h.forest h.custody (step_event _ _) hnext.1

end Router

/-- What can happen to a command: an attempt to connect comes to what it can come to, frames go to nodes
with an address, and no answer blames one. -/
def Deed.Plain : Deed → Prop
  | .reached a result => Connects a result
  | .sent a _ _ _ => (Address.parse? a).isSome
  | .answered _ o => ∀ a, o ≠ .error (.invalidAddress a)
  | _ => True

namespace Router

variable {s : ClusterSettings} {is later : List Input} {r : Router} {log : List Action} {i : Input}
  {id : TaskId}

theorem Placed.origin (hp : Placed r) (hc : Custody r log) {t : Task} (ht : t ∈ r.tasks) {c : ConnId}
    (hb : c ∈ t.job.borrows) : (Address.parse? (r.origin c)).isSome := by
  obtain ⟨⟨c, a⟩, ho, rfl⟩ := List.mem_map.mp (hc.borrowed t ht c hb).1
  rw [hc.origin_eq ho]
  exact hp.opened _ ho

theorem Placed.takesUp (hp : Placed r)
    (hm : ∀ k o, r.mail? k = some o → ∀ a, o ≠ .error (.invalidAddress a))
    {s : Sending} {d : Deed} (hd : d ∈ r.takesUp s) : d.Plain := by
  obtain ⟨_, _, _, _, stage⟩ := s
  cases stage with
  | reaching held d asked =>
    simp only [Router.takesUp] at hd
    split at hd
    next hj =>
      obtain ⟨u, hu, -, hj⟩ := exists_of_job? hj
      cases List.mem_singleton.mp hd
      exact hp.dials u hu _ _ hj
    · cases hd
  | submit | submitAsking | submitAsked =>
    simp only [Router.takesUp] at hd
    split at hd
    · cases List.mem_singleton.mp hd
      trivial
    · cases hd
  | awaiting c k =>
    simp only [Router.takesUp] at hd
    split at hd
    next ho =>
      cases List.mem_singleton.mp hd
      exact hm _ _ ho
    · cases hd
  | refreshing =>
    simp only [Router.takesUp] at hd
    split at hd
    · cases List.mem_singleton.mp hd
      trivial
    · cases hd
  | route | awaitingAsking | resting => cases hd

theorem Placed.givesOut (hp : Placed r) (hf : Forest r) (hc : Custody r log) {t : Task}
    (ht : t ∈ r.tasks) {s : Sending} (hj : t.job = .send s) {choice : Nat} {x : Action} {d : Deed}
    (hx : x ∈ (r.step (.step t.id choice)).2) (hd : r.givesOut x = some d) : d.Plain := by
  have submit {c : ConnId} {k : Claim} {frame : Bytes} (hc' : c ∈ s.stage.holds)
      (hx : x = .submit c k frame) : d.Plain := by
    subst hx
    cases hd
    exact hp.origin hc ht (by rwa [hj])
  rcases step_own hf ht choice with ⟨-, hstep⟩ | ⟨job?, fresh, core, acts, hx', hstep⟩
  · rw [hstep] at hx
    cases hx
  · rw [hstep] at hx
    obtain ⟨tid, root, job⟩ := t
    cases hj
    cases hx' with
    | send h =>
      cases h with
      | submit h | ask h | follow h =>
        exact submit (by rw [h]; exact List.mem_singleton_self _) (List.mem_singleton.mp hx)
      | refreshed _ _ hw =>
        obtain ⟨text, rfl⟩ := hw x hx
        cases hd
      | nowhere | miss | mute | answer | again =>
        cases List.mem_singleton.mp hx
        cases hd
        trivial
      | _ => cases hx

theorem Placed.deeds (hp : Placed r) (hf : Forest r) (hc : Custody r log)
    (hm : ∀ k o, r.mail? k = some o → ∀ a, o ≠ .error (.invalidAddress a)) {d : Deed}
    (hd : d ∈ r.deeds id i) : d.Plain := by
  unfold Router.deeds at hd
  split at hd
  next s hj =>
    obtain ⟨t, ht, rfl, htj⟩ := exists_of_job? hj
    split at hd
    next choice =>
      split at hd
      next hid =>
        rcases List.mem_append.mp hd with hd | hd
        · exact hp.takesUp hm hd
        · obtain ⟨x, hx, hd⟩ := List.mem_filterMap.mp hd
          exact hp.givesOut hf hc ht htj (hid ▸ hx) hd
      · cases hd
    · split at hd
      · split at hd
        · cases List.mem_singleton.mp hd
          trivial
        · cases hd
      · cases hd
    · cases hd
  · cases hd

/-- In a run where attempts to connect come to what they can come to, and replies blame no address,
nothing else happens to a command. -/
theorem Reaches.plain (h : Reaches s is r log) (hl : r.AdmitsAll later)
    (ha : AnswersAll { settings := s } (is ++ later))
    (hr : ∀ k o, .reply k o ∈ is ++ later → ∀ a, o ≠ .error (.invalidAddress a)) {d : Deed}
    (hd : d ∈ r.course id later) : d.Plain := by
  induction later generalizing is r log with
  | nil => cases hd
  | cons i later ih =>
    rcases List.mem_append.mp hd with hd | hd
    · refine (h.placed (answersAll_append.mp ha).1).deeds h.forest h.custody (fun k o hm => ?_) hd
      exact hr k o (List.mem_append_left _ (h.mail (mem_of_mail? hm)))
    · exact ih (h.step hl.1) hl.2 (by simpa using ha) (by simpa using hr) hd

end Router

/-- The outcome is a redirect to `a`. -/
def Outcome.SendsTo (o : Outcome) (a : String) : Prop :=
  ∃ slot, Outcome.redirect? o = some (.moved slot a) ∨ Outcome.redirect? o = some (.ask slot a)

/-- A command that was to go to `stop` came to `o` after the redirects `os`. It fails for an address
exactly if that is the first stop, and none, or what the last redirect names, and no target. -/
structure Settles (stop : Stop) (os : List Outcome) (o : Outcome) : Prop where
  strays : ∀ a, o = .error (.invalidAddress a) ↔
    (stop = .node a ∧ os = [] ∧ Address.parse? a = none) ∨
      ∃ x, os.getLast? = some x ∧ Outcome.SendsTo x a ∧ ¬IsTarget a
  followed : ∀ x ∈ os.dropLast, ∀ a, Outcome.SendsTo x a → IsTarget a

variable {stop : Stop} {os : List Outcome} {o x : Outcome} {target : String}

theorem Settles.of_ne (h : ∀ a, o ≠ .error (.invalidAddress a))
    (hs : ∀ a, stop = .node a → (Address.parse? a).isSome) : Settles stop [] o := by
  refine ⟨fun a => ⟨fun ho => absurd ho (h a), ?_⟩, nofun⟩
  rintro (⟨hstop, -, ha⟩ | ⟨x, hx, -⟩)
  · have hsome := hs a hstop
    rw [ha] at hsome
    cases hsome
  · cases hx

theorem Settles.missed (h : Connects a (.error e)) : Settles (.node a) [] (.error e) := by
  refine ⟨fun a' => ⟨fun ho => ?_, ?_⟩, nofun⟩
  · cases ho
    obtain ⟨rfl, ha⟩ := h.eq_of_invalidAddress
    exact .inl ⟨rfl, rfl, ha⟩
  · rintro (⟨hstop, -, ha⟩ | ⟨x, hx, -⟩)
    · cases hstop
      rw [h.eq_invalidAddress ha]
    · cases hx

theorem Settles.cons {stop' : Stop} (h : Settles stop' os o)
    (hnil : os = [] → ∀ a, o = .error (.invalidAddress a) ↔ Outcome.SendsTo x a ∧ ¬IsTarget a)
    (hx : os ≠ [] → ∀ a, Outcome.SendsTo x a → IsTarget a) : Settles stop (x :: os) o := by
  cases os with
  | nil =>
    refine ⟨fun a => (hnil rfl a).trans ⟨fun hs => .inr ⟨x, rfl, hs⟩, ?_⟩, nofun⟩
    rintro (⟨-, he, -⟩ | ⟨y, hy, hs⟩)
    · cases he
    · cases hy
      exact hs
  | cons y ys =>
    refine ⟨fun a => (h.strays a).trans (or_congr ⟨?_, ?_⟩ Iff.rfl), ?_⟩
    · rintro ⟨-, he, -⟩
      cases he
    · rintro ⟨-, he, -⟩
      cases he
    · rw [List.dropLast_cons_of_ne_nil (by simp)]
      exact List.forall_mem_cons.mpr ⟨hx (by simp), h.followed⟩

theorem Settles.again (h : Settles (.same a c) os o) (hx : ∀ a, ¬Outcome.SendsTo x a) :
    Settles stop (x :: os) o := by
  refine h.cons (fun hos a' => ?_) fun _ a' ha => absurd ha (hx a')
  rw [h.strays, hos]
  simp [hx]

theorem Settles.redirected (h : Settles (.node (resolveTarget target a)) os o)
    (hx : ∀ a, Outcome.SendsTo x a ↔ a = target) (ha : (Address.parse? a).isSome)
    (hlast : Address.parse? (resolveTarget target a) = none → os = []) : Settles stop (x :: os) o := by
  have htarget : (Address.parse? (resolveTarget target a)).isSome ↔ IsTarget target :=
    parse?_resolveTarget_isSome ha
  refine h.cons (fun hos a' => ?_) fun hos a' hs => ?_
  · rw [h.strays, hos, hx]
    constructor
    · rintro (⟨hstop, -, hn⟩ | ⟨y, hy, -⟩)
      · cases hstop
        have hnot : ¬IsTarget target := fun ht => by simp [hn] at htarget; exact htarget ht
        exact ⟨resolveTarget_of_not_isTarget hnot a, by rwa [resolveTarget_of_not_isTarget hnot]⟩
      · cases hy
    · rintro ⟨rfl, hnot⟩
      rw [resolveTarget_of_not_isTarget hnot]
      refine .inl ⟨rfl, rfl, ?_⟩
      by_contra hn
      exact hnot (.address (Option.isSome_iff_ne_none.mpr hn))
  · rw [hx] at hs
    subst hs
    by_contra hnot
    rw [← htarget, Option.not_isSome_iff_eq_none] at hnot
    exact hos (hlast hnot)

variable {b : Backoff} {frame : Bytes} {n i : Nat} {asked : Bool} {ds : List Deed}

/-- What is gone to on the way is an address, and so is what a frame went to. -/
theorem Stop.Leads.isSome {way rest : List Deed} (hw : Stop.Leads stop a c way)
    (hd : ∀ d ∈ way ++ rest, d.Plain) (hs : stop = .node a') : (Address.parse? a').isSome := by
  subst hs
  cases hw
  have hplain := hd (.reached a (.ok c)) (by simp)
  exact hplain

theorem isSome_of_attempt {q : Option Claim} {k : Claim} {before after : List Deed}
    (hd : ∀ d ∈ before ++ attempt frame a c q k ++ after, d.Plain) : (Address.parse? a).isSome :=
  hd (.sent a c k frame) (by simp [attempt])

theorem Script.eq_of_node (h : Script b frame n i (.node a) asked os ds) (hd : ∀ d ∈ ds, d.Plain)
    (ha : Address.parse? a = none) : os = [.error (.invalidAddress a)] := by
  have away {a' : String} {c : ConnId} {way rest : List Deed} (hw : Stop.Leads (.node a) a' c way)
      (hd : ∀ d ∈ way ++ rest, d.Plain) : False := by
    have hsome := hw.isSome hd rfl
    rw [ha] at hsome
    cases hsome
  cases h with
  | @missed _ _ _ _ e =>
    have hplain : Connects a (.error e) := hd (.reached a (.error e)) (by simp)
    rw [hplain.eq_invalidAddress ha]
  | refused hw | last hw | again hw | ask hw =>
    exact (away hw (by simpa only [List.append_assoc] using hd)).elim
  | moved _ hw => exact (away hw (by simpa only [List.append_assoc] using hd)).elim

/-- A redirect before a script that goes where it leads to. -/
theorem Script.follow (h : Script b frame n i (.node (resolveTarget target a)) asked os ds)
    (hd : ∀ d ∈ ds, d.Plain) (ha : (Address.parse? a).isSome)
    (hx : ∀ a, Outcome.SendsTo x a ↔ a = target)
    (ih : ∃ os' o, os = os' ++ [o] ∧ Settles (.node (resolveTarget target a)) os' o) :
    ∃ os' o, x :: os = os' ++ [o] ∧ Settles stop os' o := by
  obtain ⟨os', o', rfl, hset⟩ := ih
  refine ⟨x :: os', o', rfl, hset.redirected hx ha fun hn => ?_⟩
  simpa using congrArg List.length (h.eq_of_node hd hn)

theorem Script.settles (h : Script b frame n i stop asked os ds) (hd : ∀ d ∈ ds, d.Plain) :
    ∃ os' o, os = os' ++ [o] ∧ Settles stop os' o := by
  induction h with
  | nowhere => exact ⟨[], _, rfl, .of_ne nofun nofun⟩
  | @missed _ _ a _ e =>
    have hplain : Connects a (.error e) := hd (.reached a (.error e)) (by simp)
    exact ⟨[], _, rfl, .missed hplain⟩
  | refused hw =>
    simp only [List.append_assoc] at hd
    exact ⟨[], _, rfl, .of_ne nofun fun a' hs => hw.isSome hd hs⟩
  | @last _ _ _ _ _ _ _ _ k o hw =>
    simp only [List.append_assoc] at hd
    have hplain : ∀ a, o ≠ .error (.invalidAddress a) := hd (.answered k o) (by simp)
    exact ⟨[], _, rfl, .of_ne hplain fun a' hs => hw.isSome hd hs⟩
  | moved _ hw _ ho next ih | ask hw _ ho next ih =>
    have hrest := fun d hm => hd d (List.mem_append_right _ hm)
    rw [List.append_assoc] at hd
    exact next.follow hrest (isSome_of_attempt hd) (by simp [Outcome.SendsTo, ho, eq_comm]) (ih hrest)
  | @again _ _ _ _ _ _ _ _ _ o os ds hw _ ho next ih =>
    obtain ⟨os', o', rfl, hset⟩ := ih fun d hm => hd d (List.mem_append_right _ hm)
    refine ⟨o :: os', o', rfl, hset.again fun a' => ?_⟩
    rcases ho with ho | ho <;> simp [Outcome.SendsTo, ho]

theorem Script.mem_of_answered (h : Script b frame n i stop asked os ds) {k : Claim}
    (ha : .answered k o ∈ ds) : o ∈ os := by
  have attempts {a : String} {c : ConnId} {way : List Deed} {stop : Stop} (hw : Stop.Leads stop a c way)
      (q : Option Claim) (k' : Claim) : .answered k o ∉ way ++ attempt frame a c q k' := by
    cases hw <;> simp [attempt, Deed.asking]
  -- What is answered in an attempt is its own outcome.
  have own {a : String} {c : ConnId} {way rest : List Deed} {stop : Stop} (hw : Stop.Leads stop a c way)
      {q : Option Claim} {k' : Claim} (ha : .answered k o ∈ way ++ attempt frame a c q k' ++ rest) :
      .answered k o ∈ rest := (List.mem_append.mp ha).resolve_left (attempts hw q k')
  induction h with
  | nowhere | missed => simp at ha
  | @refused _ _ _ _ _ _ _ part hw hp =>
    have hway := attempts hw none k
    have hpart : .answered k o ∉ part := by
      rcases hp with rfl | ⟨-, q, rfl⟩ <;> simp [Deed.asking]
    simp_all
  | last hw =>
    obtain ⟨-, rfl⟩ := by simpa using own hw ha
    exact List.mem_singleton_self _
  | moved _ hw _ _ _ ih | ask hw _ _ _ ih | again hw _ _ _ ih =>
    rcases List.mem_append.mp ha with ha | ha
    · obtain ⟨-, rfl⟩ := by simpa using own hw ha
      exact List.mem_cons_self
    · exact List.mem_cons_of_mem _ (ih ha)

namespace System

variable {s : ClusterSettings} {is : List Input} {S : System} {log : List Action}

theorem Sound.reply_ne (h : Sound s is S log) {k : Claim} {o : Outcome} (hk : .reply k o ∈ is)
    (a : String) : o ≠ .error (.invalidAddress a) := by
  obtain ⟨c, hc⟩ := h.replies k o hk
  rintro rfl
  obtain ⟨⟨reply, hr⟩, -⟩ := Connection.Worker.replied_of_completed hc (by simp)
  cases reply <;> cases hr

end System

/-- A redirect that names no target is taken for one, and it ends the command. Behind `MOVED` or `ASK`
there is the number of a slot and a text with a colon; at a node with an address that text leads to an
address if and only if it is a target. A command that redirects lead to targets only never fails for an
address, unless the table itself has sent it to none. Otherwise it fails for what the last redirect
names. An answer that is no redirect is what it comes to, as it was sent. -/
theorem stray_redirects_end_commands (s : ClusterSettings) :
    (∀ text slot a,
      Redirect.ofText? text = some (.moved slot a) ∨ Redirect.ofText? text = some (.ask slot a) →
      (∃ word rest, Text.words text = word :: rest ∧ SlotAndAddress rest slot a) ∧ slot.val < 16384 ∧
      ∀ origin, (Address.parse? origin).isSome →
        ((Address.parse? (resolveTarget a origin)).isSome ↔ IsTarget a)) ∧
    ∀ before command later S log, System.Reaches s (before ++ .send command :: later) S log →
      Router.AnswersAll { settings := s } (before ++ .send command :: later) →
      let r := Router.after s before
      ∀ o ∈ Router.returned r.next ((r.started command).run later).2, ∃ first os, Stop.IsFirst first ∧
        Script s.backoff (command.encode s.connection.nulls) s.maxRedirects.toNat 0 first false
          (os ++ [o]) ((r.started command).course r.next later) ∧
        Settles first os o ∧
        ∀ k x, .answered k x ∈ (r.started command).course r.next later →
          Outcome.redirect? x = none → x = o := by
  refine ⟨fun text slot a h => ⟨?_, slot.isLt, fun origin => parse?_resolveTarget_isSome⟩, ?_⟩
  · rcases h with h | h
    · obtain ⟨rest, hw, hs⟩ := Redirect.Names.moved.ofText?_eq_some.mp h
      exact ⟨_, rest, hw, hs⟩
    · obtain ⟨rest, hw, hs⟩ := Redirect.Names.ask.ofText?_eq_some.mp h
      exact ⟨_, rest, hw, hs⟩
  intro before command later S log h ha r o ho
  have hs := h.sound
  obtain ⟨log', hr, hadmits, -⟩ := hs.router.cut
  have hsplit : before ++ .send command :: later = before ++ [.send command] ++ later := by simp
  have hplain : ∀ d ∈ (r.started command).course r.next later, d.Plain := fun d =>
    (hr.started command).plain hadmits.2 (hsplit ▸ ha) fun k o hk => hs.reply_ne (hsplit ▸ hk)
  rcases hr.sent hadmits.2 with
    ⟨t, -, -, u, -, -, -, -, hret, -⟩ | ⟨-, -, -, first, os, o', hf, hscript, hret⟩
  · rw [hret] at ho
    cases ho
  · rw [hret] at ho
    cases List.mem_singleton.mp ho
    obtain ⟨os', o', hos, hset⟩ := hscript.settles hplain
    obtain ⟨rfl, ho'⟩ := List.append_inj' hos rfl
    obtain rfl : o = o' := List.singleton_inj.mp ho'
    refine ⟨first, os, hf, hscript, hset, fun k x hx hnone => ?_⟩
    obtain ⟨_, _, -, hos', -, hredirects, -⟩ := hscript.outcomes
    obtain ⟨rfl, -⟩ := List.append_inj' hos' rfl
    rcases List.mem_append.mp (hscript.mem_of_answered hx) with hx | hx
    · exact absurd hnone (hredirects x hx)
    · exact List.mem_singleton.mp hx

def oneSeed : ClusterSettings := { seeds := ["a:1"] }

def unopened : System := { router := { settings := oneSeed } }

def pooling : List Input :=
  [.opening, .step 0 0, .step 1 0, .dialed 1 (.ok 0), .step 1 0, .step 1 0, .step 1 0]

def called : List Happening := (pooling ++ [Input.send (Command.ofName "PING")]).map .input

def pinged : System := (unopened.run called).1

/-- The node answers the command with `ASK 5 b:`. -/
def astray : List Happening :=
  [.input (.step 2 0), .input (.step 2 0), .move 0 (.advance true), .move 0 (.advance true),
    .move 0 (.wrote none), .move 0 (.received [45, 65, 83, 75, 32, 53, 32, 98, 58, 13, 10]),
    .deliver 0 0, .input (.step 2 0), .input (.step 4 0),
    .input (.dialed 4 (.error (.invalidAddress "b:"))), .input (.step 2 0)]

theorem System.inputs_map_input (S : System) (is : List Input) : S.inputs (is.map .input) = is := by
  induction is generalizing S with
  | nil => rfl
  | cons i is ih =>
    rw [List.map_cons, System.inputs, ih]
    rfl

theorem reaches_astray :
    System.Reaches oneSeed (pooling ++ .send (Command.ofName "PING") :: pinged.inputs astray)
      (pinged.run astray).1 ((unopened.run called).2 ++ (pinged.run astray).2) := by
  have h : System.Reaches oneSeed ([] ++ unopened.inputs called) pinged
      ([] ++ (unopened.run called).2) := System.Reaches.start.run called (by decide +kernel)
  have h' := h.run astray (by decide +kernel)
  rwa [called, System.inputs_map_input, List.nil_append, List.nil_append, List.append_assoc,
    List.singleton_append] at h'

theorem answers_astray : Router.AnswersAll { settings := oneSeed }
    (pooling ++ .send (Command.ofName "PING") :: pinged.inputs astray) := by
  decide +kernel

def failureOf : Outcome → Option ClientError
  | .ok _ => none
  | .error e => some e

theorem stray_redirects_end_commands_astray : ∃ first os, Stop.IsFirst first ∧
    Settles first os (.error (.invalidAddress "b:")) ∧
    Outcome.SendsTo (.error (.reply "ASK 5 b:")) "b:" ∧ ¬IsTarget "b:" := by
  have hret : (Router.returned (Router.after oneSeed pooling).next
      (((Router.after oneSeed pooling).started (Command.ofName "PING")).run
        (pinged.inputs astray)).2).map failureOf = [some (.invalidAddress "b:")] := by
    decide +kernel
  obtain ⟨o, ho, hfail⟩ := List.mem_map.mp (hret ▸ List.mem_singleton_self _)
  obtain ⟨first, os, hf, -, hset, -⟩ :=
    (stray_redirects_end_commands oneSeed).2 _ _ _ _ _ reaches_astray answers_astray o ho
  cases o with
  | ok reply => cases hfail
  | error e =>
    cases hfail
    refine ⟨first, os, hf, hset, ⟨5, .inr (by decide +kernel)⟩, fun ht => ?_⟩
    have horigin : (Address.parse? "a:1").isSome := by decide +kernel
    have hnone : Address.parse? (resolveTarget "b:" "a:1") = none := by decide +kernel
    have hsome := (parse?_resolveTarget_isSome horigin).mpr ht
    rw [hnone] at hsome
    cases hsome

/-- A text with nothing behind its last colon is taken for a redirect, and is no address from anywhere.
The caller gets a failure in place of the node's text. -/
theorem stray_text_is_redirect :
    Redirect.ofText? "MOVED 3999 host:" = some (.moved 3999 "host:") ∧
    Address.parse? (resolveTarget "host:" "10.0.0.1:6379") = none ∧
    ∃ is S log, System.Reaches oneSeed is S log ∧ Router.AnswersAll { settings := oneSeed } is ∧
      (Reply.decoded (Connection.Worker.read (S.lines 0))).map Reply.error? = [some "ASK 5 b:"] ∧
      (Router.returned 2 log).map failureOf = [some (.invalidAddress "b:")] :=
  ⟨by decide +kernel, by decide +kernel, _, _, _, reaches_astray, answers_astray, by decide +kernel,
    by decide +kernel⟩

end RespClient.Cluster
