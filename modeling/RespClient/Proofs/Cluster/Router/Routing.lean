import RespClient.Proofs.Cluster.Router.Redirects
import RespClient.Proofs.Cluster.Router.Tables

namespace RespClient.Cluster

/-- The first deed on the way to a stop. -/
inductive Stop.Opens : Stop → Deed → Prop
  | node {a result} : Opens (.node a) (.reached a result)
  | sent {a c k frame} : Opens (.same a c) (.sent a c k frame)
  | refused {a c} : Opens (.same a c) .refused
  | nowhere {o} : Opens .any (.concluded o)

section Script

variable {b : Backoff} {frame : Bytes} {n i : Nat} {first stop : Stop} {asked : Bool}
  {os : List Outcome} {d : Deed} {ds : List Deed}

theorem attempt_eq_cons (frame : Bytes) (a : String) (c : ConnId) (q : Option Claim) (k : Claim) :
    ∃ k' frame' tail, attempt frame a c q k = .sent a c k' frame' :: tail := by
  cases q with
  | none => exact ⟨_, _, _, rfl⟩
  | some q => exact ⟨_, _, _, rfl⟩

/-- The way to a connection is one to the stop that the first deed belongs to. -/
theorem Stop.Leads.reopen {a : String} {c : ConnId} {way rest : List Deed} {k : Claim}
    {frame' : Bytes} (hw : Stop.Leads first a c way) (hf : first.IsFirst) (ho : stop.Opens d)
    (he : d :: ds = way ++ .sent a c k frame' :: rest) : Stop.Leads stop a c way := by
  cases hw with
  | any =>
    cases he
    cases ho
    exact .same
  | node =>
    cases he
    cases ho
    exact .node
  | same => exact absurd rfl (hf _ _)

/-- The first deed of a script gives away where it goes first. -/
theorem Script.reopen (h : Script b frame n i first asked os (d :: ds)) (hf : first.IsFirst)
    (ho : stop.Opens d) : Script b frame n i stop asked os (d :: ds) := by
  generalize he : d :: ds = ds' at h
  have sent {a : String} {c : ConnId} {way rest : List Deed} {q : Option Claim} {k : Claim}
      (hw : Stop.Leads first a c way) (he : d :: ds = way ++ attempt frame a c q k ++ rest) :
      Stop.Leads stop a c way := by
    obtain ⟨k', frame', tail, ha⟩ := attempt_eq_cons frame a c q k
    rw [ha, List.append_assoc, List.cons_append] at he
    exact hw.reopen hf ho he
  cases h with
  | nowhere =>
    cases he
    cases ho
    exact .nowhere
  | missed hr =>
    cases he
    cases ho
    exact .missed hr
  | refused hw hp =>
    rcases hp with rfl | ⟨hask, q, rfl⟩
    · cases hw with
      | any =>
        cases he
        cases ho
        exact .refused .same (.inl rfl)
      | node =>
        cases he
        cases ho
        exact .refused .node (.inl rfl)
      | same => exact absurd rfl (hf _ _)
    · have hw' := hw.reopen hf ho (by rw [he, List.append_assoc]; rfl)
      exact .refused hw' (.inr ⟨hask, q, rfl⟩)
  | last hw hq hr => exact .last (sent hw he) hq hr
  | moved result hw hq hr next =>
    exact .moved result (sent hw (by rw [he, List.append_assoc])) hq hr next
  | ask hw hq hr next => exact .ask (sent hw (by rw [he, List.append_assoc])) hq hr next
  | again hw hq hr next => exact .again (sent hw (by rw [he, List.append_assoc])) hq hr next

theorem Script.eq_nil_of_concluded {o : Outcome}
    (h : Script b frame n i .any asked os (.concluded o :: ds)) : ds = [] := by
  generalize he : Deed.concluded o :: ds = ds' at h
  have sent {a : String} {c : ConnId} {way rest : List Deed} {q : Option Claim} {k : Claim}
      (hw : Stop.Leads .any a c way) (he : .concluded o :: ds = way ++ attempt frame a c q k ++ rest) :
      False := by
    obtain ⟨k', frame', tail, ha⟩ := attempt_eq_cons frame a c q k
    cases hw
    rw [ha] at he
    cases he
  cases h with
  | nowhere => cases he; rfl
  | refused hw hp =>
    cases hw
    rcases hp with rfl | ⟨-, q, rfl⟩ <;> cases he
  | last hw => exact (sent hw he).elim
  | moved _ hw | ask hw | again hw => exact (sent hw (by rw [he, List.append_assoc])).elim

end Script

namespace Router

variable {settings : ClusterSettings} {is js later : List Input} {i : Input} {r r' : Router}
  {log acts : List Action} {sending : Sending} {stop : Stop} {command : Command} {t : Task}

theorem course_append (r : Router) (id : TaskId) (js ks : List Input) :
    r.course id (js ++ ks) = r.course id js ++ (r.run js).1.course id ks := by
  induction js generalizing r with
  | nil => rfl
  | cons j js ih => simp [course, run, ih, List.append_assoc]

/-- A command that does not rest is left alone by all but its own steps. -/
theorem step_others (hf : Forest r) (ht : t ∈ r.tasks) (hj : t.job = .send sending)
    (hs : ∀ c, sending.stage ≠ .resting c) (hi : ∀ choice, i ≠ .step t.id choice) :
    t ∈ (r.step i).1.tasks ∧ r.deeds t.id i = [] := by
  by_cases hrest : i = .rested t.id
  · subst hrest
    have hjob : r.job? t.id = some (.send sending) := by rw [hf.job?_eq ht, hj]
    simp only [step, rested, deeds, hjob]
    exact ⟨ht, trivial⟩
  · exact ⟨(step_event r i).mem_of_ne hf ht (by rw [hj]; rfl) hi hrest, deeds_eq_nil hi hrest⟩

/-- A command waits to be routed until its task takes a step. -/
theorem Reaches.unrouted (h : Reaches settings is r log) (hl : r.AdmitsAll js) (ht : t ∈ r.tasks)
    (hj : t.job = .send sending) (hs : sending.stage = .route)
    (hjs : ∀ choice, .step t.id choice ∉ js) : t ∈ (r.run js).1.tasks ∧ r.course t.id js = [] := by
  induction js generalizing is r log with
  | nil => exact ⟨ht, rfl⟩
  | cons j js ih =>
    have hne (choice : Nat) : j ≠ .step t.id choice := by
      intro he
      exact hjs choice (he ▸ List.mem_cons_self)
    have hrest (c : ConnId) : sending.stage ≠ .resting c := by rw [hs]; nofun
    obtain ⟨ht', hd⟩ := step_others h.forest ht hj hrest hne
    obtain ⟨hmem, hcourse⟩ :=
      ih (h.step hl.1) hl.2 ht' fun choice hx => hjs choice (List.mem_cons_of_mem _ hx)
    refine ⟨hmem, ?_⟩
    rw [course, hd, hcourse]
    rfl

/-- A command at a stage has nothing to do but to get to a stop. -/
inductive Heads (r : Router) : SendStage → Stop → Prop
  | node {held d asked a} (hd : r.Dials d a) : Heads r (.reaching held d asked) (.node a)
  | same {a c} (ho : (c, a) ∈ r.opened) : Heads r (.submit c) (.same a c)

/-- The next thing that happens to it gives the stop away. -/
theorem Heads.step_own (hf : Forest r) (hc : Custody r log) (ht : t ∈ r.tasks)
    (hj : t.job = .send sending) (hh : Heads r sending.stage stop) (choice : Nat) :
    r.step (.step t.id choice) = (r, []) ∧ r.deeds t.id (.step t.id choice) = [] ∨
      ∃ d tail, r.deeds t.id (.step t.id choice) = d :: tail ∧ stop.Opens d := by
  have hjob : r.job? t.id = some (.send sending) := by rw [hf.job?_eq ht, hj]
  have hdeeds : r.deeds t.id (.step t.id choice) =
      r.takesUp sending ++ (r.step (.step t.id choice)).2.filterMap r.givesOut := by
    simp [deeds, hjob]
  rcases Router.step_own hf ht choice with ⟨hfree, hstep⟩ | ⟨job?, fresh, core, acts, hx, hstep⟩
  · refine .inl ⟨hstep, ?_⟩
    rw [hdeeds, takesUp_eq_nil hj hfree, hstep]
    rfl
  · refine .inr ?_
    rw [hdeeds, hstep]
    obtain ⟨id, root, job⟩ := t
    cases hj
    obtain ⟨command, frame, n, k, stage⟩ := sending
    cases hx with
    | send hx =>
      cases hh with
      | node hdial =>
        cases hx with
        | reach h hr | miss h hr =>
          cases h
          obtain ⟨u, -, hu, hju⟩ := hdial.exists_done hf hr
          rw [hu] at hju
          simp only [takesUp, hju]
          exact ⟨_, _, rfl, .node⟩
        | mute h => rcases h with h | h | ⟨_, h⟩ <;> cases h
        | route h | anywhere h | nowhere h | submit h | ask h | follow h | asked h | answer h | moved h
          | shift h | again h | refreshed h => cases h
      | same ho =>
        cases hx with
        | mute h hdown =>
          rcases h with h | h | ⟨_, h⟩ <;> cases h
          simp only [takesUp, hdown, if_true]
          exact ⟨_, _, rfl, .refused⟩
        | submit h hdown =>
          cases h
          have horigin := hc.origin_eq ho
          simp only [takesUp, hdown, Bool.false_eq_true, if_false, List.filterMap_cons, givesOut, horigin]
          exact ⟨_, _, rfl, .sent⟩
        | route h | anywhere h | nowhere h | reach h | miss h | ask h | follow h | asked h | answer h
          | moved h | shift h | again h | refreshed h => cases h

theorem Heads.step (h : Reaches settings is r log) (hi : r.Admits i) (ht : t ∈ r.tasks)
    (hj : t.job = .send sending) (hh : Heads r sending.stage stop) :
    t ∈ (r.step i).1.tasks ∧ Heads (r.step i).1 sending.stage stop ∧ r.deeds t.id i = [] ∨
      ∃ d tail, r.deeds t.id i = d :: tail ∧ stop.Opens d := by
  by_cases hown : ∃ choice, i = .step t.id choice
  · obtain ⟨choice, rfl⟩ := hown
    rcases hh.step_own h.forest h.custody ht hj choice with ⟨hstep, hd⟩ | hd
    · refine .inl ⟨?_, ?_, hd⟩
      · rw [hstep]
        exact ht
      · rw [hstep]
        exact hh
    · exact .inr hd
  · have hrest (c : ConnId) : sending.stage ≠ .resting c := by
      intro he
      rw [he] at hh
      cases hh
    obtain ⟨ht', hd⟩ := step_others h.forest ht hj hrest fun choice he => hown ⟨choice, he⟩
    have he := step_event r i
    refine .inl ⟨ht', ?_, hd⟩
    generalize hstage : sending.stage = stage at hh ⊢
    cases hh with
    | @node held d asked a hdial =>
      have hhelp : d ∈ t.job.helpers := by
        obtain ⟨_, _, _, _, _⟩ := sending
        cases hstage
        rw [hj]
        exact List.mem_singleton_self d
      obtain ⟨u, hu, hid, -⟩ := (h.forest.event he).helped t ht' d hhelp
      exact .node (hdial.event h.forest he ⟨u, hu, hid⟩)
    | same ho => exact .same ((h.custody.handover h.forest hi he).mem_opened ho)

theorem Reaches.first_deed (h : Reaches settings is r log) (hl : r.AdmitsAll js) (ht : t ∈ r.tasks)
    (hj : t.job = .send sending) (hh : Heads r sending.stage stop) :
    r.course t.id js = [] ∨ ∃ d tail, r.course t.id js = d :: tail ∧ stop.Opens d := by
  induction js generalizing is r log with
  | nil => exact .inl rfl
  | cons j js ih =>
    rw [course]
    rcases hh.step h hl.1 ht hj with ⟨ht', hh', hd⟩ | ⟨d, tail, hd, ho⟩
    · rw [hd, List.nil_append]
      exact ih (h.step hl.1) hl.2 ht' hh'
    · rw [hd]
      exact .inr ⟨d, _, rfl, ho⟩

/-- What happened to a command so far begins a script whose first attempt goes to a stop. -/
def Starts (settings : ClusterSettings) (command : Command) (stop : Stop) (ds : List Deed) : Prop :=
  ∃ os rest, Script settings.backoff (command.encode settings.connection.nulls)
    settings.maxRedirects.toNat 0 stop false os (ds ++ rest)

theorem starts_nil (settings : ClusterSettings) (command : Command) (stop : Stop) :
    Starts settings command stop [] := by
  cases stop with
  | any => exact ⟨_, _, .nowhere⟩
  | node a => exact ⟨_, _, .missed (e := .connectionClosed) rfl⟩
  | same a c => exact ⟨_, _, .refused .same (.inl rfl)⟩

theorem Reaches.scripted (h : Reaches settings is r log) (hl : (r.started command).AdmitsAll later) :
    ∃ first os rest, Stop.IsFirst first ∧
      Script settings.backoff (command.encode settings.connection.nulls) settings.maxRedirects.toNat 0
        first false os ((r.started command).course r.next later ++ rest) := by
  rcases h.sent hl with ⟨t, -, -, s, -, -, -, -, -, os, hu⟩ | ⟨-, -, -, first, os, o, hf, hs, -⟩
  · exact hu.begins
  · exact ⟨first, os ++ [o], [], hf, by rwa [List.append_nil]⟩

theorem Reaches.starts (h : Reaches settings is r log) (hl : (r.started command).AdmitsAll later)
    (hd : (r.started command).course r.next later = [] ∨
      ∃ d tail, (r.started command).course r.next later = d :: tail ∧ stop.Opens d) :
    Starts settings command stop ((r.started command).course r.next later) := by
  rcases hd with hd | ⟨d, tail, hd, ho⟩
  · rw [hd]
    exact starts_nil settings command stop
  · obtain ⟨first, os, rest, hf, hs⟩ := h.scripted hl
    rw [hd, List.cons_append] at hs
    rw [hd]
    exact ⟨os, rest, hs.reopen hf ho⟩

theorem of_pick {excluded : List String} {choice : Nat} {a : String} {c : ConnId}
    (h : r.pick excluded choice = some (a, c)) : (a, c) ∈ r.pool ∧ a ∉ excluded ∧ c ∉ r.down := by
  obtain ⟨hp, hc⟩ := List.mem_filter.mp (List.mem_of_getElem? h)
  simpa [hp, isDown] using hc

theorem excluded_or_down_of_pick {excluded : List String} {choice : Nat}
    (h : r.pick excluded choice = none) : ∀ e ∈ r.pool, e.1 ∈ excluded ∨ e.2 ∈ r.down := by
  intro e he
  by_contra hn
  have hmem : e ∈ r.candidates excluded := by
    refine List.mem_filter.mpr ⟨he, ?_⟩
    simpa [isDown] using hn
  have hlt := Nat.mod_lt choice (List.length_pos_of_mem hmem)
  cases h.symm.trans (List.getElem?_eq_getElem hlt)

theorem mem_of_pick_nil {choice : Nat} {a : String} {c : ConnId} (h : r.pick [] choice = some (a, c)) :
    (a, c) ∈ r.pool ∧ c ∉ r.down := ⟨(of_pick h).1, (of_pick h).2.2⟩

theorem down_of_pick_nil {choice : Nat} (h : r.pick [] choice = none) : ∀ e ∈ r.pool, e.2 ∈ r.down :=
  fun e he => (excluded_or_down_of_pick h e he).resolve_left nofun

theorem Reaches.starts_of_heads (h : Reaches settings is r log) {ks : List Input}
    (hl : (r.started command).AdmitsAll (js ++ ks)) (hnil : (r.started command).course r.next js = [])
    (ht : ⟨r.next, r.next, .send sending⟩ ∈ ((r.started command).run js).1.tasks)
    (hh : Heads ((r.started command).run js).1 sending.stage stop) :
    Starts settings command stop ((r.started command).course r.next (js ++ ks)) := by
  obtain ⟨hj, hk⟩ := admitsAll_append.mp hl
  have hm := (h.started command).run js hj
  have hfirst := hm.first_deed hk ht rfl hh
  refine h.starts hl ?_
  rw [course_append, hnil, List.nil_append]
  exact hfirst

/-- A command with no node to go to comes to an end at once. -/
theorem Reaches.course_eq_of_concluded (h : Reaches settings is r log) {ks : List Input} {o : Outcome}
    (hl : (r.started command).AdmitsAll (js ++ ks))
    (hend : (r.started command).course r.next js = [.concluded o]) :
    (r.started command).course r.next (js ++ ks) = [.concluded o] := by
  obtain ⟨first, os, rest, hf, hs⟩ := h.scripted hl
  rw [course_append, hend, List.singleton_append, List.cons_append] at hs
  have hnil := (hs.reopen hf .nowhere).eq_nil_of_concluded
  rw [course_append, hend, (List.append_eq_nil_iff.mp hnil).1]
  rfl

/-- Where a command starts is settled by its first step. -/
theorem Reaches.attempt (h : Reaches settings is r log) {js' : List Input} {choice : Nat}
    (hl : (r.started command).AdmitsAll (js ++ .step r.next choice :: js'))
    (hjs : ∀ choice', .step r.next choice' ∉ js) {r₁ : Router}
    (hr : r₁ = ((r.started command).run js).1) {ds : List Deed}
    (hds : ds = (r.started command).course r.next (js ++ .step r.next choice :: js')) :
    (∃ a, r₁.target? command choice = some a ∧ Starts settings command (.node a) ds) ∨
    r₁.target? command choice = none ∧
      ((∃ a c, r₁.pick [] choice = some (a, c) ∧ Starts settings command (.same a c) ds) ∨
        r₁.pick [] choice = none ∧ ds = [.concluded (.error .noConnection)]) := by
  have ht : ⟨r.next, r.next, r.sending command⟩ ∈ (r.started command).tasks :=
    List.mem_append_right _ (List.mem_singleton_self _)
  have hj := (admitsAll_append.mp hl).1
  obtain ⟨ht₁, hnil⟩ := (h.started command).unrouted hj ht rfl rfl hjs
  have hm := (h.started command).run js hj
  rw [← hr] at hm ht₁
  obtain ⟨s', fresh, acts, hx, hg, hstep⟩ := step_route hm.forest ht₁ rfl choice
  have mem := fun u => hm.forest.mem_turn (u := u) ht₁ hg
  -- The step that routes the command is the last one of what came so far.
  rw [List.append_cons] at hl hds
  have hrun : ((r.started command).run (js ++ [.step r.next choice])).1 =
      r₁.turn ⟨r.next, r.next, r.sending command⟩ (s'.map .send) fresh := by
    rw [run_concat, ← hr]
    exact congrArg Prod.fst hstep
  have hcourse : (r.started command).course r.next (js ++ [.step r.next choice]) =
      acts.filterMap r₁.givesOut := by
    have hjob := hm.forest.job?_eq ht₁
    simp only [Router.sending] at hjob
    rw [course_concat, hnil, ← hr]
    simp only [deeds, hjob, takesUp, hstep, if_true, List.nil_append]
  rw [hds]
  cases hx with
  | @route a ha =>
    refine .inl ⟨a, ha, h.starts_of_heads hl hcourse (hrun ▸ (mem _).mpr (.inr (.inl ⟨_, rfl, rfl⟩))) ?_⟩
    rw [hrun]
    refine .node ⟨⟨r₁.next, r.next, .dial a .seek⟩, ?_, rfl, _, rfl⟩
    exact (mem _).mpr (.inr (.inr (List.mem_singleton_self _)))
  | @anywhere a c hn hc =>
    refine .inr ⟨hn, .inl ⟨a, c, hc,
      h.starts_of_heads hl hcourse (hrun ▸ (mem _).mpr (.inr (.inl ⟨_, rfl, rfl⟩))) (.same ?_)⟩⟩
    rw [hrun, turn_eq]
    exact hm.custody.stored _ (mem_of_pick hc)
  | nowhere hn hc => exact .inr ⟨hn, .inr ⟨hc, h.course_eq_of_concluded hl hcourse⟩⟩

/-- Routing respects the table and the replica policy. At the step that routes a command, a table is in
place. If it gives the command's slot to a shard, the first attempt goes to a member that may serve it.
If it does not, or if there is no slot, the attempt goes to a live connection of the pool, and the
command comes to nothing exactly if there is none. Selection stays within the shard, and each member
that may serve a command can be selected. As long as no other table is installed, every write to a slot
starts at the master that the table gives it. -/
theorem routing_respects_table (h : Reaches settings is r log) {js' : List Input} {choice : Nat}
    (hl : (r.started command).AdmitsAll (js ++ .step r.next choice :: js'))
    (hjs : ∀ choice', .step r.next choice' ∉ js) :
    let r₁ := ((r.started command).run js).1
    let ds := (r.started command).course r.next (js ++ .step r.next choice :: js')
    (∀ slot shard, command.slot = some slot → r₁.table.shard? slot.val = some shard →
      ∃ k a, Eligible settings.replicas command.readOnly shard.length k ∧ shard[k]? = some a ∧
        Starts settings command (.node a) ds) ∧
    ((∀ slot, command.slot = some slot → r₁.table.shard? slot.val = none) →
      (∃ e ∈ r₁.pool, e.2 ∉ r₁.down ∧ Starts settings command (.same e.1 e.2) ds) ∨
        (∀ e ∈ r₁.pool, e.2 ∈ r₁.down) ∧ ds = [.concluded (.error .noConnection)]) ∧
    (∀ slot shard, r₁.table.shard? slot = some shard → ∀ policy readOnly k,
      Eligible policy readOnly shard.length k ↔
        ∃ choice, selectNode policy readOnly shard.length choice = k) ∧
    ∀ before between slot master replicas, is ++ .send command :: js = before ++ between →
      (after settings before).installs between = [] → command.slot = some slot →
      command.readOnly = false →
      (after settings before).table.shard? slot.val = some (master :: replicas) →
      Starts settings command (.node master) ds := by
  intro r₁ ds
  obtain ⟨hj, -, -⟩ := admitsAll_append.mp hl
  have hm : Reaches settings _ r₁ _ := (h.started command).run js hj
  have hattempt := h.attempt hl hjs (rfl : r₁ = _) (rfl : ds = _)
  have htarget := hm.target?_cases command choice
  have assigned : ∀ slot shard, command.slot = some slot → r₁.table.shard? slot.val = some shard →
      ∃ k a, Eligible settings.replicas command.readOnly shard.length k ∧ shard[k]? = some a ∧
        Starts settings command (.node a) ds := by
    intro slot shard hslot hshard
    rcases htarget with ⟨slot', shard', a, hslot', hshard', hmem, ha⟩ | ⟨hnone, -⟩
    · cases hslot.symm.trans hslot'
      cases hshard.symm.trans hshard'
      have hpos := List.length_pos_iff.mpr (hm.shard_ne_nil hshard)
      rcases hattempt with ⟨a', ha', hs⟩ | ⟨hn, -⟩
      · cases ha.symm.trans ha'
        refine ⟨_, a, (eligible_iff hpos _ _ _).mpr ⟨choice, rfl⟩, ?_, hs⟩
        rw [← hm.settings]
        exact hmem
      · cases ha.symm.trans hn
    · cases hshard.symm.trans (hnone slot hslot)
  refine ⟨assigned, ?_, ?_, ?_⟩
  · intro hnone
    rcases htarget with ⟨slot, shard, a, hslot, hshard, -, -⟩ | ⟨-, hn⟩
    · cases hshard.symm.trans (hnone slot hslot)
    · rcases hattempt with ⟨a, ha, -⟩ | ⟨-, ⟨a, c, hpick, hs⟩ | ⟨hpick, hd⟩⟩
      · cases ha.symm.trans hn
      · obtain ⟨hmem, hlive⟩ := mem_of_pick_nil hpick
        exact .inl ⟨(a, c), hmem, hlive, hs⟩
      · exact .inr ⟨down_of_pick_nil hpick, hd⟩
  · intro slot shard hshard policy readOnly k
    exact eligible_iff (List.length_pos_iff.mpr (hm.shard_ne_nil hshard)) policy readOnly k
  · intro before between slot master replicas his hinst hslot hwrite hshard
    -- Nothing was installed since `before`, so the command is routed by the table of that time.
    rw [← List.singleton_append, ← List.append_assoc] at his
    rw [his] at hm
    obtain ⟨log', hb, hbl, hr⟩ := hm.cut
    have htable : r₁.table = (after settings before).table := by rw [hr, hb.table_run hbl hinst]
    obtain ⟨k, a, hk, ha, hs⟩ := assigned slot _ hslot (by rw [htable, hshard])
    rw [hwrite] at hk
    rw [hk.eq_zero] at ha
    cases ha
    exact hs

def reading : ClusterSettings := { seeds := ["a:1", "b:2"], replicas := .always }

/-- The first slots belong to one master, which has a replica. -/
def replicated : Reply :=
  .multi (some [.multi (some [.integer 0, .integer 9, .multi (some [.status "a", .integer 1]),
    .multi (some [.status "b", .integer 2])])])

/-- Both nodes get into the pool, and the first one is asked for the slots. -/
def connecting : List Input :=
  [.opening, .step 0 0, .step 1 0, .step 2 0, .dialed 1 (.ok 0), .dialed 2 (.ok 1), .step 1 0, .step 1 0,
    .step 1 0, .reply 3 (.ok (.status "OK")), .step 1 0, .step 1 0, .step 2 0, .step 2 0, .step 2 0,
    .reply 4 (.ok (.status "OK")), .step 2 0, .step 2 0, .step 0 0, .step 5 0, .step 5 0, .step 5 0,
    .step 5 0]

/-- It answers, its table is installed, and the client is open. -/
def answering : List Input :=
  [.reply 6 (.ok replicated), .step 5 0, .step 5 0, .step 5 0, .step 5 0, .step 5 0, .step 5 0, .step 0 0]

theorem replicated_loads : ∃ table, SlotTable.load (Address.hostOf "a:1") replicated = .ok table ∧
    table.addresses = ["a:1", "b:2"] ∧ table.shard? 3 = some ["a:1", "b:2"] := by
  have hok : (SlotTable.load (Address.hostOf "a:1") replicated).toOption.map
      (fun table => (table.shards.toList.flatten.eraseDups, table.shard? 3)) =
        some (["a:1", "b:2"], some ["a:1", "b:2"]) := by decide +kernel
  generalize SlotTable.load (Address.hostOf "a:1") replicated = loaded at hok
  cases loaded with
  | error e => cases hok
  | ok table =>
    obtain ⟨hnodes, hshard⟩ := Prod.mk.inj (Option.some.inj hok)
    exact ⟨table, rfl, SlotTable.addresses_eq_of_sorted hnodes (by decide +kernel), hshard⟩

theorem connecting_asks : after reading connecting =
    { settings := reading, pool := [("a:1", 0), ("b:2", 1)], opened := [(0, "a:1"), (1, "b:2")], next := 7,
      lock := [5], tasks := [⟨0, 0, .opening (.loading 5)⟩, ⟨5, 0, .refresh (.awaiting [] "a:1" 0 6)⟩] } :=
  rfl

/-- The client is open, and the table that it has is the answer. -/
theorem answering_installs : ∃ table, table.shard? 3 = some ["a:1", "b:2"] ∧
    (after reading connecting).AdmitsAll answering ∧ after reading (connecting ++ answering) =
      { settings := reading, pool := [("a:1", 0), ("b:2", 1)], table := table, next := 7,
        opened := [(0, "a:1"), (1, "b:2")] } := by
  obtain ⟨table, hT, ha, hshard⟩ := replicated_loads
  refine ⟨table, hshard, ?_, ?_⟩
  · rw [connecting_asks]
    simp [answering, AdmitsAll, Admits]
  · rw [after, run_append, ← after, connecting_asks]
    simp [answering, Router.run, step, stepTask, stepRefresh, stepOpening, setJob, job?, mail?, takeMail, hT,
      missing, ha, live?, pooled?, isDown, spawnAll, endRefresh, refreshResult?, remove, Router.finish]

def storing : Command := (Command.ofName "SET").key (Bytes.ofText "raw")

def fetching : Command := (Command.ofName "GET").key (Bytes.ofText "raw")

/-- A command is routed, gets to its node and is submitted there. -/
def attempting : List Input := [.step 7 0, .step 8 0, .step 7 0, .step 7 0]

/-- A write goes to the master, a read to the replica, and a command without a key to either of them. -/
theorem routing_respects_table_replicated :
    let r := after reading (connecting ++ answering)
    Starts reading storing (.node "a:1") ((r.started storing).course 7 attempting) ∧
      Starts reading fetching (.node "b:2") ((r.started fetching).course 7 attempting) ∧
      ∃ e ∈ [("a:1", 0), ("b:2", 1)], Starts reading (Command.ofName "PING") (.same e.1 e.2)
        ((r.started (Command.ofName "PING")).course 7 attempting) := by
  intro r
  obtain ⟨table, hshard, hl, hr⟩ := answering_installs
  have h : Reaches reading (connecting ++ answering) r _ :=
    (Reaches.start.run connecting (by decide +kernel)).run answering hl
  have hslot : storing.slot = some 3 ∧ fetching.slot = some 3 ∧ (Command.ofName "PING").slot = none := by
    decide +kernel
  have hnext : r.next = 7 := congrArg Router.next hr
  have hcourse (command : Command) : (r.started command).course 7 attempting =
      (r.started command).course r.next ([] ++ .step r.next 0 :: [.step 8 0, .step 7 0, .step 7 0]) := by
    rw [hnext]
    rfl
  have hadmits (command : Command) :
      (r.started command).AdmitsAll ([] ++ .step r.next 0 :: [.step 8 0, .step 7 0, .step 7 0]) :=
    ⟨trivial, trivial, trivial, trivial, trivial⟩
  have htable : r.table.shard? 3 = some ["a:1", "b:2"] := by
    rw [congrArg Router.table hr]
    exact hshard
  have hread : storing.readOnly = false ∧ fetching.readOnly = true := by decide +kernel
  simp only [hcourse]
  refine ⟨?_, ?_, ?_⟩
  · obtain ⟨-, -, -, hwrite⟩ := routing_respects_table h (hadmits storing) nofun
    exact hwrite (connecting ++ answering) [.send storing] 3 "a:1" ["b:2"] rfl rfl hslot.1 hread.1 htable
  · obtain ⟨hassigned, -, -, -⟩ := routing_respects_table h (hadmits fetching) nofun
    obtain ⟨k, a, hk, ha, hs⟩ := hassigned 3 _ hslot.2.1 htable
    rw [hread.2] at hk
    obtain ⟨hlt, hge⟩ : k < 2 ∧ 1 ≤ k := hk
    obtain rfl : k = 1 := by omega
    cases ha
    exact hs
  · obtain ⟨-, hany, -, -⟩ := routing_respects_table h (hadmits (Command.ofName "PING")) nofun
    have hpool : r.pool = [("a:1", 0), ("b:2", 1)] := congrArg Router.pool hr
    have hdown : r.down = [] := congrArg Router.down hr
    rcases hany (by rw [hslot.2.2]; nofun) with ⟨e, he, -, hs⟩ | ⟨hnone, -⟩
    · exact ⟨e, hpool ▸ he, hs⟩
    · have hmem : ("a:1", 0) ∈ r.pool := by
        rw [hpool]
        exact List.mem_cons_self
      have hd : 0 ∈ r.down := hnone ("a:1", 0) hmem
      rw [hdown] at hd
      cases hd

end Router

end RespClient.Cluster
