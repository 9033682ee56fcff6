import RespClient.Proofs.Cluster.Router.Calls
import RespClient.Proofs.Cluster.Router.Script
import RespClient.Proofs.Settings.Backoff

namespace RespClient.Cluster

/-- A stop to begin with: no connection is at hand yet. -/
def Stop.IsFirst (stop : Stop) : Prop := ∀ a c, stop ≠ .same a c

section Course

variable (b : Backoff) (frame : Bytes) (budget : Nat)

/-- After `ds` and the outcomes `os`, whatever is a script from here on makes up a whole one. -/
def Extends (n i : Nat) (stop : Stop) (asked : Bool) (os : List Outcome) (ds : List Deed) : Prop :=
  ∃ first, Stop.IsFirst first ∧ ∀ os' ds', Script b frame n i stop asked os' ds' →
    Script b frame budget 0 first false (os ++ os') (ds ++ ds')

/-- At each stage of a command with `n` attempts left after this one and `i` before it, what happened
so far begins a script. -/
inductive Underway (r : Router) : SendStage → Nat → Nat → List Outcome → List Deed → Prop
  | route : Underway r .route budget 0 [] []
  | reaching {held d asked a n i os ds} (hx : Extends b frame budget n i (.node a) asked os ds)
      (hd : r.Dials d a) : Underway r (.reaching held d asked) n i os ds
  | submit {stop a c way n i os ds} (hx : Extends b frame budget n i stop false os ds)
      (hw : Stop.Leads stop a c way) (ho : (c, a) ∈ r.opened) :
      Underway r (.submit c) n i os (ds ++ way)
  | submitAsking {stop a c way n i os ds} (hx : Extends b frame budget n i stop true os ds)
      (hw : Stop.Leads stop a c way) (ho : (c, a) ∈ r.opened) :
      Underway r (.submitAsking c) n i os (ds ++ way)
  | submitAsked {stop a c way q n i os ds} (hx : Extends b frame budget n i stop true os ds)
      (hw : Stop.Leads stop a c way) (ho : (c, a) ∈ r.opened) :
      Underway r (.submitAsked c q) n i os (ds ++ (way ++ [.asking a c q]))
  | awaitingAsking {stop a c way q k n i os ds} (hx : Extends b frame budget n i stop true os ds)
      (hw : Stop.Leads stop a c way) (ho : (c, a) ∈ r.opened) :
      Underway r (.awaitingAsking c q k) n i os (ds ++ (way ++ attempt frame a c (some q) k))
  | awaiting {stop asked a c way q k n i os ds} (hx : Extends b frame budget n i stop asked os ds)
      (hw : Stop.Leads stop a c way) (ho : (c, a) ∈ r.opened) (hq : q.isSome = asked) :
      Underway r (.awaiting c k) n i os (ds ++ (way ++ attempt frame a c q k))
  | refreshing {c target d n i os ds}
      (hx : ∀ result, Extends b frame budget n i (.node target) false os (ds ++ [.refreshed result])) :
      Underway r (.refreshing c target d) n i os ds
  | resting {a c n i os ds} (hx : Extends b frame budget n i (.same a c) false os (ds ++ [.rested]))
      (ho : (c, a) ∈ r.opened) : Underway r (.resting c) n i os ds

end Course

variable {b : Backoff} {frame : Bytes} {budget n i : Nat} {os : List Outcome} {ds : List Deed}
  {r r' core : Router} {stage : SendStage}

theorem Underway.mono (h : Underway b frame budget r stage n i os ds)
    (ho : ∀ e ∈ r.opened, e ∈ r'.opened)
    (hd : ∀ d a, r.Dials d a → (∀ held asked, stage ≠ .reaching held d asked) ∨ r'.Dials d a) :
    Underway b frame budget r' stage n i os ds := by
  cases h with
  | route => exact .route
  | reaching hx hd' => exact .reaching hx ((hd _ _ hd').resolve_left fun h => h _ _ rfl)
  | submit hx hw ho' => exact .submit hx hw (ho _ ho')
  | submitAsking hx hw ho' => exact .submitAsking hx hw (ho _ ho')
  | submitAsked hx hw ho' => exact .submitAsked hx hw (ho _ ho')
  | awaitingAsking hx hw ho' => exact .awaitingAsking hx hw (ho _ ho')
  | awaiting hx hw ho' hq => exact .awaiting hx hw (ho _ ho') hq
  | refreshing hx => exact .refreshing hx
  | resting hx ho' => exact .resting hx (ho _ ho')

theorem Extends.start {stop : Stop} (h : stop.IsFirst) :
    Extends b frame budget budget 0 stop false [] [] := ⟨stop, h, fun _ _ h => h⟩

theorem Extends.next {n' i' : Nat} {stop stop' : Stop} {asked asked' : Bool} {o : Outcome}
    {ds' : List Deed} (hx : Extends b frame budget n i stop asked os ds)
    (h : ∀ os'' ds'', Script b frame n' i' stop' asked' os'' ds'' →
      Script b frame n i stop asked (o :: os'') (ds' ++ ds'')) :
    Extends b frame budget n' i' stop' asked' (os ++ [o]) (ds ++ ds') := by
  obtain ⟨first, hf, hx⟩ := hx
  refine ⟨first, hf, fun os'' ds'' hs => ?_⟩
  simpa [List.append_assoc] using hx _ _ (h os'' ds'' hs)

theorem Extends.close {stop : Stop} {asked : Bool} {os' : List Outcome} {ds' : List Deed}
    (hx : Extends b frame budget n i stop asked os ds) (h : Script b frame n i stop asked os' ds') :
    ∃ first, Stop.IsFirst first ∧ Script b frame budget 0 first false (os ++ os') (ds ++ ds') := by
  obtain ⟨first, hf, hx⟩ := hx
  exact ⟨first, hf, hx _ _ h⟩

/-- The connection at hand may take no frame any more. -/
theorem Underway.refused {c : ConnId} (hu : Underway b frame budget r stage n i os ds)
    (h : stage = .submit c ∨ stage = .submitAsking c ∨ ∃ k, stage = .submitAsked c k) :
    ∃ first, Stop.IsFirst first ∧ Script b frame budget 0 first false
      (os ++ [.error .connectionClosed]) (ds ++ [.refused, .concluded (.error .connectionClosed)]) := by
  rcases h with rfl | rfl | ⟨k, rfl⟩
  · cases hu with
    | submit hx hw => simpa using hx.close (.refused hw (.inl rfl))
  · cases hu with
    | submitAsking hx hw => simpa using hx.close (.refused hw (.inl rfl))
  · cases hu with
    | submitAsked hx hw => simpa using hx.close (.refused hw (.inr ⟨rfl, _, rfl⟩))

/-- What happened so far is the beginning of a script. -/
theorem Underway.begins (h : Underway b frame budget r stage n i os ds) :
    ∃ first os' rest, Stop.IsFirst first ∧ Script b frame budget 0 first false os' (ds ++ rest) := by
  have fits {os' : List Outcome} {ds' rest : List Deed}
      (hx : ∃ first, Stop.IsFirst first ∧ Script b frame budget 0 first false os' ds')
      (he : ds' = ds ++ rest) : ∃ first os' rest, Stop.IsFirst first ∧
        Script b frame budget 0 first false os' (ds ++ rest) := by
    obtain ⟨first, hf, hx⟩ := hx
    exact ⟨first, os', rest, hf, he ▸ hx⟩
  -- The rest may be that the connection at hand, or the one that is dialed, is closed.
  cases h with
  | route => exact ⟨.any, _, _, nofun, .nowhere⟩
  | reaching hx => exact fits (hx.close (.missed (e := .connectionClosed) rfl)) rfl
  | submit hx hw ho => exact fits ((Underway.submit hx hw ho).refused (.inl rfl)) rfl
  | submitAsking hx hw ho =>
    exact fits ((Underway.submitAsking hx hw ho).refused (.inr (.inl rfl))) rfl
  | submitAsked hx hw ho =>
    exact fits ((Underway.submitAsked hx hw ho).refused (.inr (.inr ⟨_, rfl⟩))) rfl
  | awaitingAsking hx hw =>
    exact fits (hx.close (.last (o := .error .connectionClosed) hw rfl (.inl rfl)))
      (by rw [← List.append_assoc])
  | awaiting hx hw _ hq =>
    exact fits (hx.close (.last (o := .error .connectionClosed) hw hq (.inl rfl)))
      (by rw [← List.append_assoc])
  | refreshing hx =>
    exact fits ((hx (.ok ())).close (.missed (e := .connectionClosed) rfl)) (List.append_assoc ..)
  | resting hx => exact fits (hx.close (.refused .same (.inl rfl))) (List.append_assoc ..)

namespace Router

variable {id : TaskId} {choice : Nat} {s : Sending} {s' : Option Sending} {fresh : List Job}
  {log acts : List Action}

/-- What has become of a command after one more step of its task: it is under way with more deeds, or
it has come to an outcome, and its deeds make up a script. -/
def Goes (b : Backoff) (frame : Bytes) (budget : Nat) (r' : Router) (id : TaskId) (acts : List Action)
    (ds : List Deed) : Option Sending → Prop
  | some s => s.frame = frame ∧ s.budget + s.attempt = budget ∧ returned id acts = [] ∧
      ∃ os, Underway b frame budget r' s.stage s.budget s.attempt os ds
  | none => ∃ first os o, Stop.IsFirst first ∧ Script b frame budget 0 first false (os ++ [o]) ds ∧
      returned id acts = [o]

theorem SendTurn.goes (h : SendTurn r id choice s s' fresh core acts) (hf : Forest r)
    (hc : Custody r log) (he : ∀ u ∈ r.tasks, ∀ a e, u.job = .dial a (.done (.error e)) →
      e.replyText? = none)
    (hb : r.settings.backoff = b) (hn : budget < 2 ^ 32) (hs : s.frame = frame)
    (hsum : s.budget + s.attempt = budget)
    (hu : Underway b frame budget r s.stage s.budget s.attempt os ds)
    (ho : ∀ e ∈ r.opened, e ∈ r'.opened)
    (hd : ∀ a, fresh = [.dial a .seek] → r'.Dials core.next a) :
    Goes b frame budget r' id acts (ds ++ (r.takesUp s ++ acts.filterMap r.givesOut)) s' := by
  obtain ⟨command, frame', n, i, stage⟩ := s
  subst hs
  cases h with
  | route h ha =>
    cases h
    cases hu
    exact ⟨rfl, hsum, rfl, [], .reaching (.start (by simp [Stop.IsFirst])) (hd _ rfl)⟩
  | anywhere h _ hp =>
    cases h
    cases hu
    exact ⟨rfl, hsum, rfl, [], .submit (.start (by simp [Stop.IsFirst])) .any
      (ho _ (hc.stored _ (mem_of_pick hp)))⟩
  | nowhere h =>
    cases h
    cases hu
    exact ⟨.any, [], _, by simp [Stop.IsFirst], .nowhere, by simp [returned]⟩
  | @reach held d asking c h hr =>
    cases h
    cases hu with
    | reaching hx hd' =>
      obtain ⟨u, hu, hj, hj'⟩ := hd'.exists_done hf hr
      have ho' := ho _ (hc.reached u hu _ (by rw [hj]; rfl))
      simp only [takesUp, hj', hj, List.filterMap_nil, List.append_nil]
      cases asking with
      | true => exact ⟨rfl, hsum, rfl, _, .submitAsking hx .node ho'⟩
      | false => exact ⟨rfl, hsum, rfl, _, .submit hx .node ho'⟩
  | miss h hr =>
    cases h
    cases hu with
    | reaching hx hd' =>
      obtain ⟨u, hu, hj, hj'⟩ := hd'.exists_done hf hr
      obtain ⟨first, hf', hs⟩ := hx.close (.missed (he u hu _ _ hj))
      exact ⟨first, _, _, hf', by simpa [takesUp, hj', hj, givesOut] using hs, by simp [returned]⟩
  | mute h hdn =>
    obtain ⟨first, hf', hs⟩ := hu.refused h
    have htakes : r.takesUp ⟨command, frame', n, i, stage⟩ = [.refused] := by
      rcases h with rfl | rfl | ⟨k, rfl⟩ <;> simp [takesUp, hdn]
    exact ⟨first, _, _, hf', by simpa [htakes, givesOut] using hs, by simp [returned]⟩
  | submit h hdn =>
    cases h
    cases hu with
    | submit hx hw ho' =>
      have hu' := Underway.awaiting (k := r.next) (q := none) hx hw (ho _ ho') rfl
      exact ⟨rfl, hsum, rfl, _,
        by simpa [takesUp, hdn, givesOut, hc.origin_eq ho', attempt] using hu'⟩
  | ask h hdn =>
    cases h
    cases hu with
    | submitAsking hx hw ho' =>
      have hu' := Underway.submitAsked (q := r.next) hx hw (ho _ ho')
      exact ⟨rfl, hsum, rfl, _,
        by simpa [takesUp, hdn, givesOut, hc.origin_eq ho', Deed.asking_eq] using hu'⟩
  | @follow c q h hdn =>
    cases h
    cases hu with
    | submitAsked hx hw ho' =>
      have hu' := Underway.awaitingAsking (q := q) (k := r.next) hx hw (ho _ ho')
      exact ⟨rfl, hsum, rfl, _,
        by simpa [takesUp, hdn, givesOut, hc.origin_eq ho', attempt] using hu'⟩
  | asked h hm =>
    cases h
    cases hu with
    | awaitingAsking hx hw ho' =>
      exact ⟨rfl, hsum, rfl, _, by simpa [takesUp] using .awaiting hx hw (ho _ ho') rfl⟩
  | answer h hm hr =>
    cases h
    cases hu with
    | awaiting hx hw ho' hq =>
      obtain ⟨first, hf', hs⟩ := hx.close (.last hw hq hr)
      exact ⟨first, _, _, hf', by simpa [takesUp, hm, givesOut] using hs, by simp [returned]⟩
  | @moved c k o slot address h hm hr hn' =>
    cases h
    cases hu with
    | awaiting hx hw ho' hq =>
      obtain ⟨n, rfl⟩ := Nat.exists_eq_succ_of_ne_zero hn'
      refine ⟨rfl, by simp only at hsum ⊢; omega, rfl, os ++ [o], .refreshing fun result => ?_⟩
      have hx' := hx.next fun _ _ hs => .moved (k := k) result hw hq hr hs
      simpa [takesUp, hm, hc.origin_eq ho'] using hx'
  | @shift c k o slot address h hm hr hn' =>
    cases h
    cases hu with
    | awaiting hx hw ho' hq =>
      obtain ⟨n, rfl⟩ := Nat.exists_eq_succ_of_ne_zero hn'
      refine ⟨rfl, by simp only at hsum ⊢; omega, rfl, os ++ [o], .reaching ?_ (hd _ rfl)⟩
      have hx' := hx.next fun _ _ hs => .ask (k := k) hw hq hr hs
      simpa [takesUp, hm, hc.origin_eq ho'] using hx'
  | @again c k o h hm hr hn' =>
    cases h
    cases hu with
    | awaiting hx hw ho' hq =>
      obtain ⟨n, rfl⟩ := Nat.exists_eq_succ_of_ne_zero hn'
      refine ⟨rfl, by simp only at hsum ⊢; omega, rfl, os ++ [o], .resting ?_ (ho _ ho')⟩
      have hi : (i.toUInt32).toNat = i := Nat.mod_eq_of_lt (by simp only at hsum; omega)
      have hx' := hx.next fun _ _ hs => .again (k := k) hw hq hr hs
      simpa [takesUp, hm, givesOut, hb, Backoff.delay_toNat, hi] using hx'
  | refreshed h hr hw =>
    cases h
    cases hu with
    | refreshing hx =>
      have hnone : acts.filterMap r.givesOut = [] := by
        refine List.filterMap_eq_nil_iff.mpr fun x hx => ?_
        obtain ⟨text, rfl⟩ := hw x hx
        rfl
      have hret : returned id acts = [] := by
        refine List.filterMap_eq_nil_iff.mpr fun x hx => ?_
        obtain ⟨text, rfl⟩ := hw x hx
        rfl
      refine ⟨rfl, hsum, hret, os, ?_⟩
      simpa [takesUp, hr, hnone] using .reaching (hx _) (hd _ rfl)

theorem takesUp_eq_nil {t : Task} {s : Sending} (hj : t.job = .send s) (h : r.isFree t = false) :
    r.takesUp s = [] := by
  obtain ⟨tid, root, job⟩ := t
  cases hj
  obtain ⟨_, _, _, _, stage⟩ := s
  cases stage with
  | reaching held d asking =>
    simp only [isFree, dialResult?] at h
    simp only [takesUp]
    split at h <;> simp_all
  | awaiting c k =>
    simp only [isFree, Option.isSome_eq_false_iff, Option.isNone_iff_eq_none] at h
    simp only [takesUp, h]
  | refreshing c target d =>
    simp only [isFree, Option.isSome_eq_false_iff, Option.isNone_iff_eq_none] at h
    simp only [takesUp, h]
  | submit | submitAsking | submitAsked => cases h
  | route | awaitingAsking | resting => rfl

/-- A command that task `id` was started for, after `n` turns: it is under way, or it has come to an
outcome. -/
def Sent (b : Backoff) (frame : Bytes) (budget : Nat) (r : Router) (id : TaskId) (n : Nat)
    (acts : List Action) (ds : List Deed) : Prop :=
  (∃ t ∈ r.tasks, t.id = id ∧ ∃ s, t.job = .send s ∧ n + s.due ≤ 6 * (budget + 1) ∧
    Goes b frame budget r id acts ds (some s)) ∨
  id < r.next ∧ (∀ t ∈ r.tasks, t.id ≠ id) ∧ n ≤ 6 * (budget + 1) ∧
    Goes b frame budget r id acts ds none

theorem Goes.after {acts' : List Action} {s' : Option Sending} (h : returned id acts = [])
    (hg : Goes b frame budget r' id acts' ds s') :
    Goes b frame budget r' id (acts ++ acts') ds s' := by
  cases s' with
  | some s' =>
    obtain ⟨hf, hn, hr, hu⟩ := hg
    exact ⟨hf, hn, by rw [returned_append, h, hr, List.append_nil], hu⟩
  | none =>
    obtain ⟨first, os, o, hf, hs, hr⟩ := hg
    exact ⟨first, os, o, hf, hs, by rw [returned_append, h, hr, List.nil_append]⟩

theorem SendTurn.opened (h : SendTurn r id choice s s' fresh core acts) : core.opened = r.opened := by
  cases h <;> rfl

theorem Goes.step_own {t : Task} (hf : Forest r) (hc : Custody r log)
    (he : ∀ u ∈ r.tasks, ∀ a e, u.job = .dial a (.done (.error e)) → e.replyText? = none)
    (hb : r.settings.backoff = b) (hn : budget < 2 ^ 32) (ht : t ∈ r.tasks) (hj : t.job = .send s)
    (hs : n + s.due ≤ 6 * (budget + 1)) (hg : Goes b frame budget r t.id acts ds (some s))
    (choice : Nat) :
    Sent b frame budget (r.step (.step t.id choice)).1 t.id
      (n + (r.hasTurn t.id (.step t.id choice)).toNat) (acts ++ (r.step (.step t.id choice)).2)
      (ds ++ r.deeds t.id (.step t.id choice)) := by
  have hturn := Bool.toNat_le (r.hasTurn t.id (.step t.id choice))
  obtain ⟨id, root, job⟩ := t
  cases hj
  have hjob : r.job? id = some (.send s) := hf.job?_eq ht
  rcases Router.step_own hf ht choice with ⟨hfree, hstep⟩ | ⟨job?, fresh, core, acts', hx, hstep⟩
  · have hds : r.deeds id (.step id choice) = [] := by
      simp [deeds, hjob, hstep, takesUp_eq_nil rfl hfree]
    have hstay : r.hasTurn id (.step id choice) = false := by
      simp only [hasTurn, hf.find?_eq ht, hfree, Bool.and_false]
    rw [hstep, hds, hstay, List.append_nil, List.append_nil]
    exact .inl ⟨_, ht, rfl, s, rfl, hs, hg⟩
  · have hds : r.deeds id (.step id choice) = r.takesUp s ++ acts'.filterMap r.givesOut := by
      simp [deeds, hjob, hstep]
    rw [hstep, hds]
    cases hx with
    | @send _ _ _ _ s' _ _ _ hx =>
      obtain ⟨hframe, hsum, hret, os, hu⟩ := hg
      have hgrows : Grows r ⟨id, root, .send s⟩ (s'.map .send) fresh core := hx.grows
      have mem := fun u => hf.mem_turn (u := u) ht hgrows
      have ho : ∀ e ∈ r.opened, e ∈ (core.turn ⟨id, root, .send s⟩ (s'.map .send) fresh).opened := by
        rw [turn_eq, hx.opened]
        exact fun _ h => h
      have hnext := (hx.goes hf hc he hb hn hframe hsum hu ho fun a hfresh =>
        ⟨⟨core.next, root, .dial a .seek⟩, (mem _).mpr (.inr (.inr (by simp [hfresh, recruits]))), rfl,
          _, rfl⟩).after hret
      cases s' with
      | some s' =>
        have hdue := hx.due_lt
        exact .inl ⟨⟨id, root, .send s'⟩, (mem _).mpr (.inr (.inl ⟨_, rfl, rfl⟩)), rfl, s', rfl,
          by omega, hnext⟩
      | none =>
        have hdue := s.due_pos
        refine .inr ⟨?_, fun u hu' hid => ?_, by omega, hnext⟩
        · rw [turn_eq]
          exact Nat.lt_of_lt_of_le (hf.bound _ ht) (Nat.le_trans hgrows.next (Nat.le_add_right _ _))
        · cases hf.job_of_mem_turn ht hgrows hu' hid

/-- The rest that the command's own task asked for is over. -/
theorem Goes.step_rested {t : Task} (hf : Forest r) (ht : t ∈ r.tasks) (hj : t.job = .send s)
    (hs : n + s.due ≤ 6 * (budget + 1)) (hg : Goes b frame budget r t.id acts ds (some s)) :
    Sent b frame budget (r.step (.rested t.id)).1 t.id (n + (r.hasTurn t.id (.rested t.id)).toNat)
      (acts ++ (r.step (.rested t.id)).2) (ds ++ r.deeds t.id (.rested t.id)) := by
  obtain ⟨id, root, job⟩ := t
  cases hj
  have hturn := Bool.toNat_le (r.hasTurn id (.rested id))
  have hjob : r.job? id = some (.send s) := hf.job?_eq ht
  by_cases hc : ∃ c, s.stage = .resting c
  · obtain ⟨c, hc⟩ := hc
    obtain ⟨command, _, m, i, _⟩ := s
    cases hc
    obtain ⟨rfl, hsum, hret, os, hu⟩ := hg
    simp only [Sending.due, SendStage.due] at hs
    simp only [step, rested, hjob, deeds, if_true, List.append_nil]
    refine .inl ⟨⟨id, root, .send ⟨command, _, m, i, .submit c⟩⟩, ?_, rfl, _, rfl, ?_, rfl, hsum, hret,
      os, ?_⟩
    · exact List.mem_map.mpr ⟨_, ht, by simp⟩
    · simp only [Sending.due, SendStage.due]
      omega
    · cases hu with
      | resting hx ho => simpa using Underway.submit (r := r.setJob id _) hx .same ho
  · have hstep : r.step (.rested id) = (r, []) := by
      simp only [step, rested, hjob]
      split
      next c h => exact absurd ⟨c, h⟩ hc
      · rfl
    have hds : r.deeds id (.rested id) = [] := by
      simp only [deeds, hjob]
      split
      next c h => exact absurd ⟨c, h⟩ hc
      · rfl
    have hstay : r.hasTurn id (.rested id) = false := by
      simp only [hasTurn, hf.find?_eq ht]
      split
      next h => cases h; exact absurd ⟨_, rfl⟩ hc
      · rfl
    rw [hstep, hds, hstay, List.append_nil, List.append_nil]
    exact .inl ⟨_, ht, rfl, s, rfl, hs, hg⟩

theorem returned_eq_nil (h : ∀ result, .finish id result ∉ acts) : returned id acts = [] := by
  refine List.filterMap_eq_nil_iff.mpr fun x hx => ?_
  split
  next id' o =>
    split
    next hid => exact absurd (hid ▸ hx) (h _)
    · rfl
  · rfl

theorem deeds_eq_nil {i : Input} (hi : ∀ choice, i ≠ .step id choice) (hi' : i ≠ .rested id) :
    r.deeds id i = [] := by
  unfold deeds
  split
  · split
    · exact if_neg fun h => hi _ (by rw [h])
    · split
      · exact if_neg fun h => hi' (by rw [h])
      · rfl
    · rfl
  · rfl

/-- Whatever comes in, the command is under way or has come to its outcome. -/
theorem Sent.step {is : List Input} {settings : ClusterSettings} (h : Reaches settings is r log)
    (hn : budget < 2 ^ 32) (hs : Sent settings.backoff frame budget r id n acts ds) {i : Input}
    (hi : r.Admits i) :
    Sent settings.backoff frame budget (r.step i).1 id (n + (r.hasTurn id i).toNat)
      (acts ++ (r.step i).2) (ds ++ r.deeds id i) := by
  have he := step_event r i
  rcases hs with ⟨t, ht, rfl, s, hj, hdue, hg⟩ | ⟨hlt, hnone, hdue, hg⟩
  · by_cases hown : ∃ choice, i = .step t.id choice
    · obtain ⟨choice, rfl⟩ := hown
      exact hg.step_own h.forest h.custody h.dial_error (by rw [h.settings]) hn ht hj hdue choice
    by_cases hrest : i = .rested t.id
    · subst hrest
      exact hg.step_rested h.forest ht hj hdue
    obtain ⟨hframe, hsum, hret, os, hu⟩ := hg
    have hother (choice) : i ≠ .step t.id choice := fun hc => hown ⟨choice, hc⟩
    have hmem := he.mem_of_ne h.forest ht (by rw [hj]; rfl) hother hrest
    have hnil : returned t.id (r.step i).2 = [] := returned_eq_nil fun _ hx => hown (he.finish_mem hx)
    rw [deeds_eq_nil hother hrest, hasTurn_eq_false hother hrest, List.append_nil]
    refine .inl ⟨t, hmem, rfl, s, hj, hdue, hframe, hsum, by rw [returned_append, hret, hnil]; rfl, os,
      hu.mono (fun _ => (h.custody.handover h.forest hi he).mem_opened) fun d a hd => ?_⟩
    by_cases hr : ∃ held asked, s.stage = .reaching held d asked
    · refine .inr (hd.event h.forest he ?_)
      obtain ⟨held, asked, hr⟩ := hr
      have hh : d ∈ t.job.helpers := by
        obtain ⟨_, _, _, _, _⟩ := s
        cases hr
        rw [hj]
        exact List.mem_singleton_self d
      obtain ⟨u, hu, hid, -⟩ := (h.forest.event he).helped t hmem d hh
      exact ⟨u, hu, hid⟩
    · exact .inl fun held asked hr' => hr ⟨held, asked, hr'⟩
  · have hfind : (r.tasks.find? fun u => u.id == id) = none :=
      List.find?_eq_none.mpr fun u hu => by simpa using hnone u hu
    have hds : r.deeds id i = [] := by simp only [deeds, job?, hfind, Option.map_none]
    have hstay : r.hasTurn id i = false := by simp only [hasTurn, hfind]
    have hnil : returned id (r.step i).2 = [] := by
      refine returned_eq_nil fun result hx => ?_
      obtain ⟨choice, rfl⟩ := he.finish_mem hx
      simp only [Router.step, hfind] at hx
      cases hx
    rw [hds, hstay, List.append_nil]
    refine .inr ⟨Nat.lt_of_lt_of_le hlt he.next_le, fun u hu hid => ?_, hdue, ?_⟩
    · obtain ⟨v, hv, hvid⟩ := he.exists_of_lt h.forest hu (hid ▸ hlt)
      exact hnone v hv (hvid.trans hid)
    · obtain ⟨first, os, o, hf, hs, hr⟩ := hg
      exact ⟨first, os, o, hf, hs, by rw [returned_append, hr, hnil]; rfl⟩

/-- The router once a command was sent. Its task has the number that was the next one. -/
def started (r : Router) (command : Command) : Router := (r.step (.send command)).1

section

variable {settings : ClusterSettings} {is later : List Input} {command : Command}

theorem Reaches.started (h : Reaches settings is r log) (command : Command) :
    Reaches settings (is ++ [.send command]) (r.started command) log := by
  have hs := h.step (i := .send command) trivial
  change Reaches settings _ (r.started command) (log ++ []) at hs
  rwa [List.append_nil] at hs

theorem Reaches.sent (h : Reaches settings is r log) (hl : (r.started command).AdmitsAll later) :
    Sent settings.backoff (command.encode settings.connection.nulls) settings.maxRedirects.toNat
      ((r.started command).run later).1 r.next ((r.started command).turns r.next later)
      ((r.started command).run later).2 ((r.started command).course r.next later) := by
  have hset := h.settings
  refine (h.started command).induct_run
    (P := fun js r' acts => Sent settings.backoff (command.encode settings.connection.nulls)
      settings.maxRedirects.toNat r' r.next ((r.started command).turns r.next js) acts
      ((r.started command).course r.next js)) hl ?_ fun _ h hs hi => ?_
  · refine .inl ⟨⟨r.next, r.next, r.sending command⟩, ?_, rfl, _, rfl, ?_, ?_, ?_, rfl, [], ?_⟩
    · exact List.mem_append_right _ (List.mem_singleton_self _)
    · simp only [turns, Sending.due, SendStage.due, hset]
      omega
    · simp [hset]
    · simp [hset]
    · simpa [hset, course] using Underway.route
  · rw [course_concat, turns_concat]
    exact hs.step h (UInt32.toNat_lt _) hi

/-- A command follows redirects within one budget. What its task does makes up a script, with one
outcome for each attempt, and each answer is a reply to the frame of that attempt. All attempts but the
last one come to a redirect; the last one does not, or it spends the budget. Its outcome is returned,
once, and then the task is gone. Until then it is not stuck, and it takes at most six turns for each
attempt. -/
theorem send_follows_redirects (h : Reaches settings is r log)
    (hl : (r.started command).AdmitsAll later) :
    ∃ first os o rest, Stop.IsFirst first ∧
      Script settings.backoff (command.encode settings.connection.nulls) settings.maxRedirects.toNat 0
        first false (os ++ [o]) ((r.started command).course r.next later ++ rest) ∧
      (∀ k o, .answered k o ∈ (r.started command).course r.next later →
        .reply k o ∈ is ++ [.send command] ++ later) ∧
      (∀ x ∈ os, Outcome.redirect? x ≠ none) ∧ os.length ≤ settings.maxRedirects.toNat ∧
      (Outcome.redirect? o = none ∨ os.length = settings.maxRedirects.toNat) ∧
      (r.started command).turns r.next later ≤ 6 * (settings.maxRedirects.toNat + 1) ∧
      (rest = [] ∧ returned r.next ((r.started command).run later).2 = [o] ∧
          (∀ t ∈ ((r.started command).run later).1.tasks, t.id ≠ r.next) ∨
        returned r.next ((r.started command).run later).2 = [] ∧
          ∃ t ∈ ((r.started command).run later).1.tasks, t.id = r.next ∧
            Moves ((r.started command).run later).1 t) := by
  have hans (k : Claim) (o : Outcome) (ha : .answered k o ∈ (r.started command).course r.next later) :=
    (h.started command).answered hl ha
  rcases h.sent hl with ⟨t, ht, hid, s, hj, hdue, -, -, hret, os, hu⟩ | ⟨-, hnone, hdue, hg⟩
  · obtain ⟨first, os', rest, hf, hs⟩ := hu.begins
    obtain ⟨os, o, -, rfl, -, hr, hb, ho⟩ := hs.outcomes
    have hm := ((h.started command).run later hl).moves ht (by rw [hj]; rfl)
    exact ⟨first, os, o, rest, hf, hs, hans, hr, hb, ho, by omega, .inr ⟨hret, t, ht, hid, hm⟩⟩
  · obtain ⟨first, os, o, hf, hs, hret⟩ := hg
    obtain ⟨os', o', -, he, -, hr, hb, ho⟩ := hs.outcomes
    obtain ⟨rfl, ho'⟩ := List.append_inj' he rfl
    cases ho'
    exact ⟨first, os, o, [], hf, by rwa [List.append_nil], hans, hr, hb, ho, hdue,
      .inl ⟨rfl, hret, hnone⟩⟩

end

/-- A router with one node in its pool, and one redirect to follow. -/
def settled : Router × List Action :=
  run { settings := { seeds := ["a:1"], maxRedirects := 1 } }
    [.opening, .step 0 0, .step 1 0, .dialed 1 (.ok 0), .step 1 0, .step 1 0, .step 1 0]

def tryLater : Outcome := .error (.reply "TRYAGAIN")

/-- The node sends a command to another one, and that one has no time for it. -/
def detour : List Input :=
  [.step 2 0, .step 2 0, .reply 3 (.error (.reply "ASK 5 b:2")), .step 2 0, .step 4 0,
    .dialed 4 (.ok 1), .step 4 0, .step 4 0, .step 4 0, .step 2 0, .step 2 0, .step 2 0,
    .reply 5 (.ok (.integer 1)), .step 2 0, .reply 6 tryLater, .step 2 0]

theorem send_follows_redirects_detour : ∃ first os, Stop.IsFirst first ∧ os.length = 1 ∧
    Script {} ((Command.ofName "PING").encode .emptyBulk) 1 0 first false (os ++ [tryLater])
      ((settled.1.started (Command.ofName "PING")).course 2 detour) := by
  have h : Reaches _ _ settled.1 settled.2 := Reaches.start.run _ (by decide +kernel)
  have hl : (settled.1.started (Command.ofName "PING")).AdmitsAll detour := by decide +kernel
  have hret : returned 2 ((settled.1.started (Command.ofName "PING")).run detour).2 = [tryLater] := rfl
  obtain ⟨first, os, o, rest, hf, hs, -, -, -, ho, -, ⟨rfl, hr, -⟩ | ⟨hr, -⟩⟩ :=
    send_follows_redirects h hl
  · cases hret.symm.trans hr
    refine ⟨first, os, hf, ho.resolve_left (by decide +kernel), ?_⟩
    rw [List.append_nil] at hs
    exact hs
  · cases hret.symm.trans hr

end Router

end RespClient.Cluster
