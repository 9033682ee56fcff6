import RespClient.Proofs.Cluster.Router.Custody

namespace RespClient.Cluster

namespace Router

variable {s : ClusterSettings} {is later : List Input} {r r' : Router} {log acts : List Action}
  {a : String} {c : ConnId}

namespace Custody

variable (hc : Custody r log)

include hc

theorem pool_inj {e e' : String × ConnId} (he : e ∈ r.pool) (he' : e' ∈ r.pool) (h : e.2 = e'.2) :
    e = e' := by
  have := List.inj_on_of_nodup_map hc.opened (hc.stored e he) (hc.stored e' he') h
  exact Prod.ext (Prod.mk.inj this).2 h

/-- A connection that is kept alive is in somebody's hands. -/
theorem of_holds (h : c ∈ r.holds) : c ∈ r.pool.map (·.2) ∨
    (∃ t ∈ r.tasks, ∃ a, t.job.own? = some (a, c)) ∨ c ∈ r.down ∨ r.Dismissed log c := by
  rcases List.mem_append.mp h with h | h
  · exact .inl h
  · obtain ⟨t, ht, h⟩ := List.mem_flatMap.mp h
    rcases Job.mem_holds.mp h with ⟨a, ha⟩ | hb
    · exact .inr (.inl ⟨t, ht, a, ha⟩)
    · rcases (hc.borrowed t ht c hb).2 with h | h | h
      · exact .inl h
      · exact .inr (.inr (.inl h))
      · exact .inr (.inr (.inr h))

end Custody

/-- A refresh that has connections to close waits for nothing. -/
theorem isFree_of_evicts {t : Task} (h : c ∈ t.job.evicts) : r.isFree t = true := by
  obtain ⟨id, root, job⟩ := t
  cases job with
  | refresh stage => cases stage <;> first | rfl | cases h
  | _ => cases h

/-- The connection was in the pool and is not there any more. -/
structure Left (r : Router) (c : ConnId) : Prop where
  opened : c ∈ r.opened.map (·.1)
  unpooled : c ∉ r.pool.map (·.2)
  unowned : ∀ t ∈ r.tasks, ∀ e, t.job.own? = some e → e.2 ≠ c

theorem Left.handover (hl : Left r c) (h : Handover r r' acts) : Left r' c where
  opened := by
    obtain ⟨e, he, rfl⟩ := List.mem_map.mp hl.opened
    exact List.mem_map_of_mem (h.mem_opened he)
  unpooled hp := by
    obtain ⟨e, he, rfl⟩ := List.mem_map.mp hp
    rcases h.enters e he with he | ⟨t, ht, ho, -⟩
    · exact hl.unpooled (List.mem_map_of_mem he)
    · exact hl.unowned t ht e ho rfl
  unowned u hu e he hec := by
    subst hec
    rcases h.own u hu e he with ⟨t, ht, -, ho⟩ | ⟨hn, -⟩
    · exact hl.unowned t ht e ho rfl
    · exact hn hl.opened

/-- A live connection that leaves the pool never gets back into it. -/
theorem Handover.stays (h : Handover r r' acts) (hc : Custody r log) {e : String × ConnId}
    (he : e ∈ r.pool) : e ∈ r'.pool ∨ e.2 ∈ r'.down ∨ Left r' e.2 := by
  by_cases hp : e ∈ r'.pool
  · exact .inl hp
  rcases h.leaves e he with h' | h' | -
  · exact .inl h'
  · exact .inr (.inl (h.down _ h'))
  have ho := List.mem_map_of_mem (f := (·.1)) (hc.stored e he)
  refine .inr (.inr ⟨?_, fun hp' => ?_, fun u hu e' he' hee => ?_⟩)
  · exact List.mem_map_of_mem (h.mem_opened (hc.stored e he))
  · obtain ⟨e', he', hee⟩ := List.mem_map.mp hp'
    rcases h.enters e' he' with h' | ⟨t, ht, ho', -⟩
    · exact hp (hc.pool_inj h' he hee ▸ he')
    · exact hc.unpooled t ht e' ho' (hee ▸ List.mem_map_of_mem he)
  · rcases h.own u hu e' he' with ⟨t, ht, -, ho'⟩ | ⟨hn, -⟩
    · exact hc.unpooled t ht e' ho' (hee ▸ List.mem_map_of_mem he)
    · exact hn (hee ▸ ho)

/-- As long as a connection stands in the pool, every dial to its address comes to it. -/
theorem Reaches.reached_pooled (h : Reaches s is r log) (hl : r.AdmitsAll later) (hp : (a, c) ∈ r.pool)
    (hp' : (a, c) ∈ (r.run later).1.pool) (hd : c ∉ (r.run later).1.down) {u : Task}
    (hu : u ∈ (r.run later).1.tasks) {c' : ConnId} (hr : u.job.reached? = some (a, c')) :
    c' = c ∨ ∃ t ∈ r.tasks, t.id = u.id ∧ t.job.reached? = some (a, c') := by
  have key := h.induct_run (P := fun _ r' _ => c ∈ r'.down ∨ Left r' c ∨ (a, c) ∈ r'.pool ∧
      ∀ u ∈ r'.tasks, ∀ c', u.job.reached? = some (a, c') → c' = c ∨
        ∃ t ∈ r.tasks, t.id = u.id ∧ t.job.reached? = some (a, c')) hl
    (.inr (.inr ⟨hp, fun u hu c' hr => .inr ⟨u, hu, rfl, hr⟩⟩)) fun _ hm ih hi => by
      have hx := hm.custody.handover hm.forest hi (step_event _ _)
      rcases ih with ih | ih | ⟨hp, ih⟩
      · exact .inl (hx.down _ ih)
      · exact .inr (.inl (ih.handover hx))
      · rcases hx.stays hm.custody hp with h' | h' | h'
        · refine .inr (.inr ⟨h', fun u hu c' hr => ?_⟩)
          rcases hx.reached u hu _ hr with ⟨t, ht, hid, hr⟩ | hr
          · exact (ih t ht c' hr).imp_right fun ⟨t', ht', hid', hr'⟩ => ⟨t', ht', hid'.trans hid, hr'⟩
          · have := List.inj_on_of_nodup_map hx.keys (mem_of_live? hr) h' rfl
            exact .inl (Prod.mk.inj this).2
        · exact .inl h'
        · exact .inr (.inl h')
  rcases key with h' | h' | ⟨-, h'⟩
  · exact absurd h' hd
  · exact absurd (List.mem_map.mpr ⟨_, hp', rfl⟩) h'.unpooled
  · exact h' u hu c' hr

/-- A dial that comes to another connection than its own has asked its own to close. -/
theorem Reaches.surplus_closed (h : Reaches s is r log) (hl : r.AdmitsAll later) {t u : Task}
    (ht : t ∈ r.tasks) (ho : t.job.own? = some (a, c)) (hu : u ∈ (r.run later).1.tasks)
    (hid : u.id = t.id) :
    c ∈ (r.run later).1.down ∨ .close c ∈ log ++ (r.run later).2 ∨ u.job.own? = some (a, c) ∨
      u.job.reached? = some (a, c) := by
  have key := h.induct_run (P := fun _ r' acts => t.id < r'.next ∧
      (c ∈ r'.down ∨ .close c ∈ log ++ acts ∨ ∀ u ∈ r'.tasks, u.id = t.id →
        u.job.own? = some (a, c) ∨ u.job.reached? = some (a, c))) hl
    ⟨h.forest.bound t ht, .inr (.inr fun u hu hid => .inl (h.forest.eq_of_id hu ht hid ▸ ho))⟩
    fun {js i} _ hm ⟨hb, ih⟩ hi => by
      have he := step_event (r.run js).1 i
      have hx := hm.custody.handover hm.forest hi he
      rw [← List.append_assoc]
      refine ⟨Nat.lt_of_lt_of_le hb he.next_le, ?_⟩
      rcases ih with ih | ih | ih
      · exact .inl (hx.down _ ih)
      · exact .inr (.inl (List.mem_append_left _ ih))
      by_cases hv : ∃ v ∈ (r.run js).1.tasks, v.id = t.id
      · obtain ⟨v, hv, hid⟩ := hv
        rcases ih v hv hid with ho | hr
        · rcases hx.releases v hv _ ho with h' | h' | h'
          · exact .inl (hx.down _ h')
          · exact .inr (.inl (List.mem_append_right _ h'))
          · exact .inr (.inr fun u hu hu' => h' u hu (hu'.trans hid.symm))
        · exact .inr (.inr fun u hu hu' => .inr (hx.keeps v hv _ hr u hu (hu'.trans hid.symm)))
      · refine .inr (.inr fun u hu hu' => absurd (he.exists_of_lt hm.forest hu (hu' ▸ hb)) ?_)
        exact hu' ▸ hv
  rcases key.2 with h' | h' | h'
  · exact .inl h'
  · exact .inr (.inl h')
  · exact .inr (.inr (h' u hu hid))

/-- A refresh does not leave before it has asked what it took out of the pool to close. -/
theorem Reaches.evicted_closed (h : Reaches s is r log) (hl : r.AdmitsAll later) {t : Task}
    (ht : t ∈ r.tasks) (hc : c ∈ t.job.evicts) : .close c ∈ log ++ (r.run later).2 ∨
      ∃ u ∈ (r.run later).1.tasks, u.id = t.id ∧ c ∈ u.job.evicts := by
  refine h.induct_run (P := fun _ r' acts => .close c ∈ log ++ acts ∨
    ∃ u ∈ r'.tasks, u.id = t.id ∧ c ∈ u.job.evicts) hl (.inr ⟨t, ht, rfl, hc⟩) fun _ hm ih hi => ?_
  have hx := hm.custody.handover hm.forest hi (step_event _ _)
  rw [← List.append_assoc]
  rcases ih with ih | ⟨u, hu, hid, hc⟩
  · exact .inl (List.mem_append_left _ ih)
  · rcases hx.evicts u hu c hc with ⟨v, hv, hid', hc⟩ | hc
    · exact .inr ⟨v, hv, hid'.trans hid, hc⟩
    · exact .inl (List.mem_append_right _ hc)

/-- No connection is leaked or held twice. Every connection that was opened and lives is pooled under
its address, or a dial to that address that is under way has it, or it was asked to close, or a refresh
that took it out of the pool is asking, or nobody holds it. That refresh waits for nothing, and asks
before it leaves. From then on, as long as the pooled connection of an address stays, every dial to that
address comes to it, and a dial that comes to another connection than its own has its own closed. -/
theorem connections_accounted_for (h : Reaches s is r log) :
    (r.pool.map (·.1)).Nodup ∧ (∀ e ∈ r.pool, r.origin e.2 = e.1) ∧
    (∀ e ∈ r.opened, e.1 ∉ r.down → (e.2, e.1) ∈ r.pool ∨
      (∃ t ∈ r.tasks, t.job.own? = some (e.2, e.1)) ∨ .close e.1 ∈ log ∨
      (∃ t ∈ r.tasks, e.1 ∈ t.job.evicts) ∨ e.1 ∉ r.holds) ∧
    ∀ later, r.AdmitsAll later →
      (∀ t ∈ r.tasks, ∀ c ∈ t.job.evicts, r.isFree t = true ∧ (.close c ∈ log ++ (r.run later).2 ∨
        ∃ u ∈ (r.run later).1.tasks, u.id = t.id ∧ c ∈ u.job.evicts)) ∧
      ∀ u ∈ (r.run later).1.tasks, ∀ a w, u.job = .dial a (.done (.ok w)) →
        (∀ c, (a, c) ∈ r.pool → (a, c) ∈ (r.run later).1.pool → c ∉ (r.run later).1.down → w ≠ c →
          ∃ t ∈ r.tasks, t.id = u.id ∧ t.job.reached? = some (a, w)) ∧
        ∀ t ∈ r.tasks, t.id = u.id → ∀ c, t.job.own? = some (a, c) → w ≠ c →
          c ∈ (r.run later).1.down ∨ .close c ∈ log ++ (r.run later).2 := by
  have hc := h.custody
  refine ⟨hc.keys, fun e he => hc.origin_eq (hc.stored e he), fun e he hd => ?_, fun later hl =>
    ⟨fun t ht c hv => ⟨isFree_of_evicts hv, h.evicted_closed hl ht hv⟩,
      fun u hu a w hj => ⟨fun c hp hp' hd hw => ?_, fun t ht hid c ho hw => ?_⟩⟩⟩
  · by_cases hh : e.1 ∈ r.holds
    · rcases hc.of_holds hh with hp | ⟨t, ht, a, ho⟩ | h' | h' | hv
      · obtain ⟨e', he', hee⟩ := List.mem_map.mp hp
        have := List.inj_on_of_nodup_map hc.opened (hc.stored e' he') he hee
        exact .inl (this ▸ he')
      · have := List.inj_on_of_nodup_map hc.opened (hc.owned t ht _ ho) he rfl
        exact .inr (.inl ⟨t, ht, this ▸ ho⟩)
      · exact absurd h' hd
      · exact .inr (.inr (.inl h'))
      · exact .inr (.inr (.inr (.inl hv)))
    · exact .inr (.inr (.inr (.inr hh)))
  · have hr : u.job.reached? = some (a, w) := by rw [hj]; rfl
    exact (h.reached_pooled hl hp hp' hd hu hr).resolve_left hw
  · rcases h.surplus_closed hl ht ho hu hid.symm with h' | h' | h' | h'
    · exact .inl h'
    · exact .inr h'
    · simp [hj, Job.own?, DialStage.own?] at h'
    · simp [hj, Job.reached?, DialStage.reached?] at h'
      exact absurd h' hw

/-- Two seeds with one address: both are dialed before either connection is pooled. -/
def rivals : Router × List Action :=
  run { settings := { seeds := ["a:1", "a:1"] } }
    [.opening, .step 0 0, .step 1 0, .step 2 0, .dialed 1 (.ok 0), .dialed 2 (.ok 1),
      .step 1 0, .step 1 0, .step 1 0]

def yielding : List Input := [.step 2 0, .step 2 0, .step 2 0, .step 2 0]

theorem connections_accounted_for_rivals :
    rivals.1.pool = [("a:1", 0)] ∧ .close 1 ∈ rivals.2 ++ (rivals.1.run yielding).2 := by
  have h : Reaches _ _ rivals.1 rivals.2 := Reaches.start.run _ (by decide +kernel)
  have hl : rivals.1.AdmitsAll yielding := by decide +kernel
  have ht : ⟨2, 0, .dial "a:1" (.opened 1)⟩ ∈ rivals.1.tasks := List.mem_of_getElem? (i := 2) rfl
  have hu : ⟨2, 0, .dial "a:1" (.done (.ok 0))⟩ ∈ (rivals.1.run yielding).1.tasks :=
    List.mem_of_getElem? (i := 2) rfl
  have hd : 1 ∉ (rivals.1.run yielding).1.down := by decide +kernel
  have later := ((connections_accounted_for h).2.2.2 yielding hl).2 _ hu _ _ rfl
  exact ⟨rfl, (later.2 _ ht rfl 1 rfl (by decide)).resolve_left hd⟩

end Router

end RespClient.Cluster
