import RespClient.Proofs.Cluster.Router.Handover

namespace RespClient.Cluster

namespace Router

variable {s : ClusterSettings} {is : List Input} {r r' : Router} {log acts : List Action}
  {c : ConnId}

/-- The connection was asked to close, or a refresh is about to ask it. -/
def Dismissed (r : Router) (log : List Action) (c : ConnId) : Prop :=
  .close c ∈ log ∨ ∃ t ∈ r.tasks, c ∈ t.job.evicts

structure Custody (r : Router) (log : List Action) : Prop where
  opened : (r.opened.map (·.1)).Nodup
  keys : (r.pool.map (·.1)).Nodup
  stored : ∀ e ∈ r.pool, (e.2, e.1) ∈ r.opened
  owned : ∀ t ∈ r.tasks, ∀ e, t.job.own? = some e → (e.2, e.1) ∈ r.opened
  unpooled : ∀ t ∈ r.tasks, ∀ e, t.job.own? = some e → e.2 ∉ r.pool.map (·.2)
  unshared : ∀ t ∈ r.tasks, ∀ e, t.job.own? = some e → ∀ u ∈ r.tasks, e.2 ∉ u.job.borrows
  single : ∀ t ∈ r.tasks, ∀ e, t.job.own? = some e → ∀ u ∈ r.tasks, ∀ e', u.job.own? = some e' →
    e.2 = e'.2 → t = u
  reached : ∀ t ∈ r.tasks, ∀ e, t.job.reached? = some e → (e.2, e.1) ∈ r.opened
  borrowed : ∀ t ∈ r.tasks, ∀ c ∈ t.job.borrows, c ∈ r.opened.map (·.1) ∧
    (c ∈ r.pool.map (·.2) ∨ c ∈ r.down ∨ r.Dismissed log c)

namespace Handover

theorem mem_opened (h : Handover r r' acts) {e : ConnId × String} (he : e ∈ r.opened) :
    e ∈ r'.opened := by
  rcases h.opened with ho | ⟨e', -, ho⟩
  · rwa [ho]
  · rw [ho]
    exact List.mem_append_left _ he

theorem dismissed (h : Handover r r' acts) (hc : r.Dismissed log c) :
    r'.Dismissed (log ++ acts) c := by
  rcases hc with hc | ⟨t, ht, hc⟩
  · exact .inl (List.mem_append_left _ hc)
  · rcases h.evicts t ht c hc with ⟨u, hu, -, hc⟩ | hc
    · exact .inr ⟨u, hu, hc⟩
    · exact .inl (List.mem_append_right _ hc)

/-- What was pooled once stays pooled until it ends or is dismissed. -/
theorem settled (h : Handover r r' acts)
    (hc : c ∈ r.pool.map (·.2) ∨ c ∈ r.down ∨ r.Dismissed log c) :
    c ∈ r'.pool.map (·.2) ∨ c ∈ r'.down ∨ r'.Dismissed (log ++ acts) c := by
  rcases hc with hc | hc | hc
  · obtain ⟨e, he, rfl⟩ := List.mem_map.mp hc
    rcases h.leaves e he with h' | h' | ⟨u, hu, h'⟩
    · exact .inl (List.mem_map_of_mem h')
    · exact .inr (.inl (h.down _ h'))
    · exact .inr (.inr (.inr ⟨u, hu, h'⟩))
  · exact .inr (.inl (h.down _ hc))
  · exact .inr (.inr (h.dismissed hc))

variable (hc : Custody r log)

include hc

theorem stored (h : Handover r r' acts) {e : String × ConnId} (he : e ∈ r'.pool) :
    (e.2, e.1) ∈ r'.opened := by
  rcases h.enters e he with he | ⟨t, ht, he, -⟩
  · exact h.mem_opened (hc.stored e he)
  · exact h.mem_opened (hc.owned t ht e he)

theorem unpooled (h : Handover r r' acts) {u : Task} (hu : u ∈ r'.tasks) {e : String × ConnId}
    (he : u.job.own? = some e) : e.2 ∉ r'.pool.map (·.2) := by
  intro hp
  obtain ⟨e', he', hee⟩ := List.mem_map.mp hp
  rcases h.own u hu e he with ⟨t, ht, hid, ho⟩ | ⟨hn, -⟩
  · rcases h.enters e' he' with h' | ⟨t', ht', ho', hno⟩
    · exact hc.unpooled t ht e ho (List.mem_map.mpr ⟨e', h', hee⟩)
    · obtain rfl := hc.single t ht e ho t' ht' e' ho' hee.symm
      cases he.symm.trans (hno u hu hid.symm)
  · rcases h.enters e' he' with h' | ⟨t', ht', ho', -⟩
    · exact hn (hee ▸ List.mem_map_of_mem (hc.stored e' h'))
    · exact hn (hee ▸ List.mem_map_of_mem (hc.owned t' ht' e' ho'))

theorem unshared (h : Handover r r' acts) {u w : Task} (hu : u ∈ r'.tasks) (hw : w ∈ r'.tasks)
    {e : String × ConnId} (he : u.job.own? = some e) : e.2 ∉ w.job.borrows := by
  intro hb
  rcases h.borrows w hw e.2 hb with ⟨t, ht, hb⟩ | ⟨a, hp | hp⟩
  · rcases h.own u hu e he with ⟨t', ht', -, ho⟩ | ⟨hn, -⟩
    · exact hc.unshared t' ht' e ho t ht hb
    · exact hn (hc.borrowed t ht _ hb).1
  · rcases h.own u hu e he with ⟨t', ht', -, ho⟩ | ⟨hn, -⟩
    · exact hc.unpooled t' ht' e ho (List.mem_map.mpr ⟨_, hp, rfl⟩)
    · exact hn (List.mem_map_of_mem (hc.stored _ hp))
  · exact h.unpooled hc hu he (List.mem_map.mpr ⟨_, hp, rfl⟩)

theorem single_id (h : Handover r r' acts) {u w : Task} (hu : u ∈ r'.tasks) (hw : w ∈ r'.tasks)
    {e e' : String × ConnId} (he : u.job.own? = some e) (he' : w.job.own? = some e')
    (hee : e.2 = e'.2) : u.id = w.id := by
  obtain ⟨id, hs⟩ := h.single
  rcases h.own u hu e he with ⟨t, ht, hid, ho⟩ | ⟨hn, -⟩
  · rcases h.own w hw e' he' with ⟨t', ht', hid', ho'⟩ | ⟨hn, -⟩
    · rw [← hid, ← hid', hc.single t ht e ho t' ht' e' ho' hee]
    · exact absurd (hee ▸ List.mem_map_of_mem (hc.owned t ht e ho)) hn
  · exact (hs u hu e he hn).trans (hs w hw e' he' (hee ▸ hn)).symm

theorem custody (h : Handover r r' acts) (hf' : Forest r') : Custody r' (log ++ acts) where
  opened := by
    rcases h.opened with ho | ⟨e, hn, ho⟩
    · exact ho ▸ hc.opened
    · rw [ho, List.map_append]
      refine List.nodup_append.mpr ⟨hc.opened, List.nodup_singleton _, ?_⟩
      rintro _ ha _ hb rfl
      obtain rfl := List.mem_singleton.mp hb
      exact hn ha
  keys := h.keys
  stored e he := h.stored hc he
  owned u hu e he := by
    rcases h.own u hu e he with ⟨t, ht, -, ho⟩ | ⟨-, ho⟩
    · exact h.mem_opened (hc.owned t ht e ho)
    · rw [ho]
      exact List.mem_append_right _ (List.mem_singleton_self _)
  unpooled u hu e he := h.unpooled hc hu he
  unshared u hu e he w hw := h.unshared hc hu hw he
  single u hu e he w hw e' he' hee := hf'.eq_of_id hu hw (h.single_id hc hu hw he he' hee)
  reached u hu e he := by
    rcases h.reached u hu e he with ⟨t, ht, -, hr⟩ | hl
    · exact h.mem_opened (hc.reached t ht e hr)
    · exact h.stored hc (mem_of_live? hl)
  borrowed u hu c hb := by
    rcases h.borrows u hu c hb with ⟨t, ht, hb⟩ | ⟨a, hp | hp⟩
    · obtain ⟨ho, hs⟩ := hc.borrowed t ht c hb
      obtain ⟨e, he, rfl⟩ := List.mem_map.mp ho
      exact ⟨List.mem_map_of_mem (h.mem_opened he), h.settled hs⟩
    · exact ⟨List.mem_map_of_mem (h.mem_opened (hc.stored _ hp)),
        h.settled (.inl (List.mem_map_of_mem hp))⟩
    · exact ⟨List.mem_map_of_mem (h.stored hc hp), .inl (List.mem_map_of_mem hp)⟩

end Handover

theorem Custody.handover (hc : Custody r log) {i : Input} (hf : Forest r) (hi : r.Admits i)
    (he : Event r i r' acts) : Handover r r' acts :=
  he.handover hf hc.keys (fun t ht e ho => List.mem_map_of_mem (hc.owned t ht e ho)) hi

theorem Reaches.custody (h : Reaches s is r log) : Custody r log :=
  h.induct (P := Custody) ⟨by simp, by simp, nofun, nofun, nofun, nofun, nofun, nofun, nofun⟩
    fun h hc hi he => (hc.handover h.forest hi he).custody hc (h.forest.event he)

theorem Custody.origin_eq (hc : Custody r log) {a : String} (h : (c, a) ∈ r.opened) :
    r.origin c = a := by
  rw [origin, find?_eq_of_nodup hc.opened h]
  rfl

end Router

end RespClient.Cluster
