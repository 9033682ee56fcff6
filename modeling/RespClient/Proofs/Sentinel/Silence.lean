import RespClient.Proofs.Sentinel.Announcements
import RespClient.Proofs.Sentinel.Resolver.Closing

namespace RespClient.Connection.Worker

variable {τ : Type}

theorem serves_of_message {w : Worker τ} {m : Move τ} {y : Reply} (h : y ∈ messages (w.step m).2) :
    w.stage.Serves := by
  cases hs : w.stage with
  | ending p cause =>
    rw [(step_refusing hs m).messages] at h
    cases h
  | _ => trivial

theorem requests_grow [DecidableEq τ] (is js : List (Incident τ)) :
    (journal is).requests <+: (journal (is ++ js)).requests := by
  induction js using List.reverseRecOn with
  | nil => simp
  | append_singleton js i ih =>
    rw [← List.append_assoc, journal_concat]
    cases i with
    | abandon t => exact ih
    | move m => exact ih.trans (List.prefix_append _ _)

end RespClient.Connection.Worker

namespace RespClient.Sentinel

open Connection (messages)
open Connection.Worker (Incident Move journal journal_concat)

def Happening.opens : Happening → Bool
  | .input i => i.opens
  | .move _ _ => false

namespace System

def close (S : System) : System := S.step (.input .close)

/-- What comes in to the resolver while all that happens. -/
def told (S : System) : List Happening → List Input
  | [] => []
  | x :: xs => S.news x ++ (S.step x).told xs

/-- Each connection that the resolver takes for ended has ended. -/
def Attests (S : System) : Prop := ∀ c ∈ S.resolver.down, (S.line c).worker.connection.ended = true

variable {s : SentinelSettings} {S : System} {x : Happening} {xs : List Happening} {c : ConnId}

theorem run_eq (S : System) (xs : List Happening) :
    (S.run xs).resolver = (S.resolver.run (S.told xs)).1 ∧
    (S.run xs).inputs = S.inputs ++ S.told xs ∧
    (S.run xs).log = S.log ++ (S.resolver.run (S.told xs)).2 := by
  induction xs generalizing S with
  | nil => exact ⟨rfl, (List.append_nil _).symm, (List.append_nil _).symm⟩
  | cons x xs ih =>
    obtain ⟨hresolver, hinputs, hlog⟩ := ih (S.step x)
    rw [told, Resolver.run_append]
    exact ⟨hresolver, hinputs.trans (List.append_assoc ..), hlog.trans (List.append_assoc ..)⟩

theorem admitsAll_told (hx : S.AdmitsAll xs) :
    Resolver.AdmitsAll S.inputs S.resolver (S.told xs) := by
  induction xs generalizing S with
  | nil => trivial
  | cons x xs ih => exact Resolver.admitsAll_append.mpr ⟨admitsAll_news hx.1, ih hx.2⟩

/-- A message that the resolver is told of is given out by a worker, on a connection that is heard. -/
theorem exists_of_told (hx : S.AdmitsAll xs) {i : Input} (hi : i ∈ S.told xs) (hh : i.isHeard = true) :
    ∃ ys c m zs y, xs = ys ++ .move c m :: zs ∧ i = .message c y ∧
      y ∈ messages (((S.run ys).line c).worker.step m).2 ∧ .watchMessages c ∈ (S.run ys).log := by
  induction xs generalizing S with
  | nil => cases hi
  | cons x xs ih =>
    rcases List.mem_append.mp hi with hi | hi
    · cases x with
      | input j =>
        obtain rfl := List.mem_singleton.mp hi
        cases hh.symm.trans hx.1.1
      | move c m =>
        simp only [news] at hi
        split at hi
        next hw =>
          obtain ⟨y, hy, rfl⟩ := List.mem_map.mp hi
          exact ⟨[], c, m, xs, y, rfl, rfl, hy, watches_iff.mp hw⟩
        · cases hi
    · obtain ⟨ys, c, m, zs, y, rfl, h⟩ := ih hx.2 hi
      exact ⟨x :: ys, c, m, zs, y, rfl, h⟩

theorem opens_told (hq : ∀ x ∈ xs, x.opens = false) : ∀ i ∈ S.told xs, i.opens = false := by
  induction xs generalizing S with
  | nil => exact nofun
  | cons x xs ih =>
    obtain ⟨hx, hxs⟩ := List.forall_mem_cons.mp hq
    refine List.forall_mem_append.mpr ⟨?_, ih hxs⟩
    cases x with
    | input i => exact List.forall_mem_singleton.mpr hx
    | move c m =>
      intro i hi
      simp only [news] at hi
      split at hi
      · obtain ⟨y, -, rfl⟩ := List.mem_map.mp hi
        rfl
      · cases hi

theorem admitsAll_before {ys zs : List Happening} (hx : S.AdmitsAll (ys ++ zs)) : S.AdmitsAll ys := by
  induction ys generalizing S with
  | nil => trivial
  | cons y ys ih => exact ⟨hx.1, ih hx.2⟩

theorem close_mem_carry {lines : ConnId → List (Incident Claim)} {acts : List Action}
    (h : .close c ∈ acts) : .close ∈ (journal (acts.foldl carry lines c)).requests := by
  obtain ⟨front, rest, rfl⟩ := List.append_of_mem h
  rw [List.foldl_append, List.foldl_cons]
  obtain ⟨js, hjs⟩ := (carried_foldl (carry (front.foldl carry lines) (.close c)) rest c).grown
  have hasked : .close ∈ (journal (carry (front.foldl carry lines) (.close c) c)).requests := by
    rw [carry, record_self, journal_concat]
    exact List.mem_append_right _ (List.mem_singleton_self _)
  rw [← hjs]
  exact (Connection.Worker.requests_grow _ js).subset hasked

/-- A connection that the resolver asks to close has the request. -/
theorem Reaches.asked (h : Reaches s S) (hc : .close c ∈ S.log) : .close ∈ (S.line c).requests := by
  induction h with
  | start => cases hc
  | @step S x h hx ih =>
    rcases List.mem_append.mp hc with hc | hc
    · obtain ⟨js, hjs⟩ := (run_grows S [x] c).1
      change .close ∈ (journal ((S.step x).lines c)).requests
      rw [show (S.step x).lines c = _ from hjs.symm]
      exact (Connection.Worker.requests_grow _ js).subset (ih hc)
    · exact close_mem_carry hc

theorem admits_close (S : System) : S.Admits (.input .close) := ⟨rfl, trivial⟩

theorem Reaches.close (h : Reaches s S) : Reaches s S.close := h.step S.admits_close

theorem close_log (S : System) : S.close.log = S.log ++ S.resolver.close.2 := by
  change S.log ++ (S.resolver.close.2 ++ []) = _
  rw [List.append_nil]

/-- With no new opening, each connection that is heard has ended, was asked to close, or lingers. -/
theorem Reaches.quiet (h : Reaches s S) (hx : S.close.AdmitsAll xs) (hq : ∀ x ∈ xs, x.opens = false)
    (hd : (S.close.run xs).Attests) (hc : .watchMessages c ∈ (S.close.run xs).log) :
    ((S.close.run xs).line c).worker.connection.ended = true ∨
      .close ∈ ((S.close.run xs).line c).requests ∨
      Resolver.Lingers S.resolver (S.close.told xs) c := by
  obtain ⟨hresolver, -, hlog⟩ := run_eq S.close xs
  rw [close_log] at hlog
  have hl : Resolver.AdmitsAll (S.inputs ++ [.close]) S.resolver.close.1 (S.close.told xs) :=
    admitsAll_told hx
  rcases h.sound.resolver.lingers hl (opens_told hq) (hlog ▸ hc) with hdown | hclose | hlingers
  · refine .inl (hd c ?_)
    rw [hresolver]
    exact hdown
  · refine .inr (.inl ((h.close.run hx).asked ?_))
    rw [hlog]
    exact hclose
  · exact .inr (.inr hlingers)

/-- A connection that gives out a message has not ended. -/
theorem ended_of_message {is : List (Incident Claim)} {m : Move Claim} {y : Reply}
    (hy : y ∈ messages ((journal is).worker.step m).2) :
    (journal is).worker.connection.ended = false :=
  (Connection.Worker.serving_journal rfl (Connection.Worker.serves_of_message hy)).going

/-- The observer is called for those announcements that the resolver is told of. -/
theorem Reaches.calls_since (h : Reaches s S) (hx : S.close.AdmitsAll xs) :
    (S.close.run xs).calls = S.calls ++ (S.close.told xs).filter Input.announces := by
  rw [(h.close.run hx).calls_eq, (run_eq S.close xs).2.1, h.calls_eq]
  change ((S.inputs ++ [Input.close]) ++ S.close.told xs).filter Input.announces = _
  rw [List.filter_append, List.filter_append]
  simp [Input.announces]

/-- A call of the observer comes of a message that a worker gives out, whose connection was asked to close
or lingers. -/
theorem Reaches.call_origin (h : Reaches s S) (hx : S.close.AdmitsAll xs)
    (hq : ∀ x ∈ xs, x.opens = false) (hd : ∀ ys, ys <+: xs → (S.close.run ys).Attests) {i : Input}
    (hi : i ∈ (S.close.told xs).filter Input.announces) :
    ∃ ys c m zs y, xs = ys ++ .move c m :: zs ∧ i = .message c y ∧ Announces y ∧
      y ∈ messages (((S.close.run ys).line c).worker.step m).2 ∧
      ((S.close.run ys).line c).worker.stage.Serves ∧
      (.close ∈ ((S.close.run ys).line c).requests ∨
        Resolver.Lingers S.resolver (S.close.told ys) c) := by
  obtain ⟨htold, ha⟩ := List.mem_filter.mp hi
  have hh : i.isHeard = true := by
    cases i with
    | message => rfl
    | _ => cases ha
  obtain ⟨ys, c, m, zs, y, rfl, rfl, hy, hw⟩ := exists_of_told hx htold hh
  have hp : ys <+: ys ++ .move c m :: zs := List.prefix_append _ _
  refine ⟨ys, c, m, zs, y, rfl, rfl, isMessage_iff.mp ha, hy,
    Connection.Worker.serves_of_message hy, ?_⟩
  rcases h.quiet (admitsAll_before hx) (fun x hmem => hq x (hp.subset hmem)) (hd ys hp) hw
    with hended | hasked | hlingers
  · cases (ended_of_message hy).symm.trans hended
  · exact .inl hasked
  · exact .inr hlingers

/-- A closed resolver is inert until the next opening, but for openings that were under way at the close and
had not gone on to resolve. What was recorded is asked to close, and nothing is recorded but for such an
opening, as long as it goes on. Each connection that is heard has ended or was asked to close, or it
lingers: it was recorded since, or is in hand, for one of those openings. The observer is called for what
announces something on a connection that lingers, or that was asked to close and serves until it comes to
that. When those openings are over, what lingers is recorded, and if there was none, nothing lingers. -/
theorem inert_but_for_openings (h : Reaches s S) (hx : S.close.AdmitsAll xs)
    (hq : ∀ x ∈ xs, x.opens = false) (hd : ∀ ys, ys <+: xs → (S.close.run ys).Attests) :
    let S' := S.close.run xs
    let later := S.close.told xs
    (S.close.resolver.notifier = none ∧
      ∀ c, S.resolver.notifier = some c → .close ∈ (S.close.line c).requests) ∧
    (∀ u ∈ S'.resolver.tasks, u.job.seeks = true →
      S.resolver.Seeks u.root ∧ S'.resolver.Seeks u.root) ∧
    (∀ c, .watchMessages c ∈ S'.log → (S'.line c).worker.connection.ended = true ∨
      .close ∈ (S'.line c).requests ∨ Resolver.Lingers S.resolver later c) ∧
    (∃ calls, S'.calls = S.calls ++ calls ∧ ∀ i ∈ calls, ∃ ys c m zs y,
      xs = ys ++ .move c m :: zs ∧ i = .message c y ∧ Announces y ∧
      y ∈ messages (((S.close.run ys).line c).worker.step m).2 ∧
      ((S.close.run ys).line c).worker.stage.Serves ∧
      (.close ∈ ((S.close.run ys).line c).requests ∨
        Resolver.Lingers S.resolver (S.close.told ys) c)) ∧
    ((∀ root, S.resolver.Seeks root → ¬ S'.resolver.Seeks root) →
      ∀ c, Resolver.Lingers S.resolver later c →
        S'.resolver.notifier = some c ∧ Resolver.Recorded S.resolver later c) ∧
    ((∀ root, ¬ S.resolver.Seeks root) →
      S'.resolver.notifier = none ∧ ∀ ys c, ¬ Resolver.Lingers S.resolver (S.close.told ys) c) := by
  intro S' later
  have hresolver : S'.resolver = (S.resolver.close.1.run later).1 := (run_eq S.close xs).1
  have hw : Resolver.Winding S.resolver later S'.resolver := by
    rw [hresolver]
    exact h.sound.resolver.winding (admitsAll_told hx) (opens_told hq)
  have hseeks {u : Task} (hu : u ∈ S'.resolver.tasks) (hs : u.job.seeks = true) :
      S'.resolver.Seeks u.root := (h.close.run hx).sound.resolver.attended.seeks hu hs
  refine ⟨⟨rfl, ?_⟩, ?_, ?_, ?_, ?_, ?_⟩
  · intro c hc
    refine h.close.asked ?_
    rw [close_log]
    exact List.mem_append_right _ (by simp [Resolver.close, hc])
  · intro u hu hs
    exact ⟨hw.seekers u hu hs, hseeks hu hs⟩
  · intro c hc
    exact h.quiet hx hq (hd xs List.prefix_rfl) hc
  · exact ⟨_, h.calls_since hx, fun i hi => h.call_origin hx hq hd hi⟩
  · intro hover c hc
    rcases hc with ⟨hn, hrec⟩ | ⟨t, ht, hj, hs⟩
    · rw [hresolver]
      exact ⟨hn, hrec⟩
    · rw [← hresolver] at ht
      exact absurd (hseeks ht (Job.seeks_of_watched? hj)) (hover t.root hs)
  · intro hnone
    refine ⟨?_, ?_⟩
    · cases hn : S'.resolver.notifier with
      | none => rfl
      | some c =>
        obtain ⟨_, t, _, _, _, _, -, -, -, -, hs⟩ := hw.noted c hn
        exact absurd hs (hnone t.root)
    · intro ys c hc
      obtain ⟨root, hs⟩ := hc.exists_seeks
      exact hnone root hs

/-- The subscription is answered after the close, and its connection recorded. The opening goes on and finds
no master. -/
def overtaken : List Happening :=
  [.move 1 (.received (Bytes.ofText "*1\r\n+subscribe\r\n")),
    .input (.reply 4 (.ok (.multi (some [.status "subscribe"])))), .input (.step 1 0), .input (.step 0 0),
    .input (.step 5 0), .input (.step 5 0), .input (.dialed 5 (.error .connectionClosed)),
    .input (.step 5 0), .input (.step 5 0), .input (.step 0 0)]

theorem not_asked_overtaken : .close ∉
    ((((ofSettings { endpoints := ["a:1"] }).run subscribing).close.run overtaken).line 1).requests := by
  have hcommands : ∀ r ∈ ((((ofSettings { endpoints := ["a:1"] }).run subscribing).close.run
      overtaken).line 1).requests, r.command?.isSome := by decide +kernel
  intro h
  cases hcommands _ h

/-- The connection of that opening is alive and not asked to close. -/
theorem inert_but_for_openings_overtaken :
    let S := (ofSettings { endpoints := ["a:1"] }).run subscribing
    (∃ root, S.resolver.Seeks root) ∧ Resolver.Lingers S.resolver (S.close.told overtaken) 1 := by
  intro S
  have hS : Reaches { endpoints := ["a:1"] } S := Reaches.start.run (by decide +kernel)
  have hx : S.close.AdmitsAll overtaken := by decide +kernel
  have hq : ∀ x ∈ overtaken, x.opens = false := by decide +kernel
  have hdown : ∀ ys ∈ overtaken.inits, (S.close.run ys).resolver.down = [] := by decide +kernel
  have hd : ∀ ys, ys <+: overtaken → (S.close.run ys).Attests := by
    intro ys hp c hc
    rw [hdown ys ((List.mem_inits ys _).mpr hp)] at hc
    cases hc
  obtain ⟨-, -, hkept, -⟩ := inert_but_for_openings hS hx hq hd
  have hwatched : (S.close.run overtaken).log[4]? = some (.watchMessages 1) := rfl
  have hended : ((S.close.run overtaken).line 1).worker.connection.ended = false := by decide +kernel
  rcases hkept 1 (List.mem_of_getElem? hwatched) with h | h | h
  · cases hended.symm.trans h
  · exact absurd h not_asked_overtaken
  · exact ⟨h.exists_seeks, h⟩

/-- All that was under way at the close is over, and nobody has opened anything since. Yet a connection is
recorded that is alive and was not asked to close, and the observer is called for what comes on it. -/
theorem reports_after_close :
    let S := (ofSettings { endpoints := ["a:1"] }).run subscribing
    let S' := S.close.run overtaken
    let news : Happening := .move 1 (.received (Bytes.ofText "*1\r\n+message\r\n"))
    Reaches { endpoints := ["a:1"] } (S'.step news) ∧ (∀ x ∈ overtaken, x.opens = false) ∧
      S'.resolver.tasks = [] ∧ S'.resolver.notifier = some 1 ∧
      (S'.line 1).worker.connection.ended = false ∧ .close ∉ (S'.line 1).requests ∧
      S'.calls = [] ∧ ((S'.step news).announced 1).map Reply.render = ["1) message"] := by
  intro S S' news
  have hS : Reaches { endpoints := ["a:1"] } S := Reaches.start.run (by decide +kernel)
  have hx : S.close.AdmitsAll overtaken := by decide +kernel
  have hnews : S'.Admits news := by decide +kernel
  have htasks : S'.resolver.tasks.length = 0 := by decide +kernel
  have hcalls : S'.calls.length = 0 := by decide +kernel
  exact ⟨(hS.close.run hx).step hnews, by decide +kernel, List.length_eq_zero_iff.mp htasks,
    by decide +kernel, by decide +kernel, not_asked_overtaken, List.length_eq_zero_iff.mp hcalls,
    by decide +kernel⟩

end System

end RespClient.Sentinel
