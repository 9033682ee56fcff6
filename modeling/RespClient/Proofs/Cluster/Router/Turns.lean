import RespClient.Cluster.Router

namespace RespClient.Cluster

/-- What a task is there for. -/
inductive Kind where
  | dial
  | refresh
  /-- Asked for from outside, or started by a failure. -/
  | call
  deriving DecidableEq

namespace Job

def kind : Job → Kind
  | dial _ _ => .dial
  | refresh _ => .refresh
  | send _ | opening _ | reload _ | recovery _ => .call

/-- The tasks that a job waits for and takes away when they are done. -/
def helpers : Job → List TaskId
  | refresh (.filling _ dials) => dials.map (·.2)
  | send ⟨_, _, _, _, .reaching _ d _⟩ | send ⟨_, _, _, _, .refreshing _ _ d⟩ => [d]
  | opening (.seeding dials) => dials
  | opening (.loading d) => [d]
  | reload d | recovery d => d.toList
  | _ => []

/-- What the helpers of a job are there for. -/
def employs : Job → Kind
  | send ⟨_, _, _, _, .refreshing _ _ _⟩ | opening (.loading _) | reload _ | recovery _ => .refresh
  | _ => .dial

theorem kind_ne_employs {job : Job} (h : job.helpers ≠ []) : job.kind ≠ job.employs := by
  cases job with
  | dial a stage => exact absurd rfl h
  | refresh stage => nofun
  | send s => unfold employs; split <;> nofun
  | opening stage => unfold employs; split <;> nofun
  | reload d | recovery d => nofun

theorem employs_ne_call (job : Job) : job.employs ≠ .call := by unfold employs; split <;> nofun

/-- How a task begins that works for another one. -/
inductive IsFresh : Job → Prop
  | dial (address : String) : IsFresh (.dial address .seek)
  | refresh : IsFresh (.refresh .enter)

theorem IsFresh.helpers {job : Job} (h : job.IsFresh) : job.helpers = [] := by cases h <;> rfl

end Job

def Outcome.redirect? : Outcome → Option Redirect
  | .ok _ => none
  | .error e => Redirect.ofError? e

namespace Router

/-- Task `t` takes its turn: its helpers go, `fresh` tasks come, and it has another job or is over. -/
def turn (r : Router) (t : Task) (job? : Option Job) (fresh : List Job) : Router :=
  let r := ((r.remove t.job.helpers).spawnAll t.root fresh).2
  match job? with
  | some job => r.setJob t.id job
  | none => r.remove [t.id]

def unlock (r : Router) (id : TaskId) : Router := { r with lock := r.lock.filter (· != id) }

section Turns

variable (r : Router) (id : TaskId)

inductive DialTurn (a : String) : DialStage → DialStage → Router → List Action → Prop
  | found {c} (h : r.live? a = some c) : DialTurn a .seek (.done (.ok c)) r []
  | call (h : r.live? a = none) : DialTurn a .seek .calling r [.dial id a]
  | watch {c} : DialTurn a (.opened c) (.guarded c) r [.watchFailure c]
  | guard {c} : DialTurn a (.guarded c) (if r.settings.replicas = .never then .join c else .greet c) r
      [.watchEnd c]
  | mute {c text} (h : r.isDown c = true) : DialTurn a (.greet c) (.join c) r [.warn text]
  | greet {c} (h : r.isDown c = false) : DialTurn a (.greet c) (.greeting c r.next)
      { r with next := r.next + 1 } [.submit c r.next readonlyFrame]
  | greeted {c k x} (h : r.mail? k = some (.ok x)) :
      DialTurn a (.greeting c k) (.join c) (r.takeMail k) []
  | rebuffed {c k e text} (h : r.mail? k = some (.error e)) :
      DialTurn a (.greeting c k) (.join c) (r.takeMail k) [.warn text]
  | late {c} (h : r.isDown c = true) : DialTurn a (.join c) (.done (.error .connectionClosed)) r []
  | beaten {c winner} (hc : r.isDown c = false) (h : r.live? a = some winner) :
      DialTurn a (.join c) (.surplus c winner) r []
  | join {c} (hc : r.isDown c = false) (h : r.live? a = none) :
      DialTurn a (.join c) (.done (.ok c)) (r.insert a c) []
  | yield {c winner} : DialTurn a (.surplus c winner) (.done (.ok winner)) r [.close c]

inductive RefreshTurn (choice : Nat) :
    RefreshStage → RefreshStage → List Job → Router → List Action → Prop
  | enter : RefreshTurn choice .enter .waiting [] { r with lock := r.lock ++ [id] } []
  | lock (h : r.lock.head? = some id) : RefreshTurn choice .waiting (.choosing []) [] r []
  | choose {failed a c} (h : r.pick failed choice = some (a, c)) :
      RefreshTurn choice (.choosing failed) (.asking failed a c) [] r []
  | giveUp {failed} (h : r.pick failed choice = none) :
      RefreshTurn choice (.choosing failed) (.done (.error .noConnection)) [] (r.unlock id) []
  | mute {failed a c text} (h : r.isDown c = true) :
      RefreshTurn choice (.asking failed a c) (.choosing (failed ++ [a])) [] r [.warn text]
  | ask {failed a c} (h : r.isDown c = false) :
      RefreshTurn choice (.asking failed a c) (.awaiting failed a c r.next) []
        { r with next := r.next + 1 } [.submit c r.next slotsFrame]
  | rebuffed {failed a c k o text} (h : r.mail? k = some o)
      (ho : ∀ reply table, o = .ok reply → SlotTable.load (Address.hostOf a) reply ≠ .ok table) :
      RefreshTurn choice (.awaiting failed a c k) (.choosing (failed ++ [a])) [] (r.takeMail k)
        [.warn text]
  | load {failed a c k reply table} (h : r.mail? k = some (.ok reply))
      (ht : SlotTable.load (Address.hostOf a) reply = .ok table) :
      RefreshTurn choice (.awaiting failed a c k) (.comparing table) [] (r.takeMail k) []
  | compare {table} : RefreshTurn choice (.comparing table)
      (.filling table ((r.missing table).zip (List.range' r.next (r.missing table).length)))
      ((r.missing table).map fun a => .dial a .seek) r []
  | fill {table dials} (h : ∀ d ∈ dials, (r.dialResult? d.2).isSome) :
      RefreshTurn choice (.filling table dials) (.installing table) [] r (r.dialWarnings dials)
  | installEmpty {table} (h : table.addresses = []) :
      RefreshTurn choice (.installing table) (.done (.ok ())) []
        (unlock { r with table := table } id) []
  | install {table} (h : table.addresses ≠ []) :
      RefreshTurn choice (.installing table) (.evicting table) [] { r with table := table } []
  | evict {table} : RefreshTurn choice (.evicting table)
      (.closing ((r.pool.filter fun e => !table.addresses.contains e.1).map (·.2))) []
      { r with pool := r.pool.filter fun e => table.addresses.contains e.1 } []
  | finish : RefreshTurn choice (.closing []) (.done (.ok ())) [] (r.unlock id) []
  | close {c cs} : RefreshTurn choice (.closing (c :: cs)) (.closing cs) [] r [.close c]

inductive SendTurn (choice : Nat) (s : Sending) :
    Option Sending → List Job → Router → List Action → Prop
  | route {a} (h : s.stage = .route) (ha : r.target? s.command choice = some a) :
      SendTurn choice s (some { s with stage := .reaching none r.next false }) [.dial a .seek] r []
  | anywhere {a c} (h : s.stage = .route) (hn : r.target? s.command choice = none)
      (hc : r.pick [] choice = some (a, c)) :
      SendTurn choice s (some { s with stage := .submit c }) [] r []
  | nowhere (h : s.stage = .route) (hn : r.target? s.command choice = none)
      (hc : r.pick [] choice = none) :
      SendTurn choice s none [] r [.finish id (.sent (.error .noConnection))]
  | reach {held d asking c} (h : s.stage = .reaching held d asking)
      (hd : r.dialResult? d = some (.ok c)) :
      SendTurn choice s (some { s with stage := if asking then .submitAsking c else .submit c }) [] r []
  | miss {held d asking e} (h : s.stage = .reaching held d asking)
      (hd : r.dialResult? d = some (.error e)) :
      SendTurn choice s none [] r [.finish id (.sent (.error e))]
  | mute {c} (h : s.stage = .submit c ∨ s.stage = .submitAsking c ∨ ∃ k, s.stage = .submitAsked c k)
      (hc : r.isDown c = true) :
      SendTurn choice s none [] r [.finish id (.sent (.error .connectionClosed))]
  | submit {c} (h : s.stage = .submit c) (hc : r.isDown c = false) :
      SendTurn choice s (some { s with stage := .awaiting c r.next }) [] { r with next := r.next + 1 }
        [.submit c r.next s.frame]
  | ask {c} (h : s.stage = .submitAsking c) (hc : r.isDown c = false) :
      SendTurn choice s (some { s with stage := .submitAsked c r.next }) []
        { r with next := r.next + 1 } [.submit c r.next askingFrame]
  | follow {c k} (h : s.stage = .submitAsked c k) (hc : r.isDown c = false) :
      SendTurn choice s (some { s with stage := .awaitingAsking c k r.next }) []
        { r with next := r.next + 1 } [.submit c r.next s.frame]
  | asked {c k k' o} (h : s.stage = .awaitingAsking c k k') (ho : r.mail? k = some o) :
      SendTurn choice s (some { s with stage := .awaiting c k' }) [] (r.takeMail k) []
  | answer {c k o} (h : s.stage = .awaiting c k) (ho : r.mail? k = some o)
      (hr : Outcome.redirect? o = none ∨ s.budget = 0) :
      SendTurn choice s none [] (r.takeMail k) [.finish id (.sent o)]
  | moved {c k o slot address} (h : s.stage = .awaiting c k) (ho : r.mail? k = some o)
      (hr : Outcome.redirect? o = some (.moved slot address)) (hb : s.budget ≠ 0) :
      SendTurn choice s
        (some { s with
          stage := .refreshing c (resolveTarget address (r.origin c)) r.next
          budget := s.budget - 1
          attempt := s.attempt + 1 })
        [.refresh .enter] (r.takeMail k) []
  | shift {c k o slot address} (h : s.stage = .awaiting c k) (ho : r.mail? k = some o)
      (hr : Outcome.redirect? o = some (.ask slot address)) (hb : s.budget ≠ 0) :
      SendTurn choice s
        (some { s with
          stage := .reaching (some c) r.next true
          budget := s.budget - 1
          attempt := s.attempt + 1 })
        [.dial (resolveTarget address (r.origin c)) .seek] (r.takeMail k) []
  | again {c k o} (h : s.stage = .awaiting c k) (ho : r.mail? k = some o)
      (hr : Outcome.redirect? o = some .tryAgain ∨ Outcome.redirect? o = some .clusterDown)
      (hb : s.budget ≠ 0) :
      SendTurn choice s
        (some { s with stage := .resting c, budget := s.budget - 1, attempt := s.attempt + 1 }) []
        (r.takeMail k) [.rest id (r.settings.backoff.delay s.attempt.toUInt32).toNat]
  | refreshed {c target d result warnings} (h : s.stage = .refreshing c target d)
      (hd : r.refreshResult? d = some result) (hw : ∀ x ∈ warnings, ∃ text, x = .warn text) :
      SendTurn choice s (some { s with stage := .reaching (some c) r.next false })
        [.dial target .seek] r warnings

inductive OpeningTurn : OpeningStage → Option OpeningStage → List Job → Router → List Action → Prop
  | start : OpeningTurn .start (some (.seeding (List.range' r.next r.settings.seeds.length)))
      (r.settings.seeds.map fun a => .dial a .seek) r []
  | miss {dials e} (h : r.firstFailure? dials = some e) : OpeningTurn (.seeding dials) none []
      { r with closed := true }
      (r.pool.map (fun e => .close e.2) ++ [.finish id (.opened (.error e))])
  | seeded {dials} (h : ∀ d ∈ dials, (r.dialResult? d).isSome) (hf : r.firstFailure? dials = none) :
      OpeningTurn (.seeding dials) (some (.loading r.next)) [.refresh .enter] r []
  | loaded {d} (h : r.refreshResult? d = some (.ok ())) : OpeningTurn (.loading d) none [] r
      [.finish id (.opened (.ok ()))]
  | stuck {d e} (h : r.refreshResult? d = some (.error e)) : OpeningTurn (.loading d) none []
      { r with closed := true }
      (r.pool.map (fun e => .close e.2) ++ [.finish id (.opened (.error e))])

end Turns

section Events

variable (r : Router)

/-- The turn of a task, by its own step or by what it was waiting for outside. -/
inductive Turn : Input → Task → Option Job → List Job → Router → List Action → Prop
  | dial {id root choice a stage stage' core acts} (h : DialTurn r id a stage stage' core acts) :
      Turn (.step id choice) ⟨id, root, .dial a stage⟩ (some (.dial a stage')) [] core acts
  | refresh {id root choice stage stage' fresh core acts}
      (h : RefreshTurn r id choice stage stage' fresh core acts) :
      Turn (.step id choice) ⟨id, root, .refresh stage⟩ (some (.refresh stage')) fresh core acts
  | send {id root choice s s' fresh core acts} (h : SendTurn r id choice s s' fresh core acts) :
      Turn (.step id choice) ⟨id, root, .send s⟩ (s'.map .send) fresh core acts
  | opening {id root choice stage stage' fresh core acts}
      (h : OpeningTurn r id stage stage' fresh core acts) :
      Turn (.step id choice) ⟨id, root, .opening stage⟩ (stage'.map .opening) fresh core acts
  | reload {id root choice} : Turn (.step id choice) ⟨id, root, .reload none⟩
      (some (.reload (some r.next))) [.refresh .enter] r []
  | reloaded {id root choice d result} (h : r.refreshResult? d = some result) :
      Turn (.step id choice) ⟨id, root, .reload (some d)⟩ none [] r [.finish id (.refreshed result)]
  | recover {id root choice} : Turn (.step id choice) ⟨id, root, .recovery none⟩
      (some (.recovery (some r.next))) [.refresh .enter] r []
  | recovered {id root choice d result warnings} (h : r.refreshResult? d = some result)
      (hw : ∀ x ∈ warnings, ∃ text, x = .warn text) :
      Turn (.step id choice) ⟨id, root, .recovery (some d)⟩ none [] r warnings
  | dialed {id root a c} : Turn (.dialed id (.ok c)) ⟨id, root, .dial a .calling⟩
      (some (.dial a (.opened c))) [] { r with opened := r.opened ++ [(c, a)] } []
  | refused {id root a e} : Turn (.dialed id (.error e)) ⟨id, root, .dial a .calling⟩
      (some (.dial a (.done (.error e)))) [] r []
  | rested {id root s c} (h : s.stage = .resting c) : Turn (.rested id) ⟨id, root, .send s⟩
      (some (.send { s with stage := .submit c })) [] r []

/-- A new task that works for nobody else. -/
inductive Call : Input → Job → Router → List Action → Prop
  | opening : Call .opening (.opening .start) r []
  | send {command} : Call (.send command) (r.sending command) r []
  | reload : Call .reload (.reload none) r []
  | recovery {c e text} (h : r.closed = false) :
      Call (.failed c e) (.recovery none) (r.forget (r.origin c)) [.warn text, .reportFailure e]

/-- What happens without a task. -/
inductive News : Input → Router → List Action → Prop
  | idle {i} : News i r []
  | reply {k o} : News (.reply k o) { r with mail := r.mail ++ [(k, o)] } []
  | down {c} : News (.down c) { r with down := r.down ++ [c] } []
  | failed {c e text} (h : r.closed = true) : News (.failed c e) (r.forget (r.origin c))
      [.warn text, .reportFailure e]
  | ended {c} : News (.ended c) (r.forget (r.origin c))
      (if (r.forget (r.origin c)).pool.isEmpty then [.reportEnd] else [])
  | close : News .close { r with closed := true } (r.pool.map fun e => .close e.2)

/-- What an input comes to. -/
inductive Event (i : Input) : Router → List Action → Prop
  | turn {t job? fresh core acts} (ht : t ∈ r.tasks) (h : Turn r i t job? fresh core acts) :
      Event i (core.turn t job? fresh) acts
  | call {job core acts} (h : Call r i job core acts) : Event i (core.call job).2 acts
  | news {core acts} (h : News r i core acts) : Event i core acts

end Events

variable {r r' : Router} {id root : TaskId} {choice : Nat} {acts : List Action}

@[simp] theorem remove_nil (r : Router) : r.remove [] = r := by
  unfold remove
  rw [List.filter_eq_self.mpr (by simp)]

theorem spawnAll_fst (r : Router) (root : TaskId) (js : List Job) :
    (r.spawnAll root js).1 = List.range' r.next js.length := by
  induction js generalizing r with
  | nil => rfl
  | cons j js ih => simp [spawnAll, ih, spawn, List.range'_succ]

/-- A task that waited for nobody only changes its job. -/
theorem turn_setJob {t : Task} (ht : t.job.helpers = []) (job : Job) :
    r.turn t (some job) [] = r.setJob t.id job := by
  simp only [turn, ht, remove_nil, spawnAll]

theorem stepDial_turn {a : String} {stage : DialStage} (h : r.stepDial id a stage = some (r', acts)) :
    ∃ stage' core, DialTurn r id a stage stage' core acts ∧ r' = core.setJob id (.dial a stage') := by
  cases stage with
  | seek =>
    simp only [stepDial] at h
    split at h <;> cases h
    · exact ⟨_, _, .found ‹_›, rfl⟩
    · exact ⟨_, _, .call ‹_›, rfl⟩
  | calling | done => cases h
  | opened c => cases h; exact ⟨_, _, .watch, rfl⟩
  | guarded c => cases h; exact ⟨_, _, .guard, rfl⟩
  | greet c =>
    simp only [stepDial] at h
    split at h <;> cases h
    · exact ⟨_, _, .mute ‹_›, rfl⟩
    · exact ⟨_, _, .greet ((Bool.not_eq_true _).mp ‹_›), rfl⟩
  | greeting c k =>
    simp only [stepDial] at h
    split at h <;> cases h
    · exact ⟨_, _, .greeted ‹_›, rfl⟩
    · exact ⟨_, _, .rebuffed ‹_›, rfl⟩
  | join c =>
    simp only [stepDial] at h
    split at h
    · cases h
      exact ⟨_, _, .late ‹_›, rfl⟩
    · have hc : r.isDown c = false := (Bool.not_eq_true _).mp ‹_›
      split at h <;> cases h
      · exact ⟨_, _, .beaten hc ‹_›, rfl⟩
      · exact ⟨_, _, .join hc ‹_›, rfl⟩
  | surplus c winner => cases h; exact ⟨_, _, .yield, rfl⟩

theorem stepRefresh_turn {stage : RefreshStage}
    (h : r.stepRefresh id root choice stage = some (r', acts)) :
    ∃ stage' fresh core, RefreshTurn r id choice stage stage' fresh core acts ∧
      r' = core.turn ⟨id, root, .refresh stage⟩ (some (.refresh stage')) fresh := by
  have quiet (core : Router) (stage' : RefreshStage) (hs : (Job.refresh stage).helpers = []) :
      core.setJob id (.refresh stage') =
        core.turn ⟨id, root, .refresh stage⟩ (some (.refresh stage')) [] :=
    (turn_setJob (t := ⟨id, root, .refresh stage⟩) hs _).symm
  cases stage with
  | enter => cases h; exact ⟨_, _, _, .enter, quiet _ _ rfl⟩
  | waiting =>
    simp only [stepRefresh] at h
    split at h <;> cases h
    exact ⟨_, _, _, .lock ‹_›, quiet _ _ rfl⟩
  | choosing failed =>
    simp only [stepRefresh] at h
    split at h <;> cases h
    · exact ⟨_, _, _, .choose ‹_›, quiet _ _ rfl⟩
    · exact ⟨_, _, _, .giveUp ‹_›, quiet (r.unlock id) _ rfl⟩
  | asking failed a c =>
    simp only [stepRefresh] at h
    split at h <;> cases h
    · exact ⟨_, _, _, .mute ‹_›, quiet _ _ rfl⟩
    · exact ⟨_, _, _, .ask ((Bool.not_eq_true _).mp ‹_›), quiet _ _ rfl⟩
  | awaiting failed a c k =>
    simp only [stepRefresh] at h
    split at h
    · cases h
    · cases h
      exact ⟨_, _, _, .rebuffed ‹_› (by rintro _ _ ⟨⟩), quiet _ _ rfl⟩
    · split at h <;> cases h
      · exact ⟨_, _, _, .load ‹_› ‹_›, quiet _ _ rfl⟩
      · next hm _ fault hf =>
        refine ⟨_, _, _, .rebuffed hm ?_, quiet _ _ rfl⟩
        rintro _ _ ⟨⟩
        simp [hf]
  | comparing table =>
    simp only [stepRefresh, Option.some.injEq, Prod.mk.injEq] at h
    obtain ⟨rfl, rfl⟩ := h
    refine ⟨_, _, _, .compare, ?_⟩
    simp only [turn, Job.helpers, remove_nil, spawnAll_fst, List.length_map]
  | filling table dials =>
    simp only [stepRefresh] at h
    split at h <;> cases h
    next hd => exact ⟨_, _, _, .fill (by simpa using hd), rfl⟩
  | installing table =>
    simp only [stepRefresh] at h
    split at h <;> cases h
    next he => exact ⟨_, _, _, .installEmpty (List.isEmpty_iff.mp he),
      quiet (unlock { r with table := table } id) _ rfl⟩
    next he => exact ⟨_, _, _, .install (by simpa using he), quiet _ _ rfl⟩
  | evicting table => cases h; exact ⟨_, _, _, .evict, quiet _ _ rfl⟩
  | closing cs =>
    cases cs with
    | nil => cases h; exact ⟨_, _, _, .finish, quiet (r.unlock id) _ rfl⟩
    | cons c cs => cases h; exact ⟨_, _, _, .close, quiet _ _ rfl⟩
  | done => cases h

theorem conclude_turn (id root : TaskId) (choice : Nat) {s : Sending} {c : ConnId} {k : Claim}
    {o : Outcome} (hs : s.stage = .awaiting c k) (ho : r.mail? k = some o) :
    ∃ s' fresh core, SendTurn r id choice s s' fresh core ((r.takeMail k).conclude id root s c o).2 ∧
      ((r.takeMail k).conclude id root s c o).1 =
        core.turn ⟨id, root, .send s⟩ (s'.map .send) fresh := by
  have hh : (Job.send s).helpers = [] := by
    obtain ⟨_, _, _, _, _⟩ := s
    cases hs
    rfl
  have ends (hr : Outcome.redirect? o = none ∨ s.budget = 0) :
      ∃ s' fresh core, SendTurn r id choice s s' fresh core [.finish id (.sent o)] ∧
        (r.takeMail k).remove [id] = core.turn ⟨id, root, .send s⟩ (s'.map .send) fresh :=
    ⟨_, _, _, .answer hs ho hr, by simp [turn, hh, spawnAll]⟩
  unfold conclude
  cases o with
  | ok x => exact ends (.inl rfl)
  | error e =>
    cases he : Redirect.ofError? e with
    | none => simp only [he]; exact ends (.inl he)
    | some redirect =>
      by_cases hb : s.budget = 0
      · simp only [he, if_pos hb]; exact ends (.inr hb)
      simp only [he, if_neg hb]
      cases redirect with
      | moved slot address =>
        exact ⟨_, _, _, .moved hs ho he hb, by simp [turn, hh, spawnAll, spawn]; rfl⟩
      | ask slot address =>
        exact ⟨_, _, _, .shift hs ho he hb, by simp [turn, hh, spawnAll, spawn]; rfl⟩
      | tryAgain => exact ⟨_, _, _, .again hs ho (.inl he) hb, by simp [turn, hh, spawnAll]⟩
      | clusterDown => exact ⟨_, _, _, .again hs ho (.inr he) hb, by simp [turn, hh, spawnAll]⟩

theorem stepSend_turn {s : Sending} (h : r.stepSend id root choice s = some (r', acts)) :
    ∃ s' fresh core, SendTurn r id choice s s' fresh core acts ∧
      r' = core.turn ⟨id, root, .send s⟩ (s'.map .send) fresh := by
  obtain ⟨command, frame, budget, attempt, stage⟩ := s
  have quiet (core : Router) (stage' : SendStage)
      (hs : (Job.send ⟨command, frame, budget, attempt, stage⟩).helpers = []) :
      core.setJob id (.send ⟨command, frame, budget, attempt, stage'⟩) =
        core.turn ⟨id, root, .send ⟨command, frame, budget, attempt, stage⟩⟩
          (some (.send ⟨command, frame, budget, attempt, stage'⟩)) [] :=
    (turn_setJob (t := ⟨id, root, .send _⟩) hs _).symm
  cases stage with
  | route =>
    simp only [stepSend] at h
    split at h
    · cases h
      refine ⟨_, _, _, .route rfl ‹_›, ?_⟩
      simp [turn, Job.helpers, spawnAll, spawn]
    · split at h <;> cases h
      · exact ⟨_, _, _, .anywhere rfl ‹_› ‹_›, quiet _ _ rfl⟩
      · refine ⟨_, _, _, .nowhere rfl ‹_› ‹_›, ?_⟩
        simp [turn, Job.helpers, spawnAll]
  | reaching held d asking =>
    simp only [stepSend] at h
    split at h <;> cases h
    · exact ⟨_, _, _, .reach rfl ‹_›, rfl⟩
    · exact ⟨_, _, _, .miss rfl ‹_›, rfl⟩
  | submit c =>
    simp only [stepSend] at h
    split at h <;> cases h
    · refine ⟨_, _, _, .mute (.inl rfl) ‹_›, ?_⟩
      simp [turn, Job.helpers, spawnAll]
    · exact ⟨_, _, _, .submit rfl ((Bool.not_eq_true _).mp ‹_›), quiet _ _ rfl⟩
  | submitAsking c =>
    simp only [stepSend] at h
    split at h <;> cases h
    · refine ⟨_, _, _, .mute (.inr (.inl rfl)) ‹_›, ?_⟩
      simp [turn, Job.helpers, spawnAll]
    · exact ⟨_, _, _, .ask rfl ((Bool.not_eq_true _).mp ‹_›), quiet _ _ rfl⟩
  | submitAsked c k =>
    simp only [stepSend] at h
    split at h <;> cases h
    · refine ⟨_, _, _, .mute (.inr (.inr ⟨_, rfl⟩)) ‹_›, ?_⟩
      simp [turn, Job.helpers, spawnAll]
    · exact ⟨_, _, _, .follow rfl ((Bool.not_eq_true _).mp ‹_›), quiet _ _ rfl⟩
  | awaitingAsking c k k' =>
    simp only [stepSend] at h
    split at h <;> cases h
    exact ⟨_, _, _, .asked rfl ‹_›, quiet _ _ rfl⟩
  | awaiting c k =>
    simp only [stepSend] at h
    split at h
    · cases h
    next o hm =>
    obtain ⟨s', fresh, core, hs, hc⟩ := conclude_turn id root choice
      (s := ⟨command, frame, budget, attempt, .awaiting c k⟩) rfl hm
    simp only [Option.some.injEq] at h
    rw [h] at hs hc
    exact ⟨s', fresh, core, hs, hc⟩
  | refreshing c target d =>
    simp only [stepSend] at h
    split at h <;> cases h
    next result hd =>
    refine ⟨_, _, _, .refreshed rfl hd ?_, ?_⟩
    · cases result <;> simp
    · simp [turn, Job.helpers, spawnAll, spawn, remove]
  | resting c => cases h

theorem stepOpening_turn {stage : OpeningStage} (h : r.stepOpening id root stage = some (r', acts)) :
    ∃ stage' fresh core, OpeningTurn r id stage stage' fresh core acts ∧
      r' = core.turn ⟨id, root, .opening stage⟩ (stage'.map .opening) fresh := by
  cases stage with
  | start =>
    simp only [stepOpening, Option.some.injEq, Prod.mk.injEq] at h
    obtain ⟨rfl, rfl⟩ := h
    refine ⟨_, _, _, .start, ?_⟩
    simp only [turn, Job.helpers, remove_nil, spawnAll_fst, List.length_map, Option.map_some]
  | seeding dials =>
    simp only [stepOpening] at h
    split at h
    · cases h
      exact ⟨_, _, _, .miss ‹_›, rfl⟩
    · split at h <;> cases h
      next hf hd => exact ⟨_, _, _, .seeded (by simpa using hd) hf, rfl⟩
  | loading d =>
    simp only [stepOpening] at h
    split at h <;> cases h
    · exact ⟨_, _, _, .loaded ‹_›, rfl⟩
    · exact ⟨_, _, _, .stuck ‹_›, rfl⟩

theorem stepTask_turn {t : Task} (h : r.stepTask choice t = some (r', acts)) :
    ∃ job? fresh core, Turn r (.step t.id choice) t job? fresh core acts ∧
      r' = core.turn t job? fresh := by
  obtain ⟨id, root, job⟩ := t
  cases job with
  | dial a stage =>
    obtain ⟨stage', core, hd, rfl⟩ := stepDial_turn h
    exact ⟨_, _, _, .dial hd, (turn_setJob (t := ⟨id, root, .dial a stage⟩) rfl _).symm⟩
  | refresh stage =>
    obtain ⟨stage', fresh, core, hr, rfl⟩ := stepRefresh_turn h
    exact ⟨_, _, _, .refresh hr, rfl⟩
  | send s =>
    obtain ⟨s', fresh, core, hs, rfl⟩ := stepSend_turn h
    exact ⟨_, _, _, .send hs, rfl⟩
  | opening stage =>
    obtain ⟨stage', fresh, core, ho, rfl⟩ := stepOpening_turn h
    exact ⟨_, _, _, .opening ho, rfl⟩
  | reload d =>
    cases d with
    | none =>
      cases h
      exact ⟨_, _, _, .reload, by simp [turn, Job.helpers, spawnAll, spawn]⟩
    | some d =>
      simp only [stepTask, stepReload] at h
      split at h <;> cases h
      exact ⟨_, _, _, .reloaded ‹_›, rfl⟩
  | recovery d =>
    cases d with
    | none =>
      cases h
      exact ⟨_, _, _, .recover, by simp [turn, Job.helpers, spawnAll, spawn]⟩
    | some d =>
      have both : r.remove [d, id] = r.turn ⟨id, root, .recovery (some d)⟩ none [] := by
        simp [turn, Job.helpers, spawnAll, remove, List.filter_filter, Bool.and_comm]
      simp only [stepTask, stepRecovery] at h
      split at h <;> cases h
      · exact ⟨_, _, _, .recovered ‹_› (by simp), both⟩
      · exact ⟨_, _, _, .recovered ‹_› (by simp), both⟩

theorem exists_of_job? {job : Job} (h : r.job? id = some job) :
    ∃ t ∈ r.tasks, t.id = id ∧ t.job = job := by
  simp only [job?, Option.map_eq_some_iff] at h
  obtain ⟨t, ht, rfl⟩ := h
  exact ⟨t, List.mem_of_find?_eq_some ht, by simpa using List.find?_some ht, rfl⟩

theorem forget_eq (r : Router) (a : String) : r.forget a = { r with pool := (r.forget a).pool } := by
  unfold forget
  split
  · split <;> rfl
  · rfl

theorem Event.setJob {i : Input} {t : Task} {core : Router} {job : Job} (ht : t ∈ r.tasks)
    (hh : t.job.helpers = []) (h : Turn r i t (some job) [] core acts) :
    Event r i (core.setJob t.id job) acts := turn_setJob hh job ▸ .turn ht h

/-- Whatever comes in, the step is a turn of a task, a new task or news. -/
theorem step_event (r : Router) (i : Input) : Event r i (r.step i).1 (r.step i).2 := by
  cases i with
  | opening => exact .call .opening
  | send command => exact .call .send
  | reload => exact .call .reload
  | step id choice =>
    simp only [step]
    split
    · exact .news .idle
    next t ht =>
    have hid : t.id = id := by simpa using List.find?_some ht
    cases h : r.stepTask choice t with
    | none => exact .news .idle
    | some x =>
      obtain ⟨job?, fresh, core, hx, he⟩ := stepTask_turn h
      subst hid
      simp only [Option.getD_some, he]
      exact .turn (List.mem_of_find?_eq_some ht) hx
  | dialed id result =>
    simp only [step, dialed]
    split
    next a hj =>
      obtain ⟨⟨_, root, _⟩, ht, rfl, rfl⟩ := exists_of_job? hj
      cases result with
      | ok c => exact Event.setJob (r := r) ht rfl .dialed
      | error e => exact .setJob ht rfl .refused
    · exact .news .idle
  | reply k o => exact .news .reply
  | rested id =>
    simp only [step, rested]
    split
    next s hj =>
      split
      next c hs =>
        obtain ⟨⟨_, root, _⟩, ht, rfl, rfl⟩ := exists_of_job? hj
        exact .setJob ht (by obtain ⟨_, _, _, _, _⟩ := s; cases hs; rfl) (.rested hs)
      · exact .news .idle
    · exact .news .idle
  | down c => exact .news .down
  | failed c e =>
    simp only [step, failed]
    split
    next h => exact .news (.failed (by rw [forget_eq] at h; exact h))
    next h => exact .call (.recovery (by rw [forget_eq] at h; simpa using h))
  | ended c => exact .news .ended
  | close => exact .news .close

end Router

end RespClient.Cluster
