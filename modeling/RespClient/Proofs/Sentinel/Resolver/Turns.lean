import RespClient.Proofs.Sentinel.Answer
import RespClient.Sentinel.Resolver

namespace RespClient.Sentinel

/-- The task that a job waits for and takes away when it is done. -/
def Job.helper? : Job → Option TaskId
  | .notify (.resolving d) | .lookup _ _ (some d) => some d
  | .opening _ _ (.notifying d) | .opening _ _ (.resolving d) => some d
  | _ => none

/-- How a task begins. -/
inductive Job.IsFresh : Job → Prop
  | resolve (master : String) (role : Role) : IsFresh (.resolve master role .start)
  | notify : IsFresh (.notify .enter)
  | lookup (master : String) (role : Role) : IsFresh (.lookup master role none)
  | opening (master : String) (role : Role) : IsFresh (.opening master role .start)

/-- What an outcome of the question for a role comes to. -/
def verdict (role : Role) (endpoint master : String) (choice : Nat) : Outcome →
    Except ClientError String
  | .error e => .error e
  | .ok reply =>
    match readAnswer role endpoint master choice reply with
    | .ok address => .ok address
    | .error fault => .error (.unexpectedReply fault.message)

theorem verdict_spec (role : Role) (endpoint master : String) (choice : Nat) (o : Outcome) :
    Verdict endpoint choice role o (verdict role endpoint master choice o) := by
  cases o with
  | error e => exact .failed e
  | ok reply =>
    cases h : readAnswer role endpoint master choice reply with
    | ok address =>
      simp only [verdict, h]
      exact .named (readAnswer_eq_ok.mp h)
    | error fault =>
      simp only [verdict, h]
      refine .unnamed _ fun address hn => ?_
      cases (readAnswer_eq_ok.mpr hn).symm.trans h

namespace Resolver

/-- Task `t` takes its turn: its helper goes, a fresh task comes, and it has another job or is over. -/
def turn (r : Resolver) (t : Task) (job? fresh? : Option Job) : Resolver :=
  let r := t.job.helper?.elim r r.remove
  let r := fresh?.elim r fun job => (r.spawn t.root job).2
  match job? with
  | some job => r.setJob t.id job
  | none => r.remove t.id

def unlock (r : Resolver) (id : TaskId) : Resolver := { r with lock := r.lock.filter (· != id) }

section Turns

variable (r : Resolver) (id : TaskId)

inductive ResolveTurn (master : String) (role : Role) (choice : Nat) :
    ResolveStage → ResolveStage → Resolver → List Action → Prop
  | start : ResolveTurn master role choice .start (.probing r.endpoints) r []
  | exhausted : ResolveTurn master role choice (.probing []) (.done (.error .noEndpoints)) r []
  | call {endpoint rest} : ResolveTurn master role choice (.probing (endpoint :: rest))
      (.calling endpoint rest) r [.dial id endpoint]
  | mute {endpoint rest c} (h : r.isDown c = true) : ResolveTurn master role choice
      (.asking endpoint rest c) (.hangingUp endpoint rest c (.error .connectionClosed)) r []
  | ask {endpoint rest c} (h : r.isDown c = false) : ResolveTurn master role choice
      (.asking endpoint rest c) (.awaiting endpoint rest c r.next) { r with next := r.next + 1 }
      [.submit c r.next (questionFrame master role)]
  | answered {endpoint rest c k o} (h : r.mail? k = some o) : ResolveTurn master role choice
      (.awaiting endpoint rest c k)
      (.hangingUp endpoint rest c (verdict role endpoint master choice o)) (r.takeMail k) []
  | hangUp {endpoint rest c answer} : ResolveTurn master role choice
      (.hangingUp endpoint rest c answer) (.judging endpoint rest answer) r [.close c]
  | accept {endpoint rest address} : ResolveTurn master role choice
      (.judging endpoint rest (.ok address)) (.done (.ok address)) (r.promote endpoint) []
  | reject {endpoint rest e text} : ResolveTurn master role choice
      (.judging endpoint rest (.error e)) (.probing rest) r [.warn text]

inductive NotifyTurn : NotifyStage → NotifyStage → Option Job → Resolver → List Action → Prop
  | enter : NotifyTurn .enter .waiting none { r with lock := r.lock ++ [id] } []
  | found {c} (h : r.lock.head? = some id) (hc : r.listener? = some c) :
      NotifyTurn .waiting (.done (.ok ())) none (r.unlock id) []
  | resolve (h : r.lock.head? = some id) (hn : r.listener? = none) :
      NotifyTurn .waiting (.resolving r.next)
        (some (.resolve r.settings.masterName .sentinel .start)) r []
  | call {d address} (h : r.resolveResult? d = some (.ok address)) :
      NotifyTurn (.resolving d) .calling none r [.dial id address]
  | stuck {d e} (h : r.resolveResult? d = some (.error e)) :
      NotifyTurn (.resolving d) (.done (.error e)) none (r.unlock id) []
  | watchMessages {c} : NotifyTurn (.opened c) (.listening c) none r [.watchMessages c]
  | watchEnd {c} : NotifyTurn (.listening c) (.subscribing c) none r [.watchEnd c]
  | mute {c} (h : r.isDown c = true) :
      NotifyTurn (.subscribing c) (.giveUp c .connectionClosed) none r []
  | subscribe {c} (h : r.isDown c = false) :
      NotifyTurn (.subscribing c) (.awaiting c r.next) none { r with next := r.next + 1 }
        [.submit c r.next subscriptionFrame]
  | rebuffed {c k e} (h : r.mail? k = some (.error e)) :
      NotifyTurn (.awaiting c k) (.giveUp c e) none (r.takeMail k) []
  | record {c k x} (h : r.mail? k = some (.ok x)) :
      NotifyTurn (.awaiting c k) (.done (.ok ())) none
        { (r.takeMail k).unlock id with notifier := some c } []
  | giveUp {c e} : NotifyTurn (.giveUp c e) (.done (.error e)) none (r.unlock id) [.close c]

inductive OpeningTurn (master : String) (role : Role) :
    OpenStage → Option OpenStage → Option Job → List Action → Prop
  | start : OpeningTurn master role .start (some (.notifying r.next)) (some (.notify .enter)) []
  | refused {d e} (h : r.notifyResult? d = some (.error e)) :
      OpeningTurn master role (.notifying d) none none [.finish id (.opened (.error e))]
  | notified {d} (h : r.notifyResult? d = some (.ok ())) :
      OpeningTurn master role (.notifying d) (some (.resolving r.next))
        (some (.resolve master role .start)) []
  | lost {d e} (h : r.resolveResult? d = some (.error e)) :
      OpeningTurn master role (.resolving d) none none [.finish id (.opened (.error e))]
  | found {d address} (h : r.resolveResult? d = some (.ok address)) :
      OpeningTurn master role (.resolving d) (some .calling) none [.dial id address]

end Turns

section Events

variable (r : Resolver)

/-- The turn of a task, by its own step or by the end of its attempt to connect. -/
inductive Turn : Input → Task → Option Job → Option Job → Resolver → List Action → Prop
  | resolve {id root choice master role stage stage' core acts}
      (h : ResolveTurn r id master role choice stage stage' core acts) :
      Turn (.step id choice) ⟨id, root, .resolve master role stage⟩
        (some (.resolve master role stage')) none core acts
  | notify {id root choice stage stage' fresh? core acts}
      (h : NotifyTurn r id stage stage' fresh? core acts) :
      Turn (.step id choice) ⟨id, root, .notify stage⟩ (some (.notify stage')) fresh? core acts
  | lookup {id root choice master role} :
      Turn (.step id choice) ⟨id, root, .lookup master role none⟩
        (some (.lookup master role (some r.next))) (some (.resolve master role .start)) r []
  | found {id root choice master role d result} (h : r.resolveResult? d = some result) :
      Turn (.step id choice) ⟨id, root, .lookup master role (some d)⟩ none none r
        [.finish id (.found result)]
  | opening {id root choice master role stage stage' fresh? acts}
      (h : OpeningTurn r id master role stage stage' fresh? acts) :
      Turn (.step id choice) ⟨id, root, .opening master role stage⟩
        (stage'.map (.opening master role)) fresh? r acts
  | reached {id root master role endpoint rest c} :
      Turn (.dialed id (.ok c)) ⟨id, root, .resolve master role (.calling endpoint rest)⟩
        (some (.resolve master role (.asking endpoint rest c))) none r []
  | missed {id root master role endpoint rest e} :
      Turn (.dialed id (.error e)) ⟨id, root, .resolve master role (.calling endpoint rest)⟩
        (some (.resolve master role (.judging endpoint rest (.error e)))) none r []
  | connected {id root c} : Turn (.dialed id (.ok c)) ⟨id, root, .notify .calling⟩
      (some (.notify (.opened c))) none r []
  | unreachable {id root e} : Turn (.dialed id (.error e)) ⟨id, root, .notify .calling⟩
      (some (.notify (.done (.error e)))) none (r.unlock id) []
  | opened {id root master role result} :
      Turn (.dialed id result) ⟨id, root, .opening master role .calling⟩ none none r
        [.finish id (.opened result)]

/-- A new task that works for nobody else. -/
inductive Call : Input → Job → Prop
  | lookup {master role} : Call (.lookup master role) (.lookup master role none)
  | opening {master role} : Call (.opening master role) (.opening master role .start)

/-- What happens without a task. -/
inductive News : Input → Resolver → List Action → Prop
  | idle {i} : News i r []
  | reply {k o} : News (.reply k o) { r with mail := r.mail ++ [(k, o)] } []
  | down {c} : News (.down c) { r with down := r.down ++ [c] } []
  | message {c x} (h : isMessage x = true) : News (.message c x) r [.reportFailover]
  | cleared {c c'} (h : r.notifier = some c') (hd : r.isDown c' = true) :
      News (.ended c) { r with notifier := none } []
  | close : News .close { r with notifier := none } (r.notifier.map Action.close).toList

/-- What an input comes to. -/
inductive Event (i : Input) : Resolver → List Action → Prop
  | turn {t job? fresh? core acts} (ht : t ∈ r.tasks) (h : Turn r i t job? fresh? core acts) :
      Event i (core.turn t job? fresh?) acts
  | call {job} (h : Call i job) : Event i (r.call job).2 []
  | news {core acts} (h : News r i core acts) : Event i core acts

end Events

variable {r r' : Resolver} {id root : TaskId} {choice : Nat} {master : String} {role : Role}
  {acts : List Action}

/-- A task that waited for nobody only changes its job. -/
theorem turn_setJob {t : Task} (ht : t.job.helper? = none) (job : Job) :
    r.turn t (some job) none = r.setJob t.id job := by
  simp only [turn, ht, Option.elim_none]

/-- A promotion changes the endpoints and nothing else. -/
theorem promote_eq (r : Resolver) (endpoint : String) :
    r.promote endpoint = { r with endpoints := (r.promote endpoint).endpoints } := by
  unfold promote
  split <;> rfl

theorem stepResolve_turn {stage : ResolveStage}
    (h : r.stepResolve id choice master role stage = some (r', acts)) :
    ∃ stage' core, ResolveTurn r id master role choice stage stage' core acts ∧
      r' = core.setJob id (.resolve master role stage') := by
  cases stage with
  | start => cases h; exact ⟨_, _, .start, rfl⟩
  | probing rest =>
    cases rest with
    | nil => cases h; exact ⟨_, _, .exhausted, rfl⟩
    | cons endpoint rest => cases h; exact ⟨_, _, .call, rfl⟩
  | calling | done => cases h
  | asking endpoint rest c =>
    simp only [stepResolve, question_encode] at h
    split at h <;> cases h
    · exact ⟨_, _, .mute ‹_›, rfl⟩
    · exact ⟨_, _, .ask ((Bool.not_eq_true _).mp ‹_›), rfl⟩
  | awaiting endpoint rest c k =>
    simp only [stepResolve] at h
    split at h
    · cases h
    next o hm =>
      have hx : ResolveTurn r id master role choice (.awaiting endpoint rest c k)
          (.hangingUp endpoint rest c (verdict role endpoint master choice o)) (r.takeMail k) [] :=
        .answered hm
      cases h
      cases o with
      | ok reply => exact ⟨_, _, hx, rfl⟩
      | error e => exact ⟨_, _, hx, rfl⟩
  | hangingUp endpoint rest c answer => cases h; exact ⟨_, _, .hangUp, rfl⟩
  | judging endpoint rest answer =>
    cases answer with
    | ok address => cases h; exact ⟨_, _, .accept, rfl⟩
    | error e => cases h; exact ⟨_, _, .reject, rfl⟩

theorem stepNotify_turn {stage : NotifyStage} (h : r.stepNotify id root stage = some (r', acts)) :
    ∃ stage' fresh? core, NotifyTurn r id stage stage' fresh? core acts ∧
      r' = core.turn ⟨id, root, .notify stage⟩ (some (.notify stage')) fresh? := by
  have quiet (core : Resolver) (stage' : NotifyStage) (hs : (Job.notify stage).helper? = none) :
      core.setJob id (.notify stage') = core.turn ⟨id, root, .notify stage⟩ (some (.notify stage')) none :=
    (turn_setJob (t := ⟨id, root, .notify stage⟩) hs _).symm
  cases stage with
  | enter => cases h; exact ⟨_, _, _, .enter, quiet _ _ rfl⟩
  | waiting =>
    simp only [stepNotify] at h
    split at h
    next hhead =>
      cases hl : r.listener? with
      | some c =>
        simp only [hl, Option.isSome_some, if_true] at h
        cases h
        exact ⟨_, _, _, .found hhead hl, quiet (r.unlock id) _ rfl⟩
      | none =>
        simp only [hl, Option.isSome_none, Bool.false_eq_true, if_false] at h
        cases h
        exact ⟨_, _, _, .resolve hhead hl, rfl⟩
    · cases h
  | resolving d =>
    simp only [stepNotify] at h
    split at h <;> cases h
    · exact ⟨_, _, _, .call ‹_›, rfl⟩
    · exact ⟨_, _, _, .stuck ‹_›, rfl⟩
  | calling | done => cases h
  | opened c => cases h; exact ⟨_, _, _, .watchMessages, quiet _ _ rfl⟩
  | listening c => cases h; exact ⟨_, _, _, .watchEnd, quiet _ _ rfl⟩
  | subscribing c =>
    simp only [stepNotify, subscription_encode] at h
    split at h <;> cases h
    · exact ⟨_, _, _, .mute ‹_›, quiet _ _ rfl⟩
    · exact ⟨_, _, _, .subscribe ((Bool.not_eq_true _).mp ‹_›), quiet _ _ rfl⟩
  | awaiting c k =>
    simp only [stepNotify] at h
    split at h <;> cases h
    · exact ⟨_, _, _, .rebuffed ‹_›, quiet _ _ rfl⟩
    · exact ⟨_, _, _, .record ‹_›,
        quiet { (r.takeMail k).unlock id with notifier := some c } _ rfl⟩
  | giveUp c e => cases h; exact ⟨_, _, _, .giveUp, quiet (r.unlock id) _ rfl⟩

theorem stepOpening_turn {stage : OpenStage}
    (h : r.stepOpening id root master role stage = some (r', acts)) :
    ∃ stage' fresh?, OpeningTurn r id master role stage stage' fresh? acts ∧
      r' = r.turn ⟨id, root, .opening master role stage⟩ (stage'.map (.opening master role)) fresh? := by
  cases stage with
  | start => cases h; exact ⟨_, _, .start, rfl⟩
  | notifying d =>
    simp only [stepOpening] at h
    split at h <;> cases h
    · exact ⟨_, _, .refused ‹_›, rfl⟩
    · exact ⟨_, _, .notified ‹_›, rfl⟩
  | resolving d =>
    simp only [stepOpening] at h
    split at h <;> cases h
    · exact ⟨_, _, .lost ‹_›, rfl⟩
    · exact ⟨_, _, .found ‹_›, rfl⟩
  | calling => cases h

theorem stepTask_turn {t : Task} (h : r.stepTask choice t = some (r', acts)) :
    ∃ job? fresh? core, Turn r (.step t.id choice) t job? fresh? core acts ∧
      r' = core.turn t job? fresh? := by
  obtain ⟨id, root, job⟩ := t
  cases job with
  | resolve master role stage =>
    obtain ⟨stage', core, hx, rfl⟩ := stepResolve_turn h
    exact ⟨_, _, _, .resolve hx, (turn_setJob (t := ⟨id, root, .resolve master role stage⟩) rfl _).symm⟩
  | notify stage =>
    obtain ⟨stage', fresh?, core, hx, rfl⟩ := stepNotify_turn h
    exact ⟨_, _, _, .notify hx, rfl⟩
  | lookup master role d =>
    cases d with
    | none => cases h; exact ⟨_, _, _, .lookup, rfl⟩
    | some d =>
      simp only [stepTask, stepLookup] at h
      split at h <;> cases h
      exact ⟨_, _, _, .found ‹_›, rfl⟩
  | opening master role stage =>
    obtain ⟨stage', fresh?, hx, rfl⟩ := stepOpening_turn h
    exact ⟨_, _, _, .opening hx, rfl⟩

theorem exists_of_job? {job : Job} (h : r.job? id = some job) :
    ∃ t ∈ r.tasks, t.id = id ∧ t.job = job := by
  simp only [job?, Option.map_eq_some_iff] at h
  obtain ⟨t, ht, rfl⟩ := h
  exact ⟨t, List.mem_of_find?_eq_some ht, by simpa using List.find?_some ht, rfl⟩

theorem exists_of_resolveResult? {result : Except ClientError String}
    (h : r.resolveResult? id = some result) :
    ∃ t ∈ r.tasks, t.id = id ∧ ∃ master role, t.job = .resolve master role (.done result) := by
  unfold resolveResult? at h
  split at h
  next hj =>
    cases h
    obtain ⟨t, ht, hid, hjob⟩ := exists_of_job? hj
    exact ⟨t, ht, hid, _, _, hjob⟩
  · cases h

theorem exists_of_notifyResult? {result : Except ClientError Unit}
    (h : r.notifyResult? id = some result) :
    ∃ t ∈ r.tasks, t.id = id ∧ t.job = .notify (.done result) := by
  unfold notifyResult? at h
  split at h
  next hj =>
    cases h
    exact exists_of_job? hj
  · cases h

theorem Event.setJob {i : Input} {t : Task} {core : Resolver} {job : Job} (ht : t ∈ r.tasks)
    (hh : t.job.helper? = none) (h : Turn r i t (some job) none core acts) :
    Event r i (core.setJob t.id job) acts := turn_setJob hh job ▸ .turn ht h

/-- Whatever comes in, the step is a turn of a task, a new task or news. -/
theorem step_event (r : Resolver) (i : Input) : Event r i (r.step i).1 (r.step i).2 := by
  cases i with
  | lookup master role => exact .call .lookup
  | opening master role => exact .call .opening
  | step id choice =>
    simp only [step]
    split
    · exact .news .idle
    next t ht =>
    have hid : t.id = id := by simpa using List.find?_some ht
    cases h : r.stepTask choice t with
    | none => exact .news .idle
    | some x =>
      obtain ⟨job?, fresh?, core, hx, he⟩ := stepTask_turn h
      subst hid
      simp only [Option.getD_some, he]
      exact .turn (List.mem_of_find?_eq_some ht) hx
  | dialed id result =>
    simp only [step, dialed]
    split
    next master role endpoint rest hj =>
      obtain ⟨⟨_, root, _⟩, ht, rfl, rfl⟩ := exists_of_job? hj
      cases result with
      | ok c => exact .setJob ht rfl .reached
      | error e => exact .setJob ht rfl .missed
    next hj =>
      obtain ⟨⟨tid, root, _⟩, ht, rfl, rfl⟩ := exists_of_job? hj
      cases result with
      | ok c => exact .setJob ht rfl .connected
      | error e =>
        have hx : Event r (.dialed tid (.error e))
            ((r.unlock tid).setJob tid (.notify (.done (.error e)))) [] := .setJob ht rfl .unreachable
        exact hx
    next master role hj =>
      obtain ⟨⟨_, root, _⟩, ht, rfl, rfl⟩ := exists_of_job? hj
      exact .turn ht .opened
    · exact .news .idle
  | reply k o => exact .news .reply
  | down c => exact .news .down
  | message c x =>
    simp only [step]
    split
    next h => exact .news (.message h)
    · exact .news .idle
  | ended c =>
    simp only [step]
    split
    next h =>
      obtain ⟨c', hc, hd⟩ : ∃ c', r.notifier = some c' ∧ r.isDown c' = true := by
        simpa [Option.any_eq_true] using h
      exact .news (.cleared hc hd)
    · exact .news .idle
  | close => exact .news .close

end Resolver

end RespClient.Sentinel
