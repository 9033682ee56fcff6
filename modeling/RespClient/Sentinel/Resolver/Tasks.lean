import RespClient.Sentinel.Resolver.State

namespace RespClient.Sentinel.Resolver

/-- What a step of a task comes to; a step that has to wait is none. -/
abbrev Step := Option (Resolver × List Action)

/-- Sentinels are asked in order, and the one that answers is asked first from then on. -/
def stepResolve (r : Resolver) (id : TaskId) (choice : Nat) (master : String) (role : Role)
    (stage : ResolveStage) : Step :=
  let become (r : Resolver) (stage : ResolveStage) := r.setJob id (.resolve master role stage)
  match stage with
  | .start => some (become r (.probing r.endpoints), [])
  | .probing [] => some (become r (.done (.error .noEndpoints)), [])
  | .probing (endpoint :: rest) => some (become r (.calling endpoint rest), [.dial id endpoint])
  | .calling _ _ => none
  | .asking endpoint rest c =>
    if r.isDown c then some (become r (.hangingUp endpoint rest c (.error .connectionClosed)), [])
    else
      let (t, r) := r.claim
      some (become r (.awaiting endpoint rest c t),
        [.submit c t ((question role master).encode r.settings.connection.nulls)])
  | .awaiting endpoint rest c t =>
    match r.mail? t with
    | none => none
    | some o =>
      let answer :=
        match o with
        | .error e => .error e
        | .ok reply =>
          match readAnswer role endpoint master choice reply with
          | .ok address => .ok address
          | .error fault => .error (.unexpectedReply fault.message)
      some (become (r.takeMail t) (.hangingUp endpoint rest c answer), [])
  | .hangingUp endpoint rest c answer => some (become r (.judging endpoint rest answer), [.close c])
  | .judging endpoint _ (.ok address) => some (become (r.promote endpoint) (.done (.ok address)), [])
  | .judging endpoint rest (.error e) =>
    some (become r (.probing rest),
      [.warn ("Sentinel " ++ endpoint ++ " could not resolve " ++ role.name ++ " of " ++ master ++
        ": " ++ e.message)])
  | .done _ => none

/-- The notification connection that listens at this moment. -/
def listener? (r : Resolver) : Option ConnId := r.notifier.filter fun c => !r.isDown c

/-- Notifying ends and passes the lock on. -/
def endNotify (r : Resolver) (id : TaskId) (result : Except ClientError Unit) : Resolver :=
  { r.setJob id (.notify (.done result)) with lock := r.lock.filter (· != id) }

def stepNotify (r : Resolver) (id root : TaskId) (stage : NotifyStage) : Step :=
  let become (r : Resolver) (stage : NotifyStage) := r.setJob id (.notify stage)
  match stage with
  | .enter => some (become { r with lock := r.lock ++ [id] } .waiting, [])
  | .waiting =>
    if r.lock.head? = some id then
      if r.listener?.isSome then some (r.endNotify id (.ok ()), [])
      else
        let (d, r) := r.spawn root (.resolve r.settings.masterName .sentinel .start)
        some (become r (.resolving d), [])
    else none
  | .resolving d =>
    match r.resolveResult? d with
    | none => none
    | some (.ok address) => some (become (r.remove d) .calling, [.dial id address])
    | some (.error e) => some ((r.remove d).endNotify id (.error e), [])
  | .calling => none
  | .opened c => some (become r (.listening c), [.watchMessages c])
  | .listening c => some (become r (.subscribing c), [.watchEnd c])
  | .subscribing c =>
    if r.isDown c then some (become r (.giveUp c .connectionClosed), [])
    else
      let (t, r) := r.claim
      some (become r (.awaiting c t),
        [.submit c t (subscription.encode r.settings.connection.nulls)])
  | .awaiting c t =>
    match r.mail? t with
    | none => none
    | some (.error e) => some (become (r.takeMail t) (.giveUp c e), [])
    | some (.ok _) => some ({ (r.takeMail t).endNotify id (.ok ()) with notifier := some c }, [])
  | .giveUp c e => some (r.endNotify id (.error e), [.close c])
  | .done _ => none

/-- The end of a task that was called from outside. -/
def finish (r : Resolver) (id : TaskId) (result : Result) : Resolver × List Action :=
  (r.remove id, [.finish id result])

def stepLookup (r : Resolver) (id root : TaskId) (master : String) (role : Role) :
    Option TaskId → Step
  | none =>
    let (d, r) := r.spawn root (.resolve master role .start)
    some (r.setJob id (.lookup master role (some d)), [])
  | some d =>
    match r.resolveResult? d with
    | none => none
    | some result => some ((r.remove d).finish id (.found result))

/-- Opening a connection first sees to it that one notification connection listens. -/
def stepOpening (r : Resolver) (id root : TaskId) (master : String) (role : Role)
    (stage : OpenStage) : Step :=
  let become (r : Resolver) (stage : OpenStage) := r.setJob id (.opening master role stage)
  match stage with
  | .start =>
    let (d, r) := r.spawn root (.notify .enter)
    some (become r (.notifying d), [])
  | .notifying d =>
    match r.notifyResult? d with
    | none => none
    | some (.error e) => some ((r.remove d).finish id (.opened (.error e)))
    | some (.ok ()) =>
      let (d', r) := (r.remove d).spawn root (.resolve master role .start)
      some (become r (.resolving d'), [])
  | .resolving d =>
    match r.resolveResult? d with
    | none => none
    | some (.error e) => some ((r.remove d).finish id (.opened (.error e)))
    | some (.ok address) => some (become (r.remove d) .calling, [.dial id address])
  | .calling => none

/-- One step of a task; `choice` settles what is left to chance. -/
def stepTask (r : Resolver) (choice : Nat) (t : Task) : Step :=
  match t.job with
  | .resolve master role stage => r.stepResolve t.id choice master role stage
  | .notify stage => r.stepNotify t.id t.root stage
  | .lookup master role d => r.stepLookup t.id t.root master role d
  | .opening master role stage => r.stepOpening t.id t.root master role stage

/-- The task has all that its next step needs. -/
def isFree (r : Resolver) (t : Task) : Bool :=
  let answered (c : Claim) : Bool := (r.mail? c).isSome
  let resolved (d : TaskId) : Bool := (r.resolveResult? d).isSome
  match t.job with
  | .resolve _ _ stage =>
    match stage with
    | .calling _ _ | .done _ => false
    | .awaiting _ _ _ c => answered c
    | _ => true
  | .notify stage =>
    match stage with
    | .waiting => r.lock.head? = some t.id
    | .resolving d => resolved d
    | .awaiting _ c => answered c
    | .calling | .done _ => false
    | _ => true
  | .lookup _ _ d => d.all resolved
  | .opening _ _ stage =>
    match stage with
    | .start => true
    | .notifying d => (r.notifyResult? d).isSome
    | .resolving d => resolved d
    | .calling => false

section

variable (r : Resolver) (id root choice : Nat)

theorem stepResolve_isSome (master : String) (role : Role) (stage : ResolveStage) :
    (r.stepTask choice ⟨id, root, .resolve master role stage⟩).isSome =
      r.isFree ⟨id, root, .resolve master role stage⟩ := by
  cases stage with
  | start | calling | hangingUp | done => rfl
  | probing rest => cases rest <;> rfl
  | asking endpoint rest c =>
    dsimp only [stepTask, isFree, stepResolve]
    cases r.isDown c <;> rfl
  | awaiting endpoint rest c t =>
    dsimp only [stepTask, isFree, stepResolve]
    cases r.mail? t <;> rfl
  | judging endpoint rest answer => cases answer <;> rfl

theorem stepNotify_isSome (stage : NotifyStage) :
    (r.stepTask choice ⟨id, root, .notify stage⟩).isSome = r.isFree ⟨id, root, .notify stage⟩ := by
  cases stage with
  | enter | calling | opened | listening | giveUp | done => rfl
  | waiting =>
    dsimp only [stepTask, isFree, stepNotify]
    by_cases h : r.lock.head? = some id
    · simp only [h, if_true, decide_true]
      cases r.listener?.isSome <;> rfl
    · simp only [h, if_false, decide_false, Option.isSome_none]
  | resolving d =>
    dsimp only [stepTask, isFree, stepNotify]
    cases r.resolveResult? d with
    | none => rfl
    | some result => cases result <;> rfl
  | subscribing c =>
    dsimp only [stepTask, isFree, stepNotify]
    cases r.isDown c <;> rfl
  | awaiting c t =>
    dsimp only [stepTask, isFree, stepNotify]
    cases r.mail? t with
    | none => rfl
    | some o => cases o <;> rfl

theorem stepLookup_isSome (master : String) (role : Role) (d? : Option TaskId) :
    (r.stepTask choice ⟨id, root, .lookup master role d?⟩).isSome =
      r.isFree ⟨id, root, .lookup master role d?⟩ := by
  cases d? with
  | none => rfl
  | some d =>
    dsimp only [stepTask, isFree, stepLookup, Option.all_some]
    cases r.resolveResult? d <;> rfl

theorem stepOpening_isSome (master : String) (role : Role) (stage : OpenStage) :
    (r.stepTask choice ⟨id, root, .opening master role stage⟩).isSome =
      r.isFree ⟨id, root, .opening master role stage⟩ := by
  cases stage with
  | start | calling => rfl
  | notifying d =>
    dsimp only [stepTask, isFree, stepOpening]
    cases r.notifyResult? d with
    | none => rfl
    | some result => cases result <;> rfl
  | resolving d =>
    dsimp only [stepTask, isFree, stepOpening]
    cases r.resolveResult? d with
    | none => rfl
    | some result => cases result <;> rfl

end

theorem stepTask_isSome (r : Resolver) (choice : Nat) (t : Task) :
    (r.stepTask choice t).isSome = r.isFree t := by
  obtain ⟨id, root, job⟩ := t
  cases job with
  | resolve => exact stepResolve_isSome ..
  | notify => exact stepNotify_isSome ..
  | lookup => exact stepLookup_isSome ..
  | opening => exact stepOpening_isSome ..

end RespClient.Sentinel.Resolver
