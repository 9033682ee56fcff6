import RespClient.Cluster.Router.State

namespace RespClient.Cluster

/-- The member of a shard that serves a command: the master unless the command only reads and the
policy lets a replica do it. -/
def selectNode (policy : ReplicaPolicy) (readOnly : Bool) (members choice : Nat) : Nat :=
  if !readOnly || members < 2 then 0
  else
    match policy with
    | .never => 0
    | .always => 1 + choice % (members - 1)
    | .share => choice % members

namespace Router

/-- What a step of a task comes to; a step that has to wait is none. -/
abbrev Step := Option (Router × List Action)

def readonlyFrame : Bytes := (Command.ofName "READONLY").encode .emptyBulk

def askingFrame : Bytes := (Command.ofName "ASKING").encode .emptyBulk

def slotsFrame : Bytes := (Command.ofName "CLUSTER SLOTS").encode .emptyBulk

theorem readonlyFrame_eq : readonlyFrame = Bytes.ofText "*1\r\n$8\r\nREADONLY\r\n" := rfl

theorem askingFrame_eq : askingFrame = Bytes.ofText "*1\r\n$6\r\nASKING\r\n" := rfl

theorem slotsFrame_eq : slotsFrame = Bytes.ofText "*2\r\n$7\r\nCLUSTER\r\n$5\r\nSLOTS\r\n" := rfl

def stepDial (r : Router) (id : TaskId) (address : String) (stage : DialStage) : Step :=
  let become (r : Router) (stage : DialStage) := r.setJob id (.dial address stage)
  match stage with
  | .seek =>
    match r.live? address with
    | some c => some (become r (.done (.ok c)), [])
    | none => some (become r .calling, [.dial id address])
  | .calling => none
  | .opened c => some (become r (.guarded c), [.watchFailure c])
  | .guarded c =>
    some (become r (if r.settings.replicas = .never then .join c else .greet c), [.watchEnd c])
  | .greet c =>
    if r.isDown c then
      some (become r (.join c), [.warn ("READONLY on " ++ address ++ " failed: " ++
        ClientError.connectionClosed.message)])
    else
      let (t, r) := r.claim
      some (become r (.greeting c t), [.submit c t readonlyFrame])
  | .greeting c t =>
    match r.mail? t with
    | none => none
    | some (.ok _) => some (become (r.takeMail t) (.join c), [])
    | some (.error e) =>
      some (become (r.takeMail t) (.join c),
        [.warn ("READONLY on " ++ address ++ " failed: " ++ e.message)])
  | .join c =>
    if r.isDown c then some (become r (.done (.error .connectionClosed)), [])
    else
      match r.live? address with
      | some winner => some (become r (.surplus c winner), [])
      | none => some (become (r.insert address c) (.done (.ok c)), [])
  | .surplus c winner => some (become r (.done (.ok winner)), [.close c])
  | .done _ => none

/-- A refresh ends and passes the lock on. -/
def endRefresh (r : Router) (id : TaskId) (result : Except ClientError Unit) : Router :=
  { r.setJob id (.refresh (.done result)) with lock := r.lock.filter (· != id) }

/-- The addresses that a table lists and the pool does not reach. -/
def missing (r : Router) (table : SlotTable) : List String :=
  table.addresses.filter fun a => (r.live? a).isNone

/-- A warning for each node that could not be reached. -/
def dialWarnings (r : Router) (dials : List (String × TaskId)) : List Action :=
  dials.filterMap fun (address, d) =>
    match r.dialResult? d with
    | some (.error e) =>
      some (.warn ("Failed to connect to cluster node " ++ address ++ ": " ++ e.message))
    | _ => none

def stepRefresh (r : Router) (id root : TaskId) (choice : Nat) (stage : RefreshStage) : Step :=
  let become (r : Router) (stage : RefreshStage) := r.setJob id (.refresh stage)
  let skip (r : Router) (failed : List String) (address : String) (e : ClientError) :=
    (become r (.choosing (failed ++ [address])),
      [Action.warn ("CLUSTER SLOTS from " ++ address ++ " failed: " ++ e.message)])
  match stage with
  | .enter => some (become { r with lock := r.lock ++ [id] } .waiting, [])
  | .waiting => if r.lock.head? = some id then some (become r (.choosing []), []) else none
  | .choosing failed =>
    match r.pick failed choice with
    | some (address, c) => some (become r (.asking failed address c), [])
    | none => some (r.endRefresh id (.error .noConnection), [])
  | .asking failed address c =>
    if r.isDown c then some (skip r failed address .connectionClosed)
    else
      let (t, r) := r.claim
      some (become r (.awaiting failed address c t), [.submit c t slotsFrame])
  | .awaiting failed address _ t =>
    match r.mail? t with
    | none => none
    | some (.error e) => some (skip (r.takeMail t) failed address e)
    | some (.ok reply) =>
      match SlotTable.load (Address.hostOf address) reply with
      | .ok table => some (become (r.takeMail t) (.comparing table), [])
      | .error e => some (skip (r.takeMail t) failed address e)
  | .comparing table =>
    let addresses := r.missing table
    let (ids, r) := r.spawnAll root (addresses.map fun a => .dial a .seek)
    some (become r (.filling table (addresses.zip ids)), [])
  | .filling table dials =>
    if dials.all fun d => (r.dialResult? d.2).isSome then
      some (become (r.remove (dials.map (·.2))) (.installing table), r.dialWarnings dials)
    else none
  | .installing table =>
    let r := { r with table := table }
    if table.addresses.isEmpty then some (r.endRefresh id (.ok ()), [])
    else some (become r (.evicting table), [])
  | .evicting table =>
    let listed (e : String × ConnId) := table.addresses.contains e.1
    let stale := r.pool.filter fun e => !listed e
    some (become { r with pool := r.pool.filter listed } (.closing (stale.map (·.2))), [])
  | .closing [] => some (r.endRefresh id (.ok ()), [])
  | .closing (c :: cs) => some (become r (.closing cs), [.close c])
  | .done _ => none

/-- The node that the installed table gives a command, if it has a slot that is assigned. -/
def target? (r : Router) (command : Command) (choice : Nat) : Option String :=
  command.slot.bind fun slot => (r.table.shard? slot.val).bind fun shard =>
    shard[selectNode r.settings.replicas command.readOnly shard.length choice]?

/-- The end of a task that was called from outside. -/
def finish (r : Router) (id : TaskId) (result : Result) : Router × List Action :=
  (r.remove [id], [.finish id result])

/-- An attempt came to `o` on connection `c`: the command is done, or a redirect takes one from its
budget. -/
def conclude (r : Router) (id root : TaskId) (s : Sending) (c : ConnId) (o : Outcome) :
    Router × List Action :=
  let become (r : Router) (stage : SendStage) :=
    r.setJob id (.send { s with stage := stage, budget := s.budget - 1, attempt := s.attempt + 1 })
  match o with
  | .ok _ => r.finish id (.sent o)
  | .error e =>
    match Redirect.ofError? e with
    | none => r.finish id (.sent o)
    | some redirect =>
      if s.budget = 0 then r.finish id (.sent o)
      else
        match redirect with
        | .moved _ address =>
          let (d, r) := r.spawn root (.refresh .enter)
          (become r (.refreshing c (resolveTarget address (r.origin c)) d), [])
        | .ask _ address =>
          let (d, r) := r.spawn root (.dial (resolveTarget address (r.origin c)) .seek)
          (become r (.reaching (some c) d true), [])
        | .tryAgain | .clusterDown =>
          (become r (.resting c), [.rest id (r.settings.backoff.delay s.attempt.toUInt32).toNat])

def stepSend (r : Router) (id root : TaskId) (choice : Nat) (s : Sending) : Step :=
  let become (r : Router) (stage : SendStage) := r.setJob id (.send { s with stage := stage })
  let closed := r.finish id (.sent (.error .connectionClosed))
  match s.stage with
  | .route =>
    match r.target? s.command choice with
    | some address =>
      let (d, r) := r.spawn root (.dial address .seek)
      some (become r (.reaching none d false), [])
    | none =>
      match r.pick [] choice with
      | some (_, c) => some (become r (.submit c), [])
      | none => some (r.finish id (.sent (.error .noConnection)))
  | .reaching _ d asking =>
    match r.dialResult? d with
    | none => none
    | some (.ok c) => some (become (r.remove [d]) (if asking then .submitAsking c else .submit c), [])
    | some (.error e) => some ((r.remove [d]).finish id (.sent (.error e)))
  | .submit c =>
    if r.isDown c then some closed
    else
      let (t, r) := r.claim
      some (become r (.awaiting c t), [.submit c t s.frame])
  | .submitAsking c =>
    if r.isDown c then some closed
    else
      let (t, r) := r.claim
      some (become r (.submitAsked c t), [.submit c t askingFrame])
  | .submitAsked c asking =>
    if r.isDown c then some closed
    else
      let (t, r) := r.claim
      some (become r (.awaitingAsking c asking t), [.submit c t s.frame])
  | .awaitingAsking c asking t =>
    match r.mail? asking with
    | none => none
    | some _ => some (become (r.takeMail asking) (.awaiting c t), [])
  | .awaiting c t =>
    match r.mail? t with
    | none => none
    | some o => some ((r.takeMail t).conclude id root s c o)
  | .refreshing c target d =>
    match r.refreshResult? d with
    | none => none
    | some result =>
      let warnings :=
        match result with
        | .ok () => []
        | .error e => [Action.warn ("Slot refresh after MOVED failed: " ++ e.message)]
      let (d', r) := (r.remove [d]).spawn root (.dial target .seek)
      some (become r (.reaching (some c) d' false), warnings)
  | .resting _ => none

/-- Every pooled connection is asked to close, and no failure starts a recovery any more. -/
def close (r : Router) : Router × List Action :=
  ({ r with closed := true }, r.pool.map fun e => .close e.2)

/-- Opening failed: what is pooled is closed. -/
def abandon (r : Router) (id : TaskId) (e : ClientError) : Router × List Action :=
  let (r, closes) := r.close
  let (r, last) := r.finish id (.opened (.error e))
  (r, closes ++ last)

/-- The first of several dials that failed. -/
def firstFailure? (r : Router) (dials : List TaskId) : Option ClientError :=
  dials.findSome? fun d =>
    match r.dialResult? d with
    | some (.error e) => some e
    | _ => none

def stepOpening (r : Router) (id root : TaskId) (stage : OpeningStage) : Step :=
  match stage with
  | .start =>
    let (ids, r) := r.spawnAll root (r.settings.seeds.map fun a => .dial a .seek)
    some (r.setJob id (.opening (.seeding ids)), [])
  | .seeding dials =>
    match r.firstFailure? dials with
    | some e => some ((r.remove dials).abandon id e)
    | none =>
      if dials.all fun d => (r.dialResult? d).isSome then
        let (d, r) := (r.remove dials).spawn root (.refresh .enter)
        some (r.setJob id (.opening (.loading d)), [])
      else none
  | .loading d =>
    match r.refreshResult? d with
    | none => none
    | some (.ok ()) => some ((r.remove [d]).finish id (.opened (.ok ())))
    | some (.error e) => some ((r.remove [d]).abandon id e)

def stepReload (r : Router) (id root : TaskId) : Option TaskId → Step
  | none =>
    let (d, r) := r.spawn root (.refresh .enter)
    some (r.setJob id (.reload (some d)), [])
  | some d =>
    match r.refreshResult? d with
    | none => none
    | some result => some ((r.remove [d]).finish id (.refreshed result))

def stepRecovery (r : Router) (id root : TaskId) : Option TaskId → Step
  | none =>
    let (d, r) := r.spawn root (.refresh .enter)
    some (r.setJob id (.recovery (some d)), [])
  | some d =>
    match r.refreshResult? d with
    | none => none
    | some (.ok ()) => some (r.remove [d, id], [])
    | some (.error e) =>
      some (r.remove [d, id],
        [.warn ("Slot refresh after connection failure failed: " ++ e.message)])

/-- One step of a task; `choice` settles what is left to chance. -/
def stepTask (r : Router) (choice : Nat) (t : Task) : Step :=
  match t.job with
  | .dial address stage => r.stepDial t.id address stage
  | .refresh stage => r.stepRefresh t.id t.root choice stage
  | .send s => r.stepSend t.id t.root choice s
  | .opening stage => r.stepOpening t.id t.root stage
  | .reload d => r.stepReload t.id t.root d
  | .recovery d => r.stepRecovery t.id t.root d

/-- The task has all that its next step needs. -/
def isFree (r : Router) (t : Task) : Bool :=
  let answered (c : Claim) : Bool := (r.mail? c).isSome
  let dialed (d : TaskId) : Bool := (r.dialResult? d).isSome
  let refreshed (d : TaskId) : Bool := (r.refreshResult? d).isSome
  match t.job with
  | .dial _ stage =>
    match stage with
    | .calling | .done _ => false
    | .greeting _ c => answered c
    | _ => true
  | .refresh stage =>
    match stage with
    | .waiting => r.lock.head? = some t.id
    | .awaiting _ _ _ c => answered c
    | .filling _ dials => dials.all fun d => dialed d.2
    | .done _ => false
    | _ => true
  | .send s =>
    match s.stage with
    | .reaching _ d _ => dialed d
    | .awaitingAsking _ c _ | .awaiting _ c => answered c
    | .refreshing _ _ d => refreshed d
    | .resting _ => false
    | _ => true
  | .opening stage =>
    match stage with
    | .start => true
    | .seeding dials => (r.firstFailure? dials).isSome || dials.all dialed
    | .loading d => refreshed d
  | .reload d | .recovery d => d.all refreshed

section

variable (r : Router) (id root choice : Nat)

theorem stepDial_isSome (address : String) (stage : DialStage) :
    (r.stepTask choice ⟨id, root, .dial address stage⟩).isSome =
      r.isFree ⟨id, root, .dial address stage⟩ := by
  cases stage with
  | calling | opened | guarded | surplus | done => rfl
  | seek =>
    dsimp only [stepTask, isFree, stepDial]
    cases r.live? address <;> rfl
  | greet c =>
    dsimp only [stepTask, isFree, stepDial]
    cases r.isDown c <;> rfl
  | greeting c t =>
    dsimp only [stepTask, isFree, stepDial]
    cases r.mail? t with
    | none => rfl
    | some o => cases o <;> rfl
  | join c =>
    dsimp only [stepTask, isFree, stepDial]
    cases r.isDown c with
    | true => rfl
    | false => cases r.live? address <;> rfl

theorem stepRefresh_isSome (stage : RefreshStage) :
    (r.stepTask choice ⟨id, root, .refresh stage⟩).isSome = r.isFree ⟨id, root, .refresh stage⟩ := by
  cases stage with
  | enter | comparing | evicting | done => rfl
  | waiting =>
    dsimp only [stepTask, isFree, stepRefresh]
    by_cases h : r.lock.head? = some id
    · simp only [h, if_true, decide_true, Option.isSome_some]
    · simp only [h, if_false, decide_false, Option.isSome_none]
  | choosing failed =>
    dsimp only [stepTask, isFree, stepRefresh]
    cases r.pick failed choice <;> rfl
  | asking failed address c =>
    dsimp only [stepTask, isFree, stepRefresh]
    cases r.isDown c <;> rfl
  | awaiting failed address c t =>
    dsimp only [stepTask, isFree, stepRefresh]
    cases r.mail? t with
    | none => rfl
    | some o =>
      cases o with
      | error e => rfl
      | ok reply =>
        dsimp only
        cases SlotTable.load (Address.hostOf address) reply <;> rfl
  | filling table dials =>
    dsimp only [stepTask, isFree, stepRefresh]
    cases dials.all fun d => (r.dialResult? d.2).isSome <;> rfl
  | installing table =>
    dsimp only [stepTask, isFree, stepRefresh]
    cases table.addresses.isEmpty <;> rfl
  | closing evicted => cases evicted <;> rfl

theorem stepSend_isSome (s : Sending) :
    (r.stepTask choice ⟨id, root, .send s⟩).isSome = r.isFree ⟨id, root, .send s⟩ := by
  obtain ⟨command, frame, budget, attempt, stage⟩ := s
  cases stage with
  | resting => rfl
  | route =>
    dsimp only [stepTask, isFree, stepSend]
    cases r.target? command choice with
    | some address => rfl
    | none =>
      dsimp only
      cases r.pick [] choice <;> rfl
  | reaching held d asking =>
    dsimp only [stepTask, isFree, stepSend]
    cases r.dialResult? d with
    | none => rfl
    | some result => cases result <;> rfl
  | submit c | submitAsking c | submitAsked c =>
    dsimp only [stepTask, isFree, stepSend]
    cases r.isDown c <;> rfl
  | awaitingAsking c asking t =>
    dsimp only [stepTask, isFree, stepSend]
    cases r.mail? asking <;> rfl
  | awaiting c t =>
    dsimp only [stepTask, isFree, stepSend]
    cases r.mail? t <;> rfl
  | refreshing c target d =>
    dsimp only [stepTask, isFree, stepSend]
    cases r.refreshResult? d <;> rfl

theorem stepOpening_isSome (stage : OpeningStage) :
    (r.stepTask choice ⟨id, root, .opening stage⟩).isSome = r.isFree ⟨id, root, .opening stage⟩ := by
  cases stage with
  | start => rfl
  | seeding dials =>
    dsimp only [stepTask, isFree, stepOpening]
    cases r.firstFailure? dials with
    | some e => rfl
    | none =>
      dsimp only
      cases dials.all fun d => (r.dialResult? d).isSome <;> rfl
  | loading d =>
    dsimp only [stepTask, isFree, stepOpening]
    cases r.refreshResult? d with
    | none => rfl
    | some result => cases result <;> rfl

theorem stepReload_isSome (d? : Option TaskId) :
    (r.stepTask choice ⟨id, root, .reload d?⟩).isSome = r.isFree ⟨id, root, .reload d?⟩ := by
  cases d? with
  | none => rfl
  | some d =>
    dsimp only [stepTask, isFree, stepReload, Option.all_some]
    cases r.refreshResult? d <;> rfl

theorem stepRecovery_isSome (d? : Option TaskId) :
    (r.stepTask choice ⟨id, root, .recovery d?⟩).isSome = r.isFree ⟨id, root, .recovery d?⟩ := by
  cases d? with
  | none => rfl
  | some d =>
    dsimp only [stepTask, isFree, stepRecovery, Option.all_some]
    cases r.refreshResult? d with
    | none => rfl
    | some result => cases result <;> rfl

end

theorem stepTask_isSome (r : Router) (choice : Nat) (t : Task) :
    (r.stepTask choice t).isSome = r.isFree t := by
  obtain ⟨id, root, job⟩ := t
  cases job with
  | dial => exact stepDial_isSome ..
  | refresh => exact stepRefresh_isSome ..
  | send => exact stepSend_isSome ..
  | opening => exact stepOpening_isSome ..
  | reload => exact stepReload_isSome ..
  | recovery => exact stepRecovery_isSome ..

end Router

end RespClient.Cluster
